import SelectorXPath.Config.Store
import SelectorXPath.Proofs.EncodedText
import SelectorXPath.Proofs.SettingLines

namespace SelectorXPath

namespace FileTree

section Directories

variable {tree : FileTree} {above path : TreePath} {names : List Text}

def IsEmptyDirectory (tree : FileTree) (path : TreePath) : Prop :=
  tree.get? path = some .directory ∧ ∀ below, below ≠ [] → tree.get? (path ++ below) = none

def MeetsFile (tree : FileTree) (above : TreePath) (names : List Text) : Prop :=
  ∃ way content, way ≠ [] ∧ way <+: names ∧ tree.get? (above ++ way) = some (.file content)

theorem isEmptyDirectory_put (tree : FileTree) (path : TreePath) :
    (tree.put path .directory).IsEmptyDirectory path :=
  ⟨get?_put_self tree path .directory, fun _ h => get?_put_below tree path .directory h⟩

theorem meetsFile_nil : ¬ tree.MeetsFile above [] := by
  rintro ⟨way, -, hne, hway, -⟩
  exact hne (List.prefix_nil.mp hway)

theorem meetsFile_cons {name : Text} :
    tree.MeetsFile above (name :: names) ↔
      (∃ content, tree.get? (above ++ [name]) = some (.file content)) ∨
        tree.MeetsFile (above ++ [name]) names := by
  constructor
  · rintro ⟨way, content, hne, hway, hget⟩
    obtain ⟨first, more, rfl⟩ := List.exists_cons_of_ne_nil hne
    obtain ⟨rfl, hmore⟩ := List.cons_prefix_cons.mp hway
    by_cases hend : more = []
    · exact .inl ⟨content, by rwa [hend] at hget⟩
    · exact .inr ⟨more, content, hend, hmore, by rwa [← List.append_cons]⟩
  · rintro (⟨content, hget⟩ | ⟨way, content, hne, hway, hget⟩)
    · exact ⟨[name], content, by simp, by simp, hget⟩
    · exact ⟨name :: way, content, by simp, List.cons_prefix_cons.mpr ⟨rfl, hway⟩,
        by rwa [List.append_cons]⟩

theorem not_meetsFile_of_get?_eq_none (h : tree.get? above = none) :
    ¬ tree.MeetsFile above names := by
  rintro ⟨way, content, -, -, hget⟩
  rw [get?_append_eq_none way h] at hget
  cases hget

theorem makeDirectories_of_isEmptyDirectory (h : tree.IsEmptyDirectory above)
    (names : List Text) :
    ∃ made, tree.makeDirectories above names = (made, .ok ()) ∧
      made.IsEmptyDirectory (above ++ names) := by
  induction names generalizing tree above with
  | nil => exact ⟨tree, rfl, by rwa [List.append_nil]⟩
  | cons name more ih =>
    obtain ⟨made, hmade, hempty⟩ := ih (isEmptyDirectory_put tree (above ++ [name]))
    refine ⟨made, ?_, by rwa [List.append_cons]⟩
    rw [makeDirectories, h.2 [name] (by simp)]
    exact hmade

theorem makeDirectories_cases (h : tree.get? above = some .directory) (names : List Text) :
    (tree.MeetsFile above names ∧ ∃ e, tree.makeDirectories above names = (tree, .error e)) ∨
      ¬ tree.MeetsFile above names ∧
        ((tree.makeDirectories above names = (tree, .ok ()) ∧
            tree.get? (above ++ names) = some .directory) ∨
          tree.get? (above ++ names) = none ∧
            ∃ made, tree.makeDirectories above names = (made, .ok ()) ∧
              made.IsEmptyDirectory (above ++ names)) := by
  -- The tree changes only where nothing stands, and from there on nothing can be in the way.
  induction names generalizing above with
  | nil => exact .inr ⟨meetsFile_nil, .inl ⟨rfl, by rwa [List.append_nil]⟩⟩
  | cons name more ih =>
    rw [meetsFile_cons, List.append_cons above name more, makeDirectories]
    cases hget : tree.get? (above ++ [name]) with
    | none =>
      obtain ⟨made, hmade, hempty⟩ :=
        makeDirectories_of_isEmptyDirectory (isEmptyDirectory_put tree (above ++ [name])) more
      refine .inr ⟨?_, .inr ⟨get?_append_eq_none more hget, made, hmade, hempty⟩⟩
      rintro (⟨content, hfile⟩ | hmeets)
      · cases hfile
      · exact not_meetsFile_of_get?_eq_none hget hmeets
    | some entry =>
      cases entry with
      | file content => exact .inl ⟨.inl ⟨content, rfl⟩, _, rfl⟩
      | directory => simpa using ih hget

theorem write_in_directory (h : tree.get? path.dropLast = some .directory) (content : Bytes) :
    tree.write path content =
      if tree.get? path = some .directory then (tree, .error .isDirectory)
      else (tree.put path (.file content), .ok ()) := by
  rw [write, h]
  split
  · next hnone => cases hnone
  · next hfile => cases hfile
  · next hget => rw [if_pos hget]
  · next hget => rw [if_neg hget]

end Directories

end FileTree

namespace Config

variable {home : FileTree} {file : TreePath}

def IsObstructed (home : FileTree) (file : TreePath) : Prop :=
  home.get? file = some .directory ∨ home.MeetsFile [] file.dropLast

theorem saveTo_cases (hroot : home.get? [] = some .directory) (hfile : file ≠ [])
    (config : Config) :
    (IsObstructed home file ∧ ∃ e, config.saveTo file home = (home, .error e)) ∨
      ¬ IsObstructed home file ∧ ∃ made : FileTree, config.saveTo file home =
        (made.put file (.file (Utf8.encode config.render)), .ok ()) := by
  rw [saveTo]
  obtain ⟨hmeets, e, hmake⟩ | ⟨hmeets, ⟨hmake, hget⟩ | ⟨hget, made, hmake, hempty⟩⟩ :=
    home.makeDirectories_cases hroot file.dropLast
  · rw [hmake]
    exact .inl ⟨.inr hmeets, e, rfl⟩
  · rw [hmake]
    simp only [FileTree.write_in_directory hget]
    by_cases hdirectory : home.get? file = some .directory
    · exact .inl ⟨.inl hdirectory, .isDirectory, if_pos hdirectory⟩
    · exact .inr ⟨not_or.mpr ⟨hdirectory, hmeets⟩, home, if_neg hdirectory⟩
  · have hlast : file.dropLast ++ [file.getLast hfile] = file := List.dropLast_append_getLast hfile
    have hbefore := FileTree.get?_append_eq_none [file.getLast hfile] hget
    have hnow := hempty.2 [file.getLast hfile] (by simp)
    rw [List.nil_append, hlast] at hbefore hnow
    rw [hmake]
    simp only [FileTree.write_in_directory hempty.1]
    refine .inr ⟨not_or.mpr ⟨by simp [hbefore], hmeets⟩, made, if_neg (by simp [hnow])⟩

theorem textIn_encode (t : Text) : textIn (some (.file (Utf8.encode t))) = some t := by
  simp only [textIn, readPlain, FileEntry.read, textOfBytes, Utf8.decode_eq_ok_iff.mpr rfl]
  rfl

theorem ofEntry_saved (config : Config) :
    ofEntry (some (.file (Utf8.encode config.render))) = config := by
  rw [ofEntry, textIn_encode, Option.bind_some, parse_render, Option.getD_some]

theorem load_eq_loadFrom (home : FileTree) : load home = loadFrom home path := by
  rw [load, loadFrom]
  cases home.get? path with
  | none => rfl
  | some entry => rfl

end Config

inductive StoreReading where
  | text
  | load
  | loadFrom
deriving DecidableEq, Repr

inductive StoreEvent where
  | write (content : Bytes)
  | makeDirectory
  | block
  | clear
  | save (config : Config)
  | ask (reading : StoreReading)
deriving DecidableEq, Repr

inductive StoreAnswer where
  | done
  | failed (error : FileError)
  | text (content : Option Text)
  | settings (config : Config)
deriving DecidableEq, Repr

def StoreReading.answer (home : FileTree) : StoreReading → StoreAnswer
  | .text => .text (Config.textIn (home.get? Config.path))
  | .load => .settings (Config.load home)
  | .loadFrom => .settings (Config.loadFrom home Config.path)

def StoreReading.answerFor (config : Config) : StoreReading → StoreAnswer
  | .text => .text (some config.render)
  | .load => .settings config
  | .loadFrom => .settings config

def StoreEvent.apply (home : FileTree) : StoreEvent → FileTree × StoreAnswer
  | .write content => (home.put Config.path (.file content), .done)
  | .makeDirectory => (home.put Config.path .directory, .done)
  | .block => (home.put Config.path.dropLast (.file []), .done)
  | .clear => (.empty, .done)
  | .save config =>
    match config.saveTo Config.path home with
    | (saved, .ok ()) => (saved, .done)
    | (saved, .error e) => (saved, .failed e)
  | .ask reading => (home, reading.answer home)

def runEvents (home : FileTree) : List StoreEvent → FileTree × List StoreAnswer
  | [] => (home, [])
  | event :: later =>
    let (next, answer) := event.apply home
    let (last, answers) := runEvents next later
    (last, answer :: answers)

def Reachable (home : FileTree) : Prop := ∃ history, (runEvents .empty history).1 = home

section Events

variable {home : FileTree} {config : Config}

theorem runEvents_cons (event : StoreEvent) (later : List StoreEvent) :
    runEvents home (event :: later) =
      ((runEvents (event.apply home).1 later).1,
        (event.apply home).2 :: (runEvents (event.apply home).1 later).2) :=
  rfl

theorem runEvents_readings (home : FileTree) (readings : List StoreReading) :
    runEvents home (readings.map .ask) = (home, readings.map (·.answer home)) := by
  induction readings with
  | nil => rfl
  | cons reading more ih =>
    have hstep : (StoreEvent.ask reading).apply home = (home, reading.answer home) := rfl
    rw [List.map_cons, runEvents_cons, hstep, ih, List.map_cons]

def HasDirectoriesAbove (home : FileTree) : Prop :=
  ∀ above, above <+: Config.path.dropLast.dropLast →
    ∀ content, home.get? above ≠ some (.file content)

theorem hasDirectoriesAbove_empty : HasDirectoriesAbove .empty := by
  intro above _ content hget
  cases FileTree.mem_entries_of_get?_file hget

theorem hasDirectoriesAbove_put {path : TreePath} {entry : FileEntry}
    (hpath : Config.path.dropLast <+: path) : HasDirectoriesAbove (home.put path entry) := by
  intro above habove content
  have hprefix : above <+: path := (habove.trans (List.dropLast_prefix _)).trans hpath
  have hlength : above.length < path.length :=
    calc above.length ≤ Config.path.dropLast.dropLast.length := habove.length_le
      _ < Config.path.dropLast.length := by decide
      _ ≤ path.length := hpath.length_le
  rw [FileTree.get?_put_above home entry hprefix (by rintro rfl; omega)]
  simp

theorem HasDirectoriesAbove.get?_nil (h : HasDirectoriesAbove home) :
    home.get? [] = some .directory := by
  cases hget : home.get? [] with
  | none => exact absurd rfl (FileTree.get?_eq_none_iff.mp hget).1
  | some entry =>
    cases entry with
    | file content => exact absurd hget (h [] List.nil_prefix content)
    | directory => rfl

theorem HasDirectoriesAbove.saveTo_cases (h : HasDirectoriesAbove home) (config : Config) :
    (Config.IsObstructed home Config.path ∧
        ∃ e, config.saveTo Config.path home = (home, .error e)) ∨
      ¬ Config.IsObstructed home Config.path ∧ ∃ made : FileTree, config.saveTo Config.path home =
        (made.put Config.path (.file (Utf8.encode config.render)), .ok ()) :=
  Config.saveTo_cases h.get?_nil (by simp [Config.path]) config

theorem HasDirectoriesAbove.apply (h : HasDirectoriesAbove home) (event : StoreEvent) :
    HasDirectoriesAbove (event.apply home).1 := by
  cases event with
  | write content => exact hasDirectoriesAbove_put (List.dropLast_prefix _)
  | makeDirectory => exact hasDirectoriesAbove_put (List.dropLast_prefix _)
  | block => exact hasDirectoriesAbove_put List.prefix_rfl
  | clear => exact hasDirectoriesAbove_empty
  | save config =>
    rw [StoreEvent.apply]
    obtain ⟨-, e, hsave⟩ | ⟨-, made, hsave⟩ := h.saveTo_cases config
    · rw [hsave]
      exact h
    · rw [hsave]
      exact hasDirectoriesAbove_put (List.dropLast_prefix _)
  | ask reading => exact h

theorem HasDirectoriesAbove.runEvents (h : HasDirectoriesAbove home) (history : List StoreEvent) :
    HasDirectoriesAbove (runEvents home history).1 := by
  induction history generalizing home with
  | nil => exact h
  | cons event later ih => exact ih (h.apply event)

theorem Reachable.hasDirectoriesAbove (h : Reachable home) : HasDirectoriesAbove home := by
  obtain ⟨history, rfl⟩ := h
  exact hasDirectoriesAbove_empty.runEvents history

theorem HasDirectoriesAbove.isObstructed_iff (h : HasDirectoriesAbove home) :
    Config.IsObstructed home Config.path ↔
      home.get? Config.path = some .directory ∨
        ∃ content, home.get? Config.path.dropLast = some (.file content) := by
  refine or_congr_right ⟨?_, ?_⟩
  · rintro ⟨way, content, -, hway, hget⟩
    have hcut : Config.path.dropLast = Config.path.dropLast.dropLast ++ ["jqxpath".toList] := rfl
    rw [hcut, List.prefix_concat_iff, ← hcut] at hway
    obtain rfl | habove := hway
    · exact ⟨content, hget⟩
    · exact absurd hget (h way habove content)
  · rintro ⟨content, hget⟩
    exact ⟨Config.path.dropLast, content, by decide, List.prefix_rfl, hget⟩

theorem HasDirectoriesAbove.save_cases (h : HasDirectoriesAbove home) (config : Config) :
    (Config.IsObstructed home Config.path ∧ config.save home = none ∧
        ∃ e, (StoreEvent.save config).apply home = (home, .failed e)) ∨
      ¬ Config.IsObstructed home Config.path ∧ ∃ saved, config.save home = some saved ∧
        (StoreEvent.save config).apply home = (saved, .done) ∧
        saved.get? Config.path = some (.file (Utf8.encode config.render)) := by
  rw [Config.save, StoreEvent.apply]
  obtain ⟨hobstructed, e, hsave⟩ | ⟨hfree, made, hsave⟩ := h.saveTo_cases config
  · rw [hsave]
    exact .inl ⟨hobstructed, rfl, e, rfl⟩
  · rw [hsave]
    exact .inr ⟨hfree, _, rfl, rfl, FileTree.get?_put_self _ _ _⟩

theorem answer_eq_answerFor
    (h : home.get? Config.path = some (.file (Utf8.encode config.render)))
    (reading : StoreReading) : reading.answer home = reading.answerFor config := by
  have hloadFrom : Config.loadFrom home Config.path = config := by
    rw [Config.loadFrom, h, Config.ofEntry_saved]
  cases reading with
  | text => rw [StoreReading.answer, h, Config.textIn_encode]; rfl
  | load => rw [StoreReading.answer, Config.load_eq_loadFrom, hloadFrom]; rfl
  | loadFrom => rw [StoreReading.answer, hloadFrom]; rfl

end Events

theorem reachable_store_law {home : FileTree} (h : Reachable home) :
    (Config.load home = Config.loadFrom home Config.path ∧
        ∀ readings : List StoreReading,
          runEvents home (readings.map .ask) = (home, readings.map (·.answer home))) ∧
      ∀ config : Config,
        (∀ saved, config.save home = some saved → ∀ readings : List StoreReading,
          runEvents home (.save config :: readings.map .ask) =
            (saved, .done :: readings.map (·.answerFor config))) ∧
        (config.save home = none → ∃ e, ∀ later,
          runEvents home (.save config :: later) =
            ((runEvents home later).1, .failed e :: (runEvents home later).2)) ∧
        (config.save home = none ↔
          home.get? Config.path = some .directory ∨
            ∃ content, home.get? Config.path.dropLast = some (.file content)) := by
  have habove := h.hasDirectoriesAbove
  refine ⟨⟨Config.load_eq_loadFrom home, runEvents_readings home⟩, fun config => ?_⟩
  rw [← habove.isObstructed_iff]
  obtain ⟨hobstructed, hnone, e, happly⟩ | ⟨hfree, saved, hsome, happly, hget⟩ :=
    habove.save_cases config
  · refine ⟨fun saved hsave => ?_, fun _ => ⟨e, fun later => ?_⟩, iff_of_true hnone hobstructed⟩
    · rw [hnone] at hsave
      cases hsave
    · rw [runEvents_cons, happly]
  · refine ⟨fun saved' hsave readings => ?_, fun hnone => ?_, iff_of_false (by simp [hsome]) hfree⟩
    · obtain rfl := Option.some.inj (hsome.symm.trans hsave)
      rw [runEvents_cons, happly, runEvents_readings]
      simp only [answer_eq_answerFor hget]
    · rw [hsome] at hnone
      cases hnone

theorem reachable_store_law_damaged :
    let config : Config := ⟨.anywhere, .json, true, false⟩
    let garbled := (runEvents .empty [.block, .write [0xFF]]).1
    let blocked := (runEvents .empty [.write [0xFF], .block]).1
    (∃ saved, config.save garbled = some saved ∧
        runEvents garbled [.save config, .ask .load, .ask .loadFrom] =
          (saved, [.done, .settings config, .settings config])) ∧
      config.save blocked = none ∧
        ∃ e, runEvents blocked [.save config, .ask .load] =
          (blocked, [.failed e, .settings default]) := by
  intro config garbled blocked
  have hsaved : config.save garbled =
      some (garbled.put Config.path (.file (Utf8.encode config.render))) := by decide +kernel
  have hnone : config.save blocked = none := by decide +kernel
  have hdefault : Config.load blocked = default := by decide +kernel
  have hgarbled := (reachable_store_law ⟨[.block, .write [0xFF]], rfl⟩).2 config
  have hblocked := (reachable_store_law ⟨[.write [0xFF], .block], rfl⟩).2 config
  obtain ⟨e, hfailed⟩ := hblocked.2.1 hnone
  refine ⟨⟨_, hsaved, hgarbled.1 _ hsaved [.load, .loadFrom]⟩, hnone, e, ?_⟩
  rw [hfailed [.ask .load], ← hdefault]
  rfl

end SelectorXPath
