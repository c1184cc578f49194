import Mathlib.Data.List.Nodup
import SelectorXPath.Proofs.OptionSpellings

namespace SelectorXPath

namespace CommandLine

variable (line : CommandLine)

def file? : Option Text := valueIn GivenValue.file? line.settings

def explains : Bool := isRaised .explain line.settings

def effective (config : Config) : Config where
  anchor := (valueIn GivenValue.anchor? line.settings).getD config.anchor
  format := (valueIn GivenValue.format? line.settings).getD config.format
  keepGoing := isRaised .keepGoing line.settings || config.keepGoing
  echo := isRaised .echo line.settings || config.echo

end CommandLine

section Running

variable {line other full : CommandLine} {config : Config}

structure AskAlike (line other : CommandLine) (config config' : Config) : Prop where
  selectors : line.selectors = other.selectors
  file : line.file? = other.file?
  explains : line.explains = other.explains
  effective : line.effective config = other.effective config'

theorem collectSelectors_congr {find : Text → Except FileError FileEntry} {input : Bytes}
    {options options' : Options} (entry entry' : Option FileEntry)
    (hselectors : options.selectors = options'.selectors) (hfile : options.file = options'.file) :
    collectSelectors ⟨find, entry, input⟩ options =
      collectSelectors ⟨find, entry', input⟩ options' := by
  simp only [collectSelectors, hselectors, hfile]

theorem runOptions_congr {world world' : World} {options options' : Options}
    (hcollect : collectSelectors world options = collectSelectors world' options')
    (hexplain : options.explain = options'.explain)
    (hsettings : options.settings (.ofEntry world.config) =
      options'.settings (.ofEntry world'.config)) :
    runOptions world options = runOptions world' options' := by
  rw [runOptions, runOptions, hcollect, hexplain, hsettings]

theorem CommandLine.runCommand_words (line : CommandLine) (world : World) :
    runCommand world line.words =
      some (runOptions world (optionsOf line.selectors line.settings)) := by
  rw [runCommand, line.readCommandLine_words]
  rfl

theorem AskAlike.runCommand_eq {entry entry' : Option FileEntry}
    (h : AskAlike line other (.ofEntry entry) (.ofEntry entry'))
    (find : Text → Except FileError FileEntry) (input : Bytes) :
    runCommand ⟨find, entry, input⟩ line.words = runCommand ⟨find, entry', input⟩ other.words := by
  rw [line.runCommand_words, other.runCommand_words]
  exact congrArg some
    (runOptions_congr (collectSelectors_congr entry entry' h.selectors h.file) h.explains h.effective)

end Running

section SpellingOut

variable {line full : CommandLine} {config : Config} {settings : List Setting}

def Config.asSettings (config : Config) : List Setting :=
  [.value (.anchor config.anchor), .value (.format config.format)] ++
    ((if config.keepGoing then [.flag .keepGoing] else []) ++
      if config.echo then [.flag .echo] else [])

theorem Config.mem_asSettings {setting : Setting} :
    setting ∈ config.asSettings ↔
      setting = .value (.anchor config.anchor) ∨ setting = .value (.format config.format) ∨
        config.keepGoing = true ∧ setting = .flag .keepGoing ∨
        config.echo = true ∧ setting = .flag .echo := by
  cases hk : config.keepGoing <;> cases he : config.echo <;> simp [asSettings, hk, he]

/-- The first command line gives what the second does, and besides what the configuration sets for
the options that the second does not give. -/
structure SpellsOut (full line : CommandLine) (config : Config) : Prop where
  selectors : full.selectors = line.selectors
  settings : ∀ setting, setting ∈ full.settings ↔
    setting ∈ line.settings ∨ setting ∈ config.asSettings ∧ setting.kind ∉ kinds line.settings

theorem CommandLine.nodup_kinds (line : CommandLine) : (kinds line.settings).Nodup := line.once

theorem valueIn_eq_some_iff {α : Type} {read : GivenValue → Option α} {option : ValueOption} {a : α}
    (hread : GivenValue.Reads read option) (hnodup : (kinds settings).Nodup) :
    valueIn read settings = some a ↔ ∃ given, .value given ∈ settings ∧ read given = some a := by
  have hsound {b : α} (h : valueIn read settings = some b) :
      ∃ given, .value given ∈ settings ∧ read given = some b := by
    obtain ⟨setting, hmem, hsetting⟩ := List.exists_of_findSome?_eq_some h
    cases setting with
    | flag f => cases hsetting
    | value given => exact ⟨given, hmem, hsetting⟩
  have hoption {given : GivenValue} {b : α} (h : read given = some b) : given.option = option := by
    by_contra hne
    rw [(hread given).mpr hne] at h
    cases h
  refine ⟨hsound, ?_⟩
  rintro ⟨given, hmem, hgiven⟩
  cases h : valueIn read settings with
  | none =>
    rw [valueIn_eq_none_iff hread, ← hoption hgiven] at h
    exact absurd (mem_kinds hmem) h
  | some b =>
    obtain ⟨given', hmem', hgiven'⟩ := hsound h
    have hkind : (Setting.value given').kind = (Setting.value given).kind := by
      rw [Setting.kind, Setting.kind, hoption hgiven, hoption hgiven']
    obtain ⟨rfl⟩ := List.inj_on_of_nodup_map hnodup hmem' hmem hkind
    rw [← hgiven', ← hgiven]

namespace SpellsOut

theorem valueIn_eq {α : Type} {read : GivenValue → Option α} {a : α}
    (h : SpellsOut full line config) (given : GivenValue)
    (hread : GivenValue.Reads read given.option) (hmem : .value given ∈ config.asSettings)
    (ha : read given = some a) :
    valueIn read full.settings = some ((valueIn read line.settings).getD a) := by
  rw [valueIn_eq_some_iff hread full.nodup_kinds]
  cases hline : valueIn read line.settings with
  | some b =>
    obtain ⟨other, hother, hb⟩ := (valueIn_eq_some_iff hread line.nodup_kinds).mp hline
    exact ⟨other, (h.settings _).mpr (.inl hother), hb⟩
  | none =>
    have hkind := (valueIn_eq_none_iff hread).mp hline
    exact ⟨given, (h.settings _).mpr (.inr ⟨hmem, hkind⟩), ha⟩

theorem file?_eq (h : SpellsOut full line config) : full.file? = line.file? := by
  refine Option.ext fun name => ?_
  rw [CommandLine.file?, CommandLine.file?,
    valueIn_eq_some_iff GivenValue.file?_reads full.nodup_kinds,
    valueIn_eq_some_iff GivenValue.file?_reads line.nodup_kinds]
  constructor
  · rintro ⟨given, hmem, hname⟩
    rcases (h.settings _).mp hmem with hline | ⟨hconfig, -⟩
    · exact ⟨given, hline, hname⟩
    · rcases Config.mem_asSettings.mp hconfig with heq | heq | ⟨-, heq⟩ | ⟨-, heq⟩
      all_goals cases heq
      all_goals cases hname
  · rintro ⟨given, hmem, hname⟩
    exact ⟨given, (h.settings _).mpr (.inl hmem), hname⟩

theorem isRaised_eq (h : SpellsOut full line config) (flag : Flag) :
    isRaised flag full.settings =
      (isRaised flag line.settings || isRaised flag config.asSettings) := by
  have hkind : Setting.flag flag ∈ line.settings ↔ .flag flag ∈ kinds line.settings := by
    rw [← isRaised_iff, isRaised, List.contains_iff_mem]
  rw [Bool.eq_iff_iff, Bool.or_eq_true]
  simp only [isRaised, List.contains_iff_mem, h.settings, Setting.kind, ← hkind]
  tauto

theorem askAlike (h : SpellsOut full line config) : AskAlike full line default config where
  selectors := h.selectors
  file := h.file?_eq
  explains := by
    have hconfig : isRaised .explain config.asSettings = false := by
      rw [← Bool.not_eq_true, isRaised, List.contains_iff_mem, Config.mem_asSettings]
      simp
    rw [CommandLine.explains, h.isRaised_eq, hconfig, Bool.or_false]
    rfl
  effective := by
    have hanchor : valueIn GivenValue.anchor? full.settings =
        some ((valueIn GivenValue.anchor? line.settings).getD config.anchor) :=
      h.valueIn_eq (.anchor _) GivenValue.anchor?_reads (Config.mem_asSettings.mpr (.inl rfl)) rfl
    have hformat : valueIn GivenValue.format? full.settings =
        some ((valueIn GivenValue.format? line.settings).getD config.format) :=
      h.valueIn_eq (.format _) GivenValue.format?_reads
        (Config.mem_asSettings.mpr (.inr (.inl rfl))) rfl
    have hkeepGoing : isRaised .keepGoing config.asSettings = config.keepGoing := by
      rw [Bool.eq_iff_iff, isRaised, List.contains_iff_mem, Config.mem_asSettings]
      simp
    have hecho : isRaised .echo config.asSettings = config.echo := by
      rw [Bool.eq_iff_iff, isRaised, List.contains_iff_mem, Config.mem_asSettings]
      simp
    simp only [CommandLine.effective, hanchor, hformat, h.isRaised_eq, hkeepGoing, hecho,
      Option.getD_some]
    have hdefault : (default : Config).keepGoing = false ∧ (default : Config).echo = false :=
      ⟨rfl, rfl⟩
    rw [hdefault.1, hdefault.2, Bool.or_false, Bool.or_false]

end SpellsOut

def Item.long : Setting → Item
  | .value given => .option [.value given] _ (.longJoined given)
  | .flag f => .option [.flag f] _ (.longFlag f)

theorem flatMap_long (settings : List Setting) :
    (settings.map Item.long).flatMap Item.settings = settings ∧
      (settings.map Item.long).flatMap Item.selectors = [] := by
  induction settings with
  | nil => exact ⟨rfl, rfl⟩
  | cons setting settings ih =>
    simp only [List.map_cons, List.flatMap_cons, ih]
    cases setting <;> exact ⟨rfl, rfl⟩

theorem Config.nodup_kinds_asSettings (config : Config) : (kinds config.asSettings).Nodup := by
  cases hk : config.keepGoing <;> cases he : config.echo <;>
    simp [asSettings, kinds, Setting.kind, GivenValue.option, hk, he]

theorem exists_spellsOut (line : CommandLine) (config : Config) :
    ∃ full, SpellsOut full line config := by
  let missing := config.asSettings.filter fun setting => setting.kind ∉ kinds line.settings
  have hsettings : (line.items ++ missing.map Item.long).flatMap Item.settings =
      line.settings ++ missing := by
    rw [List.flatMap_append, (flatMap_long missing).1]
    rfl
  have honce : (kinds (line.settings ++ missing)).Nodup := by
    rw [kinds, List.map_append]
    refine List.nodup_append.mpr ⟨line.nodup_kinds, ?_, ?_⟩
    · exact config.nodup_kinds_asSettings.sublist (List.filter_sublist.map Setting.kind)
    · rintro kind hkind kind' hkind' rfl
      obtain ⟨setting, hmem, rfl⟩ := List.mem_map.mp hkind'
      exact of_decide_eq_true (List.mem_filter.mp hmem).2 hkind
  refine ⟨⟨line.items ++ missing.map Item.long, hsettings ▸ honce⟩, ?_, fun setting => ?_⟩
  · rw [CommandLine.selectors, List.flatMap_append, (flatMap_long missing).2, List.append_nil]
    rfl
  · rw [CommandLine.settings, hsettings, List.mem_append, List.mem_filter, decide_eq_true_iff]

end SpellingOut

theorem commandLine_outcome (line : CommandLine) (entry : Option FileEntry)
    (find : Text → Except FileError FileEntry) (input : Bytes) :
    ∃ outcome, runCommand ⟨find, entry, input⟩ line.words = some outcome ∧
      (∀ other entry', AskAlike line other (.ofEntry entry) (.ofEntry entry') →
        runCommand ⟨find, entry', input⟩ other.words = some outcome) ∧
      (∃ full, SpellsOut full line (.ofEntry entry)) ∧
      ∀ full, SpellsOut full line (.ofEntry entry) →
        runCommand ⟨find, none, input⟩ full.words = some outcome := by
  have hline := line.runCommand_words ⟨find, entry, input⟩
  refine ⟨_, hline, fun other entry' halike => ?_, exists_spellsOut line _, fun full hfull => ?_⟩
  · rw [← halike.runCommand_eq, hline]
  · have halike : AskAlike full line (.ofEntry none) (.ofEntry entry) := hfull.askAlike
    rw [halike.runCommand_eq, hline]

theorem commandLine_outcome_bundled :
    ∃ outcome,
      runCommand ⟨fun _ => .ok (.file (Utf8.encode "p".toList)),
          some (.file (Utf8.encode "output_format = 'json'".toList)), []⟩
        ["-".toList, "-kf".toList, "l".toList, "a>b".toList, "--root=anywhere".toList] =
          some outcome ∧
      runCommand ⟨fun _ => .ok (.file (Utf8.encode "p".toList)), none, []⟩
        ["--format".toList, "json".toList, "-".toList, "-ranywhere".toList, "a>b".toList,
          "--file=l".toList, "--keep-going".toList] = some outcome := by
  let file : GivenValue := .file "l".toList (by decide)
  let line : CommandLine :=
    ⟨[.selector "-".toList rfl,
      .option _ _ (.lettersApart file (.cons (show Flag.letter? .keepGoing = some 'k' from rfl) .nil)
        rfl rfl),
      .selector "a>b".toList rfl, .option _ _ (.longJoined (.anchor .anywhere))], by decide⟩
  let other : CommandLine :=
    ⟨[.option _ _ (.longApart (.format .json) rfl), .selector "-".toList rfl,
      .option _ _ (.lettersJoined (.anchor .anywhere) .nil rfl (by decide)),
      .selector "a>b".toList rfl, .option _ _ (.longJoined file),
      .option _ _ (.longFlag .keepGoing)], by decide⟩
  have halike : AskAlike line other
      (.ofEntry (some (.file (Utf8.encode "output_format = 'json'".toList)))) (.ofEntry none) :=
    ⟨rfl, rfl, rfl, by decide +kernel⟩
  obtain ⟨outcome, hline, hother, -⟩ := commandLine_outcome line
    (some (.file (Utf8.encode "output_format = 'json'".toList)))
    (fun _ => .ok (.file (Utf8.encode "p".toList))) []
  exact ⟨outcome, hline, hother other none halike⟩

end SelectorXPath
