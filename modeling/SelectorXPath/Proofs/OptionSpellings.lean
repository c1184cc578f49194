import SelectorXPath.Proofs.InputRoutes

namespace SelectorXPath

def ValueOption.name : ValueOption → Text
  | .file => "file".toList
  | .anchor => "root".toList
  | .format => "format".toList

def ValueOption.letter? : ValueOption → Option Char
  | .file => some 'f'
  | .anchor => some 'r'
  | .format => none

def Flag.name : Flag → Text
  | .echo => "echo".toList
  | .keepGoing => "keep-going".toList
  | .explain => "explain".toList

def Flag.letter? : Flag → Option Char
  | .echo => some 'e'
  | .keepGoing => some 'k'
  | .explain => none

inductive GivenValue where
  | file (name : Text) (nonempty : name ≠ [])
  | anchor (a : Anchor)
  | format (f : OutputFormat)
deriving DecidableEq

namespace GivenValue

def option : GivenValue → ValueOption
  | .file _ _ => .file
  | .anchor _ => .anchor
  | .format _ => .format

def text : GivenValue → Text
  | .file name _ => name
  | .anchor a => a.name
  | .format f => f.name

def file? : GivenValue → Option Text
  | .file name _ => some name
  | _ => none

def anchor? : GivenValue → Option Anchor
  | .anchor a => some a
  | _ => none

def format? : GivenValue → Option OutputFormat
  | .format f => some f
  | _ => none

def Reads {α : Type} (read : GivenValue → Option α) (option : ValueOption) : Prop :=
  ∀ given, read given = none ↔ given.option ≠ option

theorem file?_reads : Reads file? .file := by
  rintro (_ | _ | _) <;> simp [file?, option]

theorem anchor?_reads : Reads anchor? .anchor := by
  rintro (_ | _ | _) <;> simp [anchor?, option]

theorem format?_reads : Reads format? .format := by
  rintro (_ | _ | _) <;> simp [format?, option]

end GivenValue

inductive Setting where
  | value (given : GivenValue)
  | flag (f : Flag)
deriving DecidableEq

def Setting.kind : Setting → OptionKind
  | .value given => .value given.option
  | .flag f => .flag f

def kinds (settings : List Setting) : List OptionKind := settings.map Setting.kind

def SpellsFlags (flags : List Flag) (letters : Text) : Prop :=
  List.Forall₂ (fun flag letter => flag.letter? = some letter) flags letters

inductive Gives : List Setting → List Text → Prop
  | longFlag (flag : Flag) : Gives [.flag flag] ['-' :: '-' :: flag.name]
  | longApart (given : GivenValue) : Options.isPlainWord given.text = true →
      Gives [.value given] ['-' :: '-' :: given.option.name, given.text]
  | longJoined (given : GivenValue) :
      Gives [.value given] ['-' :: '-' :: (given.option.name ++ '=' :: given.text)]
  | letters {flags letters} : SpellsFlags flags letters → letters ≠ [] →
      Gives (flags.map .flag) ['-' :: letters]
  | lettersApart {flags letters letter} (given : GivenValue) : SpellsFlags flags letters →
      given.option.letter? = some letter → Options.isPlainWord given.text = true →
      Gives (flags.map .flag ++ [.value given]) ['-' :: (letters ++ [letter]), given.text]
  | lettersJoined {flags letters letter} (given : GivenValue) : SpellsFlags flags letters →
      given.option.letter? = some letter → given.text.head? ≠ some '=' →
      Gives (flags.map .flag ++ [.value given]) ['-' :: (letters ++ letter :: given.text)]
  | lettersEquals {flags letters letter} (given : GivenValue) : SpellsFlags flags letters →
      given.option.letter? = some letter →
      Gives (flags.map .flag ++ [.value given]) ['-' :: (letters ++ letter :: '=' :: given.text)]

inductive Item where
  | selector (word : Text) (plain : Options.isPlainWord word = true)
  | option (given : List Setting) (spelling : List Text) (gives : Gives given spelling)

namespace Item

def words : Item → List Text
  | .selector word _ => [word]
  | .option _ spelling _ => spelling

def selectors : Item → List Text
  | .selector word _ => [word]
  | .option _ _ _ => []

def settings : Item → List Setting
  | .selector _ _ => []
  | .option given _ _ => given

end Item

structure CommandLine where
  items : List Item
  once : (kinds (items.flatMap Item.settings)).Nodup

def valueIn {α : Type} (read : GivenValue → Option α) (settings : List Setting) : Option α :=
  settings.findSome? fun
    | .value given => read given
    | .flag _ => none

def isRaised (flag : Flag) (settings : List Setting) : Bool := settings.contains (.flag flag)

namespace CommandLine

variable (line : CommandLine)

def words : List Text := line.items.flatMap Item.words

def selectors : List Text := line.items.flatMap Item.selectors

def settings : List Setting := line.items.flatMap Item.settings

end CommandLine

def optionsOf (selectors : List Text) (settings : List Setting) : Options where
  selectors := selectors
  file := valueIn GivenValue.file? settings
  anchor := valueIn GivenValue.anchor? settings
  format := valueIn GivenValue.format? settings
  echo := isRaised .echo settings
  keepGoing := isRaised .keepGoing settings
  explain := isRaised .explain settings

section Collecting

variable {selectors : List Text} {settings more : List Setting} {flag : Flag}

@[simp] theorem valueIn_nil {α : Type} (read : GivenValue → Option α) : valueIn read [] = none := rfl

@[simp] theorem valueIn_append {α : Type} (read : GivenValue → Option α) :
    valueIn read (settings ++ more) = (valueIn read settings).or (valueIn read more) :=
  List.findSome?_append

@[simp] theorem valueIn_value {α : Type} (read : GivenValue → Option α) (given : GivenValue) :
    valueIn read (.value given :: more) = (read given).or (valueIn read more) := by
  cases h : read given <;> simp [valueIn, h]

@[simp] theorem valueIn_flag {α : Type} (read : GivenValue → Option α) :
    valueIn read (.flag flag :: more) = valueIn read more := rfl

theorem mem_kinds {setting : Setting} (h : setting ∈ settings) : setting.kind ∈ kinds settings :=
  List.mem_map_of_mem h

theorem valueIn_eq_none_iff {α : Type} {read : GivenValue → Option α} {option : ValueOption}
    (hread : GivenValue.Reads read option) :
    valueIn read settings = none ↔ .value option ∉ kinds settings := by
  rw [valueIn, List.findSome?_eq_none_iff]
  constructor
  · rintro h hkind
    obtain ⟨setting, hmem, heq⟩ := List.mem_map.mp hkind
    cases setting with
    | flag f => cases heq
    | value given =>
      cases heq
      exact (hread given).mp (h _ hmem) rfl
  · intro h setting hmem
    cases setting with
    | flag f => rfl
    | value given =>
      refine (hread given).mpr fun hoption => h ?_
      rw [← hoption]
      exact mem_kinds hmem

@[simp] theorem isRaised_append :
    isRaised flag (settings ++ more) = (isRaised flag settings || isRaised flag more) := by
  simp [isRaised, Bool.decide_or]

@[simp] theorem isRaised_value (given : GivenValue) : isRaised flag [.value given] = false := rfl

@[simp] theorem isRaised_flag (other : Flag) :
    isRaised flag [.flag other] = decide (flag = other) := by
  simp [isRaised]

theorem isRaised_iff : isRaised flag settings = true ↔ .flag flag ∈ kinds settings := by
  simp only [isRaised, List.contains_iff_mem, kinds, List.mem_map]
  constructor
  · exact fun h => ⟨_, h, rfl⟩
  · rintro ⟨setting, hmem, hkind⟩
    cases setting with
    | value given => cases hkind
    | flag other =>
      cases hkind
      exact hmem

theorem addSelectors_optionsOf (word : Text) :
    (optionsOf selectors settings).addSelectors [word] = optionsOf (selectors ++ [word]) settings :=
  rfl

theorem give_optionsOf {given : GivenValue} (h : .value given.option ∉ kinds settings) :
    (optionsOf selectors settings).give given.option given.text =
      some (optionsOf selectors (settings ++ [.value given])) := by
  cases given with
  | file name hname =>
    have hnone : valueIn GivenValue.file? settings = none :=
      (valueIn_eq_none_iff GivenValue.file?_reads).mpr h
    simp [optionsOf, Options.give, GivenValue.option, GivenValue.text, GivenValue.file?,
      GivenValue.anchor?, GivenValue.format?, hnone, hname]
  | anchor a =>
    have hnone : valueIn GivenValue.anchor? settings = none :=
      (valueIn_eq_none_iff GivenValue.anchor?_reads).mpr h
    simp [optionsOf, Options.give, GivenValue.option, GivenValue.text, GivenValue.file?,
      GivenValue.anchor?, GivenValue.format?, hnone, Anchor.ofName?_name]
  | format f =>
    have hnone : valueIn GivenValue.format? settings = none :=
      (valueIn_eq_none_iff GivenValue.format?_reads).mpr h
    simp [optionsOf, Options.give, GivenValue.option, GivenValue.text, GivenValue.file?,
      GivenValue.anchor?, GivenValue.format?, hnone, OutputFormat.ofName?_name]

theorem raise_optionsOf (h : .flag flag ∉ kinds settings) :
    (optionsOf selectors settings).raise flag =
      some (optionsOf selectors (settings ++ [.flag flag])) := by
  rw [← isRaised_iff] at h
  cases flag <;> simp [optionsOf, Options.raise, h]

theorem nodup_kinds_cons {setting : Setting} (h : (kinds (settings ++ setting :: more)).Nodup) :
    setting.kind ∉ kinds settings ∧ (kinds (settings ++ [setting] ++ more)).Nodup := by
  refine ⟨fun hmem => ?_, by simpa using h⟩
  rw [kinds, List.map_append, List.map_cons] at h
  exact (List.nodup_append.mp h).2.2 _ hmem _ (by simp) rfl

theorem nodup_kinds_left (h : (kinds (settings ++ more)).Nodup) : (kinds settings).Nodup := by
  rw [kinds, List.map_append] at h
  exact (List.nodup_append.mp h).1

end Collecting

namespace OptionKind

theorem ofName?_value (option : ValueOption) : ofName? option.name = some (.value option) := by
  cases option <;> decide

theorem ofName?_flag (flag : Flag) : ofName? flag.name = some (.flag flag) := by
  cases flag <;> decide

theorem ofLetter?_value {option : ValueOption} {letter : Char} (h : option.letter? = some letter) :
    ofLetter? letter = some (.value option) := by
  cases option <;> cases h <;> decide

theorem ofLetter?_flag {flag : Flag} {letter : Char} (h : flag.letter? = some letter) :
    ofLetter? letter = some (.flag flag) := by
  cases flag <;> cases h <;> decide

end OptionKind

theorem GivenValue.text_ne_nil (given : GivenValue) : given.text ≠ [] := by
  cases given with
  | file name hname => exact hname
  | anchor a => cases a <;> decide
  | format f => cases f <;> decide

namespace Options

section Spellings

variable {options : Options} {option : ValueOption} {letter : Char} {name value letters : Text}

theorem splitName_bare (h : '=' ∉ name) : splitName name = (name, none) := by
  have hdrop : name.dropWhile (· != '=') = [] := by
    rw [List.dropWhile_eq_nil_iff]
    intro c hc
    simpa using ne_of_mem_of_not_mem hc h
  rw [splitName, hdrop]

theorem splitName_joined (h : '=' ∉ name) : splitName (name ++ '=' :: value) = (name, some value) := by
  have hname : ∀ c ∈ name, (c != '=') = true := fun c hc => by
    simpa using ne_of_mem_of_not_mem hc h
  have hstop : StartsOff (· != '=') ('=' :: value) := startsOff_cons (by decide) value
  rw [splitName, dropWhile_run hname hstop, takeWhile_run hname hstop]

theorem readLetters_apart (h : option.letter? = some letter) :
    options.readLetters [letter] = some (.go options (some option)) := by
  simp [readLetters, OptionKind.ofLetter?_value h]

theorem readLetters_equals (h : option.letter? = some letter) :
    options.readLetters (letter :: '=' :: value) =
      (options.give option value).map fun given => .go given none := by
  simp [readLetters, OptionKind.ofLetter?_value h]

theorem readLetters_joined (h : option.letter? = some letter) (hvalue : value ≠ [])
    (hequals : value.head? ≠ some '=') :
    options.readLetters (letter :: value) =
      (options.give option value).map fun given => .go given none := by
  obtain ⟨c, value, rfl⟩ := List.exists_cons_of_ne_nil hvalue
  have hc : c ≠ '=' := by simpa using hequals
  simp [readLetters, OptionKind.ofLetter?_value h, hc]

def continueWith (more : List Text) : Option Step → Option Invocation
  | none => none
  | some (.stop invocation) => some invocation
  | some (.go next pending) => readWords next pending more

theorem readWords_name (hname : name ≠ []) (more : List Text) :
    readWords options none (('-' :: '-' :: name) :: more) =
      continueWith more (options.readName name) :=
  readWords_option rfl (by simpa using hname) more

theorem readWords_letters (hne : letters ≠ []) (hdash : letters.head? ≠ some '-')
    (more : List Text) :
    readWords options none (('-' :: letters) :: more) =
      continueWith more (options.readLetters letters) := by
  obtain ⟨c, letters, rfl⟩ := List.exists_cons_of_ne_nil hne
  have hc : c ≠ '-' := by simpa using hdash
  have hread : options.readOption ('-' :: c :: letters) = options.readLetters (c :: letters) := by
    simp [readOption, hc]
  rw [readWords_option rfl (by simp [hc]), hread]
  rfl

theorem continueWith_go (more : List Text) (pending : Option ValueOption) :
    continueWith more (some (.go options pending)) = readWords options pending more := rfl

end Spellings

end Options

section Reading

open Options

variable {selectors : List Text} {settings given : List Setting} {flags : List Flag}
  {letters : Text} {words : List Text}

theorem SpellsFlags.dash_not_mem (h : SpellsFlags flags letters) : '-' ∉ letters := by
  induction h with
  | nil => simp
  | @cons flag letter _ _ hletter _ ih =>
    have hne : letter ≠ '-' := by
      rintro rfl
      cases flag <;> cases hletter
    simp [hne.symm, ih]

theorem letter_ne_dash {option : ValueOption} {letter : Char} (h : option.letter? = some letter) :
    letter ≠ '-' := by
  rintro rfl
  cases option <;> cases h

theorem SpellsFlags.head?_append {option : ValueOption} {letter : Char}
    (h : SpellsFlags flags letters) (hletter : option.letter? = some letter) (more : Text) :
    (letters ++ letter :: more).head? ≠ some '-' := by
  cases letters with
  | nil => simpa using letter_ne_dash hletter
  | cons c letters => simpa using Ne.symm (List.ne_of_not_mem_cons h.dash_not_mem)

theorem SpellsFlags.readLetters_append (h : SpellsFlags flags letters)
    (hnodup : (kinds (settings ++ flags.map .flag)).Nodup) (more : Text) :
    (optionsOf selectors settings).readLetters (letters ++ more) =
      (optionsOf selectors (settings ++ flags.map .flag)).readLetters more := by
  induction h generalizing settings with
  | nil => simp
  | @cons flag letter flags letters hletter _ ih =>
    obtain ⟨hfresh, hnodup⟩ := nodup_kinds_cons hnodup
    rw [List.cons_append, readLetters.eq_def]
    simp only [OptionKind.ofLetter?_flag hletter, raise_optionsOf hfresh, Option.bind_some]
    rw [ih hnodup]
    simp

theorem readName_flag {flag : Flag} (hfresh : .flag flag ∉ kinds settings) :
    (optionsOf selectors settings).readName flag.name =
      some (.go (optionsOf selectors (settings ++ [.flag flag])) none) := by
  have hname : '=' ∉ flag.name := by cases flag <;> decide
  simp [readName, splitName_bare hname, OptionKind.ofName?_flag, raise_optionsOf hfresh]

theorem equals_not_mem_name (option : ValueOption) : '=' ∉ option.name := by
  cases option <;> decide

theorem readName_apart (options : Options) (option : ValueOption) :
    options.readName option.name = some (.go options (some option)) := by
  simp [readName, splitName_bare (equals_not_mem_name option), OptionKind.ofName?_value]

theorem readName_joined {value : GivenValue} (hfresh : .value value.option ∉ kinds settings) :
    (optionsOf selectors settings).readName (value.option.name ++ '=' :: value.text) =
      some (.go (optionsOf selectors (settings ++ [.value value])) none) := by
  simp [readName, splitName_joined (equals_not_mem_name value.option), OptionKind.ofName?_value,
    give_optionsOf hfresh]

theorem readWords_given {value : GivenValue} (hfresh : .value value.option ∉ kinds settings)
    (hplain : isPlainWord value.text = true) (more : List Text) :
    readWords (optionsOf selectors settings) (some value.option) (value.text :: more) =
      readWords (optionsOf selectors (settings ++ [.value value])) none more := by
  rw [readWords_value, if_pos hplain, give_optionsOf hfresh, Option.bind_some]

theorem Gives.readWords_append (h : Gives given words)
    (hnodup : (kinds (settings ++ given)).Nodup) (more : List Text) :
    readWords (optionsOf selectors settings) none (words ++ more) =
      readWords (optionsOf selectors (settings ++ given)) none more := by
  have hvalue {front : List Setting} {value : GivenValue} (hgiven : given = front ++ [.value value]) :
      (kinds (settings ++ front)).Nodup ∧ .value value.option ∉ kinds (settings ++ front) := by
    rw [hgiven, ← List.append_assoc] at hnodup
    exact ⟨nodup_kinds_left hnodup, (nodup_kinds_cons hnodup).1⟩
  cases h with
  | longFlag flag =>
    have hname : flag.name ≠ [] := by cases flag <;> decide
    rw [List.singleton_append, readWords_name hname, readName_flag (nodup_kinds_cons hnodup).1,
      continueWith_go]
  | longApart value hplain =>
    have hname : value.option.name ≠ [] := by cases value.option <;> decide
    rw [List.cons_append, readWords_name hname, readName_apart, continueWith_go,
      List.singleton_append, readWords_given (nodup_kinds_cons hnodup).1 hplain]
  | longJoined value =>
    rw [List.singleton_append, readWords_name (by simp), readName_joined (nodup_kinds_cons hnodup).1,
      continueWith_go]
  | @letters flags letters hflags hne =>
    have hhead : letters.head? ≠ some '-' := fun hdash =>
      hflags.dash_not_mem (List.mem_of_mem_head? hdash)
    rw [List.singleton_append, readWords_letters hne hhead, ← List.append_nil letters,
      hflags.readLetters_append hnodup]
    rfl
  | lettersApart value hflags hletter hplain =>
    obtain ⟨hfront, hfresh⟩ := hvalue rfl
    rw [List.cons_append, readWords_letters (by simp) (hflags.head?_append hletter _),
      hflags.readLetters_append hfront, readLetters_apart hletter, continueWith_go,
      List.singleton_append, readWords_given hfresh hplain, List.append_assoc]
  | lettersJoined value hflags hletter hequals =>
    obtain ⟨hfront, hfresh⟩ := hvalue rfl
    rw [List.singleton_append,
      readWords_letters (by simp) (hflags.head?_append hletter _),
      hflags.readLetters_append hfront, readLetters_joined hletter value.text_ne_nil hequals,
      give_optionsOf hfresh, Option.map_some, continueWith_go, List.append_assoc]
  | lettersEquals value hflags hletter =>
    obtain ⟨hfront, hfresh⟩ := hvalue rfl
    rw [List.singleton_append,
      readWords_letters (by simp) (hflags.head?_append hletter _),
      hflags.readLetters_append hfront, readLetters_equals hletter, give_optionsOf hfresh,
      Option.map_some, continueWith_go, List.append_assoc]

theorem readWords_items {items : List Item}
    (hnodup : (kinds (settings ++ items.flatMap Item.settings)).Nodup) :
    readWords (optionsOf selectors settings) none (items.flatMap Item.words) =
      some (.run (optionsOf (selectors ++ items.flatMap Item.selectors)
        (settings ++ items.flatMap Item.settings))) := by
  -- Each item adds its selectors and its settings to what was read before it.
  induction items generalizing selectors settings with
  | nil => simp [readWords]
  | cons item items ih =>
    simp only [List.flatMap_cons]
    cases item with
    | selector word hplain =>
      rw [Item.words, List.singleton_append, readWords_plain hplain, addSelectors_optionsOf,
        ih hnodup]
      simp [Item.selectors, Item.settings]
    | option given spelling hgives =>
      simp only [List.flatMap_cons, Item.settings] at hnodup
      rw [← List.append_assoc] at hnodup
      rw [Item.words, hgives.readWords_append (nodup_kinds_left hnodup), ih hnodup]
      simp [Item.selectors, Item.settings]

theorem CommandLine.readCommandLine_words (line : CommandLine) :
    readCommandLine line.words = some (.run (optionsOf line.selectors line.settings)) :=
  @readWords_items [] [] line.items line.once

end Reading

end SelectorXPath
