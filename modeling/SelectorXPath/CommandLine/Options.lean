import SelectorXPath.Config.Basic

namespace SelectorXPath

structure Options where
  selectors : List Text
  file : Option Text
  anchor : Option Anchor
  format : Option OutputFormat
  echo : Bool
  keepGoing : Bool
  explain : Bool
deriving DecidableEq, Repr

inductive Invocation where
  | help (full : Bool)
  | version
  | run (options : Options)
deriving DecidableEq, Repr

inductive ValueOption where
  | file
  | anchor
  | format
deriving DecidableEq, Repr

inductive Flag where
  | echo
  | keepGoing
  | explain
deriving DecidableEq, Repr

inductive OptionKind where
  | value (option : ValueOption)
  | flag (flag : Flag)
  | help
  | version
deriving DecidableEq, Repr

namespace OptionKind

def ofName? (name : Text) : Option OptionKind :=
  [("file".toList, value .file), ("root".toList, value .anchor), ("format".toList, value .format),
    ("echo".toList, flag .echo), ("keep-going".toList, flag .keepGoing),
    ("explain".toList, flag .explain), ("version".toList, version),
    ("help".toList, help)].lookup name

def ofLetter? (letter : Char) : Option OptionKind :=
  [('f', value .file), ('r', value .anchor), ('e', flag .echo), ('k', flag .keepGoing),
    ('V', version), ('h', help)].lookup letter

end OptionKind

namespace Options

def empty : Options := ⟨[], none, none, none, false, false, false⟩

def addSelectors (options : Options) (more : List Text) : Options :=
  { options with selectors := options.selectors ++ more }

def give (options : Options) (option : ValueOption) (value : Text) : Option Options :=
  match option with
  | .file =>
    if options.file.isNone && !value.isEmpty then some { options with file := some value }
    else none
  | .anchor =>
    match options.anchor, Anchor.ofName? value with
    | none, some anchor => some { options with anchor := some anchor }
    | _, _ => none
  | .format =>
    match options.format, OutputFormat.ofName? value with
    | none, some format => some { options with format := some format }
    | _, _ => none

def raise (options : Options) (flag : Flag) : Option Options :=
  match flag with
  | .echo => if options.echo then none else some { options with echo := true }
  | .keepGoing => if options.keepGoing then none else some { options with keepGoing := true }
  | .explain => if options.explain then none else some { options with explain := true }

inductive Step where
  | stop (invocation : Invocation)
  | go (options : Options) (pending : Option ValueOption)
deriving DecidableEq, Repr

def readLetters (options : Options) : Text → Option Step
  | [] => some (.go options none)
  | letter :: more =>
    match OptionKind.ofLetter? letter with
    | none => none
    | some .help => some (.stop (.help false))
    | some .version => some (.stop .version)
    | some (.flag flag) => (options.raise flag).bind fun raised => readLetters raised more
    | some (.value option) =>
      match more with
      | [] => some (.go options (some option))
      | '=' :: value => (options.give option value).map fun given => .go given none
      | value => (options.give option value).map fun given => .go given none

def splitName (word : Text) : Text × Option Text :=
  match word.dropWhile (· != '=') with
  | [] => (word, none)
  | _ :: value => (word.takeWhile (· != '='), some value)

def readName (options : Options) (word : Text) : Option Step :=
  let (name, attached) := splitName word
  match OptionKind.ofName? name, attached with
  | some (.value option), some value =>
    (options.give option value).map fun given => .go given none
  | some (.value option), none => some (.go options (some option))
  | some (.flag flag), none => (options.raise flag).map fun raised => .go raised none
  | some .help, none => some (.stop (.help true))
  | some .version, none => some (.stop .version)
  | _, _ => none

def isPlainWord : Text → Bool
  | '-' :: _ :: _ => false
  | _ => true

def readWords (options : Options) : Option ValueOption → List Text → Option Invocation
  | none, [] => some (.run options)
  | some _, [] => none
  | some option, word :: more =>
    if isPlainWord word then
      (options.give option word).bind fun given => readWords given none more
    else none
  | none, word :: more =>
    if isPlainWord word then readWords (options.addSelectors [word]) none more
    else if word = "--".toList then some (.run (options.addSelectors more))
    else
      let step := match word with
        | '-' :: '-' :: name => options.readName name
        | _ => options.readLetters word.tail
      match step with
      | none => none
      | some (.stop invocation) => some invocation
      | some (.go next pending) => readWords next pending more

end Options

def readCommandLine (words : List Text) : Option Invocation := Options.readWords .empty none words

def Options.settings (options : Options) (config : Config) : Config where
  anchor := options.anchor.getD config.anchor
  format := options.format.getD config.format
  keepGoing := options.keepGoing || config.keepGoing
  echo := options.echo || config.echo

end SelectorXPath
