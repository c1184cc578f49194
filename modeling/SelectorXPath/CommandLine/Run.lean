import SelectorXPath.CommandLine.Help
import SelectorXPath.CommandLine.Options
import SelectorXPath.Config.Store
import SelectorXPath.Report.Explanation

namespace SelectorXPath

structure World where
  find : Text → Except FileError FileEntry
  config : Option FileEntry
  input : Bytes

def World.ofTree (home : FileTree) (input : Bytes) : World :=
  ⟨home.find, home.get? Config.path, input⟩

structure Outcome where
  status : Nat
  output : Text
  complaints : Text
deriving DecidableEq, Repr

inductive CollectError where
  | fromFile (name : Text) (error : ListError)
  | fromInput (error : ListError)
deriving DecidableEq, Repr

def CollectError.message : CollectError → Text
  | .fromFile name error =>
    joinWith ": ".toList
      ["Failed to load selectors from ".toList ++ name, error.context, error.cause]
  | .fromInput error => joinWith ": ".toList [error.context, error.cause]

def collectSelectors (world : World) (options : Options) : Except CollectError (List Text) :=
  match options.file, options.selectors with
  | some name, selectors =>
    match loadFile name (world.find name) with
    | .ok more => .ok (selectors ++ more)
    | .error e => .error (.fromFile name e)
  | none, [] => (loadInput world.input).mapError .fromInput
  | none, selectors => .ok selectors

def statusOf (allOk : Bool) : Nat := if allOk then 0 else 1

def convertSelectors (settings : Config) (selectors : List Text) : Outcome :=
  let records := convertAll settings.anchor settings.keepGoing selectors
  { status := statusOf (records.all Conversion.isOk)
    output := writeConversions settings.format settings.echo records
    complaints := match settings.format with
      | .plain => records.flatMap Conversion.complaint
      | .json => [] }

def explainSelectors (anchor : Anchor) (keepGoing : Bool) : List Text → Outcome
  | [] => ⟨0, [], []⟩
  | selector :: more =>
    match Explanation.ofSelector selector anchor with
    | .ok explanation =>
      let rest := explainSelectors anchor keepGoing more
      { rest with output := explanation.toJson.pretty ++ ['\n'] ++ rest.output }
    | .error e =>
      let complaint := selector ++ ": ".toList ++ e.message ++ ['\n']
      if keepGoing then
        let rest := explainSelectors anchor keepGoing more
        { rest with status := 1, complaints := complaint ++ rest.complaints }
      else ⟨1, [], complaint⟩

def processSelectors (settings : Config) (explain : Bool) (selectors : List Text) : Outcome :=
  if explain then explainSelectors settings.anchor settings.keepGoing selectors
  else convertSelectors settings selectors

def runOptions (world : World) (options : Options) : Outcome :=
  match collectSelectors world options with
  | .error e => ⟨2, [], "Error: ".toList ++ e.message ++ ['\n']⟩
  | .ok selectors =>
    processSelectors (options.settings (Config.ofEntry world.config)) options.explain selectors

def runCommand (world : World) (words : List Text) : Option Outcome :=
  (readCommandLine words).map fun invocation =>
    match invocation with
    | .help full => ⟨0, helpText full, []⟩
    | .version => ⟨0, versionText, []⟩
    | .run options => runOptions world options

end SelectorXPath
