import SelectorXPath.Report.Conversion
import SelectorXPath.Toml.Document

namespace SelectorXPath

structure Config where
  anchor : Anchor
  format : OutputFormat
  keepGoing : Bool
  echo : Bool
deriving DecidableEq, Repr

namespace Config

open Toml

instance : Inhabited Config := ⟨⟨.root, .plain, false, false⟩⟩

def isEmptyValue : Value → Bool
  | .table _ entries => entries.isEmpty
  | .array items => items.isEmpty
  | _ => false

def choiceName : Value → Option Text
  | .string name => some name
  | .table _ [(name, value)] => if isEmptyValue value then some name else none
  | _ => none

def booleanOf : Value → Option Bool
  | .boolean truth => some truth
  | _ => none

def setting {α : Type} (fallback : α) (read : Value → Option α) (key : Text) (entries : Entries) :
    Option α :=
  match entries.lookup key with
  | none => some fallback
  | some value => read value

def ofEntries (entries : Entries) : Option Config := do
  let anchor ← setting default (fun v => (choiceName v).bind Anchor.ofName?)
    "root_mode".toList entries
  let format ← setting default (fun v => (choiceName v).bind OutputFormat.ofName?)
    "output_format".toList entries
  let keepGoing ← setting false booleanOf "keep_going".toList entries
  let echo ← setting false booleanOf "echo_selector".toList entries
  return ⟨anchor, format, keepGoing, echo⟩

def parse (t : Text) : Option Config := (Toml.parse t).bind ofEntries

def truthName : Bool → Text
  | true => "true".toList
  | false => "false".toList

def inQuotes (t : Text) : Text := '"' :: (t ++ ['"'])

def written (config : Config) : List (Text × Text) :=
  [("root_mode".toList, inQuotes config.anchor.name),
    ("output_format".toList, inQuotes config.format.name),
    ("keep_going".toList, truthName config.keepGoing),
    ("echo_selector".toList, truthName config.echo)]

def settingLine (setting : Text × Text) : Text :=
  setting.1 ++ " = ".toList ++ setting.2 ++ ['\n']

def render (config : Config) : Text := config.written.flatMap settingLine

end Config

end SelectorXPath
