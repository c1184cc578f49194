import SelectorXPath.Json.Value
import SelectorXPath.XPath.OfSelector

namespace SelectorXPath

inductive OutputFormat where
  | plain
  | json
deriving DecidableEq, Repr

namespace OutputFormat

def all : List OutputFormat := [.plain, .json]

def name : OutputFormat → Text
  | .plain => "plain".toList
  | .json => "json".toList

def ofName? (t : Text) : Option OutputFormat := all.find? fun format => format.name == t

instance : Inhabited OutputFormat := ⟨.plain⟩

theorem ofName?_name (format : OutputFormat) : ofName? format.name = some format := by
  cases format <;> decide

end OutputFormat

structure Conversion where
  selector : Text
  outcome : Except SelectorError Text
deriving Repr

namespace Conversion

def run (selector : Text) (anchor : Anchor) : Conversion := ⟨selector, convert selector anchor⟩

def isOk (record : Conversion) : Bool := record.outcome.isOk

def toJson (record : Conversion) : Json :=
  match record.outcome with
  | .ok xpath => .obj [("selector".toList, .str record.selector), ("xpath".toList, .str xpath)]
  | .error e =>
    .obj [("selector".toList, .str record.selector), ("error".toList, .str e.message)]

def line (echo : Bool) (record : Conversion) : Text :=
  match record.outcome with
  | .ok xpath => (if echo then record.selector ++ " => ".toList ++ xpath else xpath) ++ ['\n']
  | .error _ => []

def complaint (record : Conversion) : Text :=
  match record.outcome with
  | .ok _ => []
  | .error e => record.selector ++ ": ".toList ++ e.message ++ ['\n']

@[simp] theorem isOk_ok (selector xpath : Text) : isOk ⟨selector, .ok xpath⟩ = true := rfl

@[simp] theorem isOk_error (selector : Text) (e : SelectorError) :
    isOk ⟨selector, .error e⟩ = false := rfl

end Conversion

def convertAll (anchor : Anchor) (keepGoing : Bool) : List Text → List Conversion
  | [] => []
  | selector :: more =>
    let record := Conversion.run selector anchor
    if record.isOk || keepGoing then record :: convertAll anchor keepGoing more else [record]

def writeConversions (format : OutputFormat) (echo : Bool) (records : List Conversion) : Text :=
  match format with
  | .plain => records.flatMap (Conversion.line echo)
  | .json => (Json.arr (records.map Conversion.toJson)).pretty ++ ['\n']

end SelectorXPath
