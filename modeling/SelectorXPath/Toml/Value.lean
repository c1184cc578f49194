import SelectorXPath.Text.Basic

namespace SelectorXPath

namespace Toml

inductive Origin where
  | braces
  | header
  | implied
  | dotted
deriving DecidableEq, Repr

/-- A TOML value. Of floats and of dates and times only their presence is kept. -/
inductive Value where
  | string (text : Text)
  | boolean (truth : Bool)
  | integer (number : Int)
  | float
  | moment
  | array (items : List Value)
  | table (origin : Origin) (entries : List (Text × Value))
  | tables (items : List (List (Text × Value)))
deriving Repr

abbrev Entries := List (Text × Value)

abbrev KeyPath := List Text

def setEntry (key : Text) (value : Value) : Entries → Entries
  | [] => [(key, value)]
  | (k, v) :: more =>
    if k = key then (key, value) :: more else (k, v) :: setEntry key value more

def Origin.takesKeys : Origin → Bool
  | .dotted => true
  | _ => false

def Origin.letsThrough : Origin → Bool
  | .dotted => true
  | .implied => true
  | _ => false

def assign (value : Value) : Bool → KeyPath → Entries → Option Entries
  | _, [], _ => none
  | mayAdd, [key], entries =>
    if mayAdd && (entries.lookup key).isNone then some (setEntry key value entries) else none
  | _, key :: more, entries =>
    match entries.lookup key with
    | none => (assign value true more []).map fun inner =>
        setEntry key (.table .dotted inner) entries
    | some (.table origin inner) =>
      if origin.letsThrough then
        (assign value origin.takesKeys more inner).map fun inner =>
          setEntry key (.table origin inner) entries
      else none
    | some (.tables items) =>
      match items.getLast? with
      | none => none
      | some inner => (assign value false more inner).map fun inner =>
          setEntry key (.tables (items.dropLast ++ [inner])) entries
    | some _ => none

abbrev Assignment := KeyPath × Value

def assignAll : List Assignment → Entries → Option Entries
  | [], entries => some entries
  | (path, value) :: more, entries => (assign value true path entries).bind (assignAll more)

def alterAt (change : Option Value → Option Value) : KeyPath → Entries → Option Entries
  | [], _ => none
  | [key], entries => (change (entries.lookup key)).map fun value => setEntry key value entries
  | key :: more, entries =>
    match entries.lookup key with
    | none => (alterAt change more []).map fun inner =>
        setEntry key (.table .implied inner) entries
    | some (.table origin inner) =>
      if origin = .braces then none
      else (alterAt change more inner).map fun inner => setEntry key (.table origin inner) entries
    | some (.tables items) =>
      match items.getLast? with
      | none => none
      | some inner => (alterAt change more inner).map fun inner =>
          setEntry key (.tables (items.dropLast ++ [inner])) entries
    | some _ => none

def openTable (body : List Assignment) : Option Value → Option Value
  | none => (assignAll body []).map (.table .header)
  | some (.table .implied entries) => (assignAll body entries).map (.table .header)
  | some _ => none

def appendTable (body : List Assignment) : Option Value → Option Value
  | none => (assignAll body []).map fun entries => .tables [entries]
  | some (.tables items) => (assignAll body []).map fun entries => .tables (items ++ [entries])
  | some _ => none

end Toml

end SelectorXPath
