import SelectorXPath.Toml.Moments

namespace SelectorXPath

namespace Toml

def readScalar (t : Text) : Option (Value × Text) :=
  match t with
  | 't' :: 'r' :: 'u' :: 'e' :: rest => some (.boolean true, rest)
  | 'f' :: 'a' :: 'l' :: 's' :: 'e' :: rest => some (.boolean false, rest)
  | '"' :: _ => (readString t).map fun r => (.string r.1, r.2)
  | '\'' :: _ => (readString t).map fun r => (.string r.1, r.2)
  | _ => readMoment t <|> readNumber t

def readItems (item : Text → Option (Value × Text)) (t : Text) : Option (List Value × Text) :=
  if t.head? = some ']' then some ([], t.tail)
  else
    match item t with
    | none => none
    | some (value, afterItem) =>
      if _h : afterItem.length < t.length then
        match _hfill : skipFiller false afterItem with
        | ']' :: rest => some ([value], rest)
        | ',' :: rest => (readItems item (skipFiller false rest)).map fun r => (value :: r.1, r.2)
        | _ => none
      else none
termination_by t.length
decreasing_by
  have h1 := length_skipFiller_le false afterItem
  have h2 := length_skipFiller_le false rest
  rw [_hfill, List.length_cons] at h1
  omega

def readAssignment (item : Text → Option (Value × Text)) (t : Text) :
    Option (Assignment × Text) :=
  match readKeyPath maxKeys t with
  | none => none
  | some (path, rest) =>
    match skipSpaces rest with
    | '=' :: body => (item (skipSpaces body)).map fun r => ((path, r.1), r.2)
    | _ => none

def readMembers (item : Text → Option (Value × Text)) (t : Text) :
    Option (List Assignment × Text) :=
  match readAssignment item t with
  | none => none
  | some (assignment, afterAssignment) =>
    if _h : afterAssignment.length < t.length then
      match _hskip : skipSpaces afterAssignment with
      | '\x7d' :: rest => some ([assignment], rest)
      | ',' :: rest =>
        (readMembers item (skipSpaces rest)).map fun r => (assignment :: r.1, r.2)
      | _ => none
    else none
termination_by t.length
decreasing_by
  have h1 := length_skipSpaces_le afterAssignment
  have h2 := length_skipSpaces_le rest
  rw [_hskip, List.length_cons] at h1
  omega

def readBraces (item : Text → Option (Value × Text)) (t : Text) : Option (Value × Text) :=
  match skipSpaces t with
  | '\x7d' :: rest => some (.table .braces [], rest)
  | body =>
    match readMembers item body with
    | none => none
    | some (assignments, rest) =>
      (assignAll assignments []).map fun entries => (.table .braces entries, rest)

def maxNesting : Nat := 79

def readValue : Nat → Text → Option (Value × Text)
  | 0, '[' :: _ => none
  | 0, '\x7b' :: _ => none
  | room + 1, '[' :: rest =>
    (readItems (readValue room) (skipFiller false rest)).map fun r => (.array r.1, r.2)
  | room + 1, '\x7b' :: rest => readBraces (readValue room) rest
  | _, t => readScalar t

inductive Line where
  | blank
  | assignment (assignment : Assignment)
  | header (path : KeyPath)
  | listHeader (path : KeyPath)
deriving Repr

def readHeaderPath (t : Text) : Option (KeyPath × Text) := readKeyPath maxKeys (skipSpaces t)

def readLineBody (t : Text) : Option (Line × Text) :=
  match t with
  | '[' :: '[' :: rest =>
    match readHeaderPath rest with
    | some (path, ']' :: ']' :: rest') => some (.listHeader path, rest')
    | _ => none
  | '[' :: rest =>
    match readHeaderPath rest with
    | some (path, ']' :: rest') => some (.header path, rest')
    | _ => none
  | _ =>
    if (readLineEnd t).isSome then some (.blank, t)
    else (readAssignment (readValue maxNesting) t).map fun r => (.assignment r.1, r.2)

def readLine (t : Text) : Option (Line × Text) :=
  match readLineBody (skipSpaces t) with
  | none => none
  | some (line, rest) => (readLineEnd rest).map fun rest' => (line, rest')

def readLines (t : Text) : Option (List Line) :=
  match t with
  | [] => some []
  | c :: more =>
    match readLine (c :: more) with
    | none => none
    | some (line, rest) =>
      if _h : rest.length < (c :: more).length then (readLines rest).map (line :: ·) else none
termination_by t.length
decreasing_by exact _h

def bodyOf : List Line → List Assignment
  | [] => []
  | .blank :: more => bodyOf more
  | .assignment a :: more => a :: bodyOf more
  | .header _ :: _ => []
  | .listHeader _ :: _ => []

def addSections : List Line → Entries → Option Entries
  | [], entries => some entries
  | .header path :: more, entries =>
    (alterAt (openTable (bodyOf more)) path entries).bind (addSections more)
  | .listHeader path :: more, entries =>
    (alterAt (appendTable (bodyOf more)) path entries).bind (addSections more)
  | _ :: more, entries => addSections more entries

def entriesOf (lines : List Line) : Option Entries :=
  (assignAll (bodyOf lines) []).bind (addSections lines)

def dropMark : Text → Text
  | '\ufeff' :: rest => rest
  | t => t

def parse (t : Text) : Option Entries := (readLines (dropMark t)).bind entriesOf

end Toml

end SelectorXPath
