import SelectorXPath.Toml.Numbers

namespace SelectorXPath

namespace Toml

def readFixed (count : Nat) (t : Text) : Option (Nat × Text) :=
  let digits := t.take count
  if digits.length = count && digits.all isDecimal then
    some (numberOf 10 digits, t.drop count)
  else none

def readMark (mark : Char) : Text → Option Text
  | c :: rest => if c = mark then some rest else none
  | [] => none

def isLeapYear (year : Nat) : Bool := year % 4 == 0 && (year % 100 != 0 || year % 400 == 0)

def daysInMonth (year month : Nat) : Nat :=
  if month = 2 then (if isLeapYear year then 29 else 28)
  else if month = 4 ∨ month = 6 ∨ month = 9 ∨ month = 11 then 30
  else 31

def readDate (t : Text) : Option Text := do
  let (year, t) ← readFixed 4 t
  let t ← readMark '-' t
  let (month, t) ← readFixed 2 t
  let t ← readMark '-' t
  let (day, t) ← readFixed 2 t
  if 1 ≤ month ∧ month ≤ 12 ∧ 1 ≤ day ∧ day ≤ daysInMonth year month then some t else none

def readHourMinute (t : Text) : Option Text := do
  let (hour, t) ← readFixed 2 t
  let t ← readMark ':' t
  let (minute, t) ← readFixed 2 t
  if hour ≤ 23 ∧ minute ≤ 59 then some t else none

def skipSecondFraction : Text → Text
  | '.' :: c :: rest => if isDecimal c then rest.dropWhile isDecimal else '.' :: c :: rest
  | t => t

def readTime (t : Text) : Option Text := do
  let t ← readHourMinute t
  let t ← readMark ':' t
  let (second, t) ← readFixed 2 t
  if second ≤ 60 then some (skipSecondFraction t) else none

def skipOffset (t : Text) : Text :=
  match t with
  | c :: rest =>
    if c = 'Z' ∨ c = 'z' then rest
    else if c = '+' ∨ c = '-' then (readHourMinute rest).getD t
    else t
  | [] => []

def skipTimeOfDate (t : Text) : Text :=
  match t with
  | c :: rest =>
    if c = 'T' ∨ c = 't' ∨ c = ' ' then
      match readTime rest with
      | some rest' => skipOffset rest'
      | none => t
    else t
  | [] => []

def readMoment (t : Text) : Option (Value × Text) :=
  match readDate t with
  | some rest => some (.moment, skipTimeOfDate rest)
  | none => (readTime t).map fun rest => (.moment, rest)

end Toml

end SelectorXPath
