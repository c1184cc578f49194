import SelectorXPath.Toml.Strings
import SelectorXPath.Toml.Value

namespace SelectorXPath

namespace Toml

def isDecimal (c : Char) : Bool := '0' ≤ c && c ≤ '9'

def isHexadecimal (c : Char) : Bool := (hexValue c).isSome

def isOctal (c : Char) : Bool := '0' ≤ c && c ≤ '7'

def isBinary (c : Char) : Bool := c == '0' || c == '1'

def readMoreDigits (isDigit : Char → Bool) : Text → Text × Text
  | [] => ([], [])
  | '_' :: c :: rest =>
    if isDigit c then
      let r := readMoreDigits isDigit rest
      (c :: r.1, r.2)
    else ([], '_' :: c :: rest)
  | c :: rest =>
    if isDigit c then
      let r := readMoreDigits isDigit rest
      (c :: r.1, r.2)
    else ([], c :: rest)

def readDigits (isDigit : Char → Bool) : Text → Option (Text × Text)
  | [] => none
  | c :: rest =>
    if isDigit c then
      let r := readMoreDigits isDigit rest
      some (c :: r.1, r.2)
    else none

def readWhole : Text → Option (Text × Text)
  | '0' :: rest => some (['0'], rest)
  | t => readDigits isDecimal t

def numberOf (base : Nat) (digits : Text) : Nat :=
  digits.foldl (fun n c => base * n + (hexValue c).getD 0) 0

def fitsWord (n : Int) : Bool := -9223372036854775808 ≤ n && n ≤ 9223372036854775807

def integerValue (n : Int) : Option Value := if fitsWord n then some (.integer n) else none

def readBased (base : Nat) (isDigit : Char → Bool) (t : Text) : Option (Value × Text) :=
  match readDigits isDigit t with
  | none => none
  | some (digits, rest) => (integerValue (numberOf base digits)).map fun v => (v, rest)

/-- The least number that is too large for a double: half a unit above the largest one. -/
def overflowBound : Nat := Nat.pow 2 1024 - Nat.pow 2 970

def overflows (digits : Text) (exponent : Int) : Bool :=
  let digits := digits.dropWhile (· == '0')
  let size : Int := digits.length + exponent
  if digits.isEmpty then false
  else if size > 310 then true
  else if size < 308 then false
  else if 0 ≤ exponent then overflowBound ≤ numberOf 10 digits * Nat.pow 10 exponent.toNat
  else overflowBound * Nat.pow 10 (-exponent).toNat ≤ numberOf 10 digits

def readSign : Text → Bool × Text
  | '+' :: rest => (false, rest)
  | '-' :: rest => (true, rest)
  | t => (false, t)

def readFraction : Text → Option (Option Text × Text)
  | '.' :: rest => (readDigits isDecimal rest).map fun r => (some r.1, r.2)
  | t => some (none, t)

def readExponent : Text → Option (Option Int × Text)
  | c :: rest =>
    if c = 'e' ∨ c = 'E' then
      let (negative, rest) := readSign rest
      (readDigits isDecimal rest).map fun r =>
        let n : Int := numberOf 10 r.1
        (some (if negative then -n else n), r.2)
    else some (none, c :: rest)
  | [] => some (none, [])

def readDecimal (negative : Bool) (t : Text) : Option (Value × Text) :=
  match readWhole t with
  | none => none
  | some (whole, afterWhole) =>
    match readFraction afterWhole with
    | none => none
    | some (fraction, afterFraction) =>
      match readExponent afterFraction with
      | none => none
      | some (exponent, rest) =>
        if fraction.isNone && exponent.isNone then
          let n : Int := numberOf 10 whole
          (integerValue (if negative then -n else n)).map fun v => (v, rest)
        else
          let places := fraction.getD []
          if !negative && overflows (whole ++ places) (exponent.getD 0 - places.length) then none
          else some (.float, rest)

def readNumber (t : Text) : Option (Value × Text) :=
  match t with
  | '0' :: 'x' :: rest => readBased 16 isHexadecimal rest
  | '0' :: 'o' :: rest => readBased 8 isOctal rest
  | '0' :: 'b' :: rest => readBased 2 isBinary rest
  | _ =>
    let (negative, rest) := readSign t
    match rest with
    | 'i' :: 'n' :: 'f' :: rest' => some (.float, rest')
    | 'n' :: 'a' :: 'n' :: rest' => some (.float, rest')
    | _ => readDecimal negative rest

end Toml

end SelectorXPath
