import SelectorXPath.Text.Basic

namespace SelectorXPath

namespace Utf8

structure Fault where
  index : Nat
  length : Option Nat
deriving DecidableEq, Repr

def Fault.message (fault : Fault) : Text :=
  match fault.length with
  | some length =>
    "invalid utf-8 sequence of ".toList ++ decimal length ++ " bytes from index ".toList ++
      decimal fault.index
  | none => "incomplete utf-8 byte sequence from index ".toList ++ decimal fault.index

def tail (n : Nat) : UInt8 := UInt8.ofNat (0x80 + n % 64)

def encodeChar (c : Char) : Bytes :=
  let n := c.toNat
  if n < 0x80 then [UInt8.ofNat n]
  else if n < 0x800 then [UInt8.ofNat (0xC0 + n / 64), tail n]
  else if n < 0x10000 then [UInt8.ofNat (0xE0 + n / 4096), tail (n / 64), tail n]
  else [UInt8.ofNat (0xF0 + n / 262144), tail (n / 4096), tail (n / 64), tail n]

def encode (t : Text) : Bytes := t.flatMap encodeChar

def isTail (b : UInt8) : Bool := 0x80 ≤ b && b ≤ 0xBF

def isSecond (first second : UInt8) : Bool :=
  if first = 0xE0 then 0xA0 ≤ second && second ≤ 0xBF
  else if first = 0xED then 0x80 ≤ second && second ≤ 0x9F
  else if first = 0xF0 then 0x90 ≤ second && second ≤ 0xBF
  else if first = 0xF4 then 0x80 ≤ second && second ≤ 0x8F
  else isTail second

def join (mask : Nat) (first : UInt8) (tails : List UInt8) : Char :=
  Char.ofNat (tails.foldl (fun n b => n * 64 + b.toNat % 64) (first.toNat % mask))

def readChar : Bytes → Except (Option Nat) (Char × Bytes)
  | [] => .error none
  | a :: rest =>
    if a < 0x80 then .ok (Char.ofNat a.toNat, rest)
    else if 0xC2 ≤ a && a ≤ 0xDF then
      match rest with
      | [] => .error none
      | b :: rest => if isTail b then .ok (join 32 a [b], rest) else .error (some 1)
    else if 0xE0 ≤ a && a ≤ 0xEF then
      match rest with
      | [] => .error none
      | b :: rest =>
        if isSecond a b then
          match rest with
          | [] => .error none
          | c :: rest => if isTail c then .ok (join 16 a [b, c], rest) else .error (some 2)
        else .error (some 1)
    else if 0xF0 ≤ a && a ≤ 0xF4 then
      match rest with
      | [] => .error none
      | b :: rest =>
        if isSecond a b then
          match rest with
          | [] => .error none
          | c :: rest =>
            if isTail c then
              match rest with
              | [] => .error none
              | d :: rest =>
                if isTail d then .ok (join 8 a [b, c, d], rest) else .error (some 3)
            else .error (some 2)
        else .error (some 1)
    else .error (some 1)

theorem readChar_length_lt {bytes rest : Bytes} {c : Char} (h : readChar bytes = .ok (c, rest)) :
    rest.length < bytes.length := by
  unfold readChar at h
  repeat' split at h
  all_goals cases h
  all_goals (simp only [List.length_cons]; omega)

def decodeFrom (index : Nat) (bytes : Bytes) : Except Fault Text :=
  match bytes with
  | [] => .ok []
  | a :: more =>
    match _h : readChar (a :: more) with
    | .error length => .error ⟨index, length⟩
    | .ok (c, rest) =>
      match decodeFrom (index + c.utf8Size) rest with
      | .error fault => .error fault
      | .ok t => .ok (c :: t)
termination_by bytes.length
decreasing_by exact readChar_length_lt (by assumption)

def decode (bytes : Bytes) : Except Fault Text := decodeFrom 0 bytes

end Utf8

end SelectorXPath
