import SelectorXPath.Text.Basic

namespace SelectorXPath

namespace Gzip

inductive GzipError where
  | invalidHeader
  | fieldTooLong
  | corruptStream
  | incompleteStream
  | checksumMismatch
  | truncated
deriving DecidableEq, Repr

def GzipError.message : GzipError → Text
  | .invalidHeader => "invalid gzip header".toList
  | .fieldTooLong => "gzip header field too long".toList
  | .corruptStream => "corrupt deflate stream".toList
  | .incompleteStream => "incomplete deflate stream".toList
  | .checksumMismatch => "corrupt gzip stream does not have a matching checksum".toList
  | .truncated => "unexpected end of file".toList

abbrev Bits := List Bool

abbrev Reader (α : Type) := Bits → Except GzipError (α × Bits)

def lowBits : Nat → Nat → Bits
  | 0, _ => []
  | count + 1, n => (n % 2 == 1) :: lowBits count (n / 2)

def bitsOf (bytes : Bytes) : Bits := bytes.flatMap fun b => lowBits 8 b.toNat

def readNat : Nat → Reader Nat
  | 0, bits => .ok (0, bits)
  | _ + 1, [] => .error .incompleteStream
  | width + 1, bit :: bits =>
    match readNat width bits with
    | .ok (n, rest) => .ok (bit.toNat + 2 * n, rest)
    | .error e => .error e

def readBytes (out : Array UInt8) : Nat → Reader (Array UInt8)
  | 0, bits => .ok (out, bits)
  | count + 1, bits =>
    match readNat 8 bits with
    | .ok (n, rest) => readBytes (out.push (UInt8.ofNat n)) count rest
    | .error e => .error e

def alignToByte (bits : Bits) : Bits := bits.drop (bits.length % 8)

theorem length_lowBits (count n : Nat) : (lowBits count n).length = count := by
  induction count generalizing n with
  | zero => rfl
  | succ count ih => simp [lowBits, ih]

theorem readNat_length_add {width n : Nat} {bits rest : Bits}
    (h : readNat width bits = .ok (n, rest)) : rest.length + width = bits.length := by
  induction width generalizing bits n with
  | zero => cases h; rfl
  | succ width ih =>
    cases bits with
    | nil => cases h
    | cons bit bits =>
      simp only [readNat] at h
      split at h
      · next m tail hread =>
        cases h
        have := ih hread
        simp only [List.length_cons]
        omega
      · cases h

theorem readBytes_length_le {out out' : Array UInt8} {count : Nat} {bits rest : Bits}
    (h : readBytes out count bits = .ok (out', rest)) : rest.length ≤ bits.length := by
  induction count generalizing out bits with
  | zero => cases h; exact Nat.le_refl _
  | succ count ih =>
    simp only [readBytes] at h
    split at h
    · next n tail hread =>
      have h1 := readNat_length_add hread
      have h2 := ih h
      omega
    · cases h

theorem length_alignToByte_le (bits : Bits) : (alignToByte bits).length ≤ bits.length := by
  simp [alignToByte]

end Gzip

end SelectorXPath
