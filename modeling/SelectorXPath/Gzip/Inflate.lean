import SelectorXPath.Gzip.BlockCodes
import SelectorXPath.Gzip.Symbols

namespace SelectorXPath

namespace Gzip

def readStored (out : Array UInt8) : Reader (Array UInt8) := fun bits =>
  match readNat 16 (alignToByte bits) with
  | .error e => .error e
  | .ok (count, afterCount) =>
    match readNat 16 afterCount with
    | .error e => .error e
    | .ok (complement, body) =>
      if count + complement = 0xFFFF then readBytes out count body else .error .corruptStream

theorem readStored_length_le {out out' : Array UInt8} {bits rest : Bits}
    (h : readStored out bits = .ok (out', rest)) : rest.length ≤ bits.length := by
  unfold readStored at h
  split at h
  · cases h
  · next count afterCount hcount =>
    split at h
    · cases h
    · next complement body hcomplement =>
      split at h
      · have h1 := length_alignToByte_le bits
        have h2 := readNat_length_add hcount
        have h3 := readNat_length_add hcomplement
        have h4 := readBytes_length_le h
        omega
      · cases h

def readBlock (kind : Nat) (out : Array UInt8) : Reader (Array UInt8) := fun bits =>
  match kind with
  | 0 => readStored out bits
  | 1 =>
    readSymbols (Code.ofLengths fixedLiteralLengths) (Code.ofLengths fixedDistanceLengths) out bits
  | 2 =>
    match readCodes bits with
    | .error e => .error e
    | .ok ((literals, distances), rest) => readSymbols literals distances out rest
  | _ => .error .corruptStream

theorem readBlock_length_le {kind : Nat} {out out' : Array UInt8} {bits rest : Bits}
    (h : readBlock kind out bits = .ok (out', rest)) : rest.length ≤ bits.length := by
  unfold readBlock at h
  split at h
  · exact readStored_length_le h
  · exact Nat.le_of_lt (readSymbols_length_lt h)
  · split at h
    · cases h
    · next literals distances tail hcodes =>
      exact Nat.le_trans (Nat.le_of_lt (readSymbols_length_lt h)) (readCodes_length_le hcodes)
  · cases h

def readBlocks (out : Array UInt8) (bits : Bits) : Except GzipError (Array UInt8 × Bits) :=
  match _hlast : readNat 1 bits with
  | .error e => .error e
  | .ok (last, afterLast) =>
    match _hkind : readNat 2 afterLast with
    | .error e => .error e
    | .ok (kind, body) =>
      match _hblock : readBlock kind out body with
      | .error e => .error e
      | .ok (out', rest) => if last = 1 then .ok (out', rest) else readBlocks out' rest
termination_by bits.length
decreasing_by
  have h1 := readNat_length_add _hlast
  have h2 := readNat_length_add _hkind
  have h3 := readBlock_length_le _hblock
  omega

def inflate (bits : Bits) : Except GzipError (Array UInt8 × Bits) := readBlocks #[] bits

end Gzip

end SelectorXPath
