import SelectorXPath.Gzip.Huffman

namespace SelectorXPath

namespace Gzip

def endOfBlock : Nat := 256

def lengthTable : List (Nat × Nat) :=
  [(3, 0), (4, 0), (5, 0), (6, 0), (7, 0), (8, 0), (9, 0), (10, 0), (11, 1), (13, 1), (15, 1),
    (17, 1), (19, 2), (23, 2), (27, 2), (31, 2), (35, 3), (43, 3), (51, 3), (59, 3), (67, 4),
    (83, 4), (99, 4), (115, 4), (131, 5), (163, 5), (195, 5), (227, 5), (258, 0)]

def distanceTable : List (Nat × Nat) :=
  [(1, 0), (2, 0), (3, 0), (4, 0), (5, 1), (7, 1), (9, 2), (13, 2), (17, 3), (25, 3), (33, 4),
    (49, 4), (65, 5), (97, 5), (129, 6), (193, 6), (257, 7), (385, 7), (513, 8), (769, 8),
    (1025, 9), (1537, 9), (2049, 10), (3073, 10), (4097, 11), (6145, 11), (8193, 12), (12289, 12),
    (16385, 13), (24577, 13)]

def readFromTable (table : List (Nat × Nat)) (symbol : Nat) : Reader Nat := fun bits =>
  match table[symbol]? with
  | none => .error .corruptStream
  | some (least, width) =>
    match readNat width bits with
    | .ok (n, rest) => .ok (least + n, rest)
    | .error e => .error e

def readCopy (distances : Code) (symbol : Nat) : Reader (Nat × Nat) := fun bits =>
  match readFromTable lengthTable (symbol - (endOfBlock + 1)) bits with
  | .error e => .error e
  | .ok (length, afterLength) =>
    match distances.read afterLength with
    | .error e => .error e
    | .ok (distanceSymbol, afterSymbol) =>
      match readFromTable distanceTable distanceSymbol afterSymbol with
      | .error e => .error e
      | .ok (distance, rest) => .ok ((length, distance), rest)

def byteBack (out : Array UInt8) (distance : Nat) : UInt8 :=
  if distance ≤ out.size then out.getD (out.size - distance) 0 else 0

def copyBack (distance : Nat) : Nat → Array UInt8 → Array UInt8
  | 0, out => out
  | count + 1, out => copyBack distance count (out.push (byteBack out distance))

theorem readFromTable_length_le {table : List (Nat × Nat)} {symbol n : Nat} {bits rest : Bits}
    (h : readFromTable table symbol bits = .ok (n, rest)) : rest.length ≤ bits.length := by
  unfold readFromTable at h
  split at h
  · cases h
  · split at h
    · next m tail hread =>
      cases h
      have := readNat_length_add hread
      omega
    · cases h

theorem readCopy_length_lt {distances : Code} {symbol : Nat} {copy : Nat × Nat} {bits rest : Bits}
    (h : readCopy distances symbol bits = .ok (copy, rest)) : rest.length < bits.length := by
  unfold readCopy at h
  split at h
  · cases h
  · next length afterLength hlength =>
    split at h
    · cases h
    · next distanceSymbol afterSymbol hsymbol =>
      split at h
      · cases h
      · next distance tail hdistance =>
        cases h
        have h1 := readFromTable_length_le hlength
        have h2 := Code.read_length_lt hsymbol
        have h3 := readFromTable_length_le hdistance
        omega

inductive Token where
  | byte (value : UInt8)
  | copy (length distance : Nat)
  | stop
deriving DecidableEq, Repr

def readToken (literals distances : Code) : Reader Token := fun bits =>
  match literals.read bits with
  | .error e => .error e
  | .ok (symbol, rest) =>
    if symbol < endOfBlock then .ok (.byte (UInt8.ofNat symbol), rest)
    else if symbol = endOfBlock then .ok (.stop, rest)
    else
      match readCopy distances symbol rest with
      | .error e => .error e
      | .ok ((length, distance), rest') => .ok (.copy length distance, rest')

theorem readToken_length_lt {literals distances : Code} {token : Token} {bits rest : Bits}
    (h : readToken literals distances bits = .ok (token, rest)) : rest.length < bits.length := by
  unfold readToken at h
  split at h
  · cases h
  · next symbol tail hread =>
    have h1 := Code.read_length_lt hread
    split at h
    · cases h; exact h1
    · split at h
      · cases h; exact h1
      · split at h
        · cases h
        · next length distance tail' hcopy =>
          cases h
          exact Nat.lt_trans (readCopy_length_lt hcopy) h1

def readSymbols (literals distances : Code) (out : Array UInt8) (bits : Bits) :
    Except GzipError (Array UInt8 × Bits) :=
  match _h : readToken literals distances bits with
  | .error e => .error e
  | .ok (.byte value, rest) => readSymbols literals distances (out.push value) rest
  | .ok (.copy length distance, rest) =>
    readSymbols literals distances (copyBack distance length out) rest
  | .ok (.stop, rest) => .ok (out, rest)
termination_by bits.length
decreasing_by
  · exact readToken_length_lt _h
  · exact readToken_length_lt _h

theorem readSymbols_length_lt {literals distances : Code} {out out' : Array UInt8}
    {bits rest : Bits} (h : readSymbols literals distances out bits = .ok (out', rest)) :
    rest.length < bits.length := by
  fun_induction readSymbols literals distances out bits with
  | case1 => cases h
  | case2 out bits value tail hread ih => exact Nat.lt_trans (ih h) (readToken_length_lt hread)
  | case3 out bits length distance tail hread ih =>
    exact Nat.lt_trans (ih h) (readToken_length_lt hread)
  | case4 out bits tail hread => cases h; exact readToken_length_lt hread

end Gzip

end SelectorXPath
