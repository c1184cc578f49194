import SelectorXPath.Gzip.Huffman

namespace SelectorXPath

namespace Gzip

def fixedLiteralLengths : List Nat :=
  List.replicate 144 8 ++ List.replicate 112 9 ++ List.replicate 24 7 ++ List.replicate 8 8

def fixedDistanceLengths : List Nat := List.replicate 32 5

def lengthOrder : List Nat := [16, 17, 18, 0, 8, 7, 9, 6, 10, 5, 11, 4, 12, 3, 13, 2, 14, 1, 15]

def readTriples : List Nat → Reader (List (Nat × Nat))
  | [], bits => .ok ([], bits)
  | symbol :: more, bits =>
    match readNat 3 bits with
    | .error e => .error e
    | .ok (length, rest) =>
      match readTriples more rest with
      | .error e => .error e
      | .ok (entries, rest') => .ok ((symbol, length) :: entries, rest')

theorem readTriples_length_le {symbols : List Nat} {entries : List (Nat × Nat)} {bits rest : Bits}
    (h : readTriples symbols bits = .ok (entries, rest)) : rest.length ≤ bits.length := by
  induction symbols generalizing bits entries with
  | nil => cases h; exact Nat.le_refl _
  | cons symbol more ih =>
    simp only [readTriples] at h
    split at h
    · cases h
    · next length tail hread =>
      split at h
      · cases h
      · next entries tail' hmore =>
        cases h
        have h1 := readNat_length_add hread
        have h2 := ih hmore
        omega

def arrangeLengths (entries : List (Nat × Nat)) : List Nat :=
  (List.range 19).map fun symbol => (entries.lookup symbol).getD 0

def readRun (lengths : List Nat) (symbol : Nat) : Reader (List Nat) := fun bits =>
  let repeated (width least length : Nat) : Except GzipError (List Nat × Bits) :=
    match readNat width bits with
    | .error e => .error e
    | .ok (n, rest) => .ok (List.replicate (least + n) length, rest)
  if symbol < 16 then .ok ([symbol], bits)
  else if symbol = 16 then
    match lengths.getLast? with
    | none => .error .corruptStream
    | some length => repeated 2 3 length
  else if symbol = 17 then repeated 3 3 0
  else repeated 7 11 0

theorem readRun_length_le {lengths run : List Nat} {symbol : Nat} {bits rest : Bits}
    (h : readRun lengths symbol bits = .ok (run, rest)) : rest.length ≤ bits.length := by
  unfold readRun at h
  simp only at h
  repeat' split at h
  all_goals cases h
  · exact Nat.le_refl _
  all_goals
    next hread =>
      have := readNat_length_add hread
      omega

def readLengths (code : Code) (total : Nat) (lengths : List Nat) (bits : Bits) :
    Except GzipError (List Nat × Bits) :=
  if lengths.length = total then .ok (lengths, bits)
  else if total < lengths.length then .error .corruptStream
  else
    match _hread : code.read bits with
    | .error e => .error e
    | .ok (symbol, afterSymbol) =>
      match _hrun : readRun lengths symbol afterSymbol with
      | .error e => .error e
      | .ok (run, rest) => readLengths code total (lengths ++ run) rest
termination_by bits.length
decreasing_by
  exact Nat.lt_of_le_of_lt (readRun_length_le _hrun) (Code.read_length_lt _hread)

theorem readLengths_length_le {code : Code} {total : Nat} {lengths lengths' : List Nat}
    {bits rest : Bits} (h : readLengths code total lengths bits = .ok (lengths', rest)) :
    rest.length ≤ bits.length := by
  fun_induction readLengths code total lengths bits with
  | case1 => cases h; exact Nat.le_refl _
  | case2 => cases h
  | case3 => cases h
  | case4 => cases h
  | case5 lengths bits hne hlt symbol afterSymbol hread run tail hrun ih =>
    have h1 := Code.read_length_lt hread
    have h2 := readRun_length_le hrun
    have h3 := ih h
    omega

def checkedCode (lengths : List Nat) : Except GzipError Code :=
  let code := Code.ofLengths lengths
  -- An incomplete code has no words, or a single one of one bit.
  if code.isComplete || (code.size ≤ 1 && longestWord lengths = 1) then .ok code
  else .error .corruptStream

def checkedCodes (literals distances : List Nat) : Except GzipError (Code × Code) :=
  match checkedCode literals, checkedCode distances with
  | .ok literalCode, .ok distanceCode => .ok (literalCode, distanceCode)
  | _, _ => .error .corruptStream

structure CodeSizes where
  literals : Nat
  distances : Nat
  triples : Nat
deriving DecidableEq, Repr

def readSizes : Reader CodeSizes := fun bits =>
  match readNat 5 bits with
  | .error e => .error e
  | .ok (literals, afterLiterals) =>
    match readNat 5 afterLiterals with
    | .error e => .error e
    | .ok (distances, afterDistances) =>
      match readNat 4 afterDistances with
      | .error e => .error e
      | .ok (triples, rest) =>
        if literals ≤ 29 ∧ distances ≤ 29 then
          .ok (⟨257 + literals, 1 + distances, 4 + triples⟩, rest)
        else .error .corruptStream

theorem readSizes_length_le {sizes : CodeSizes} {bits rest : Bits}
    (h : readSizes bits = .ok (sizes, rest)) : rest.length ≤ bits.length := by
  unfold readSizes at h
  split at h
  · cases h
  · next _ _ h1 =>
    split at h
    · cases h
    · next _ _ h2 =>
      split at h
      · cases h
      · next _ _ h3 =>
        split at h
        · cases h
          have := readNat_length_add h1
          have := readNat_length_add h2
          have := readNat_length_add h3
          omega
        · cases h

def completeCode (lengths : List Nat) : Except GzipError Code :=
  let code := Code.ofLengths lengths
  if code.isComplete then .ok code else .error .corruptStream

def readLengthCode (count : Nat) : Reader Code := fun bits =>
  match readTriples (lengthOrder.take count) bits with
  | .error e => .error e
  | .ok (entries, rest) =>
    match completeCode (arrangeLengths entries) with
    | .error e => .error e
    | .ok code => .ok (code, rest)

theorem readLengthCode_length_le {count : Nat} {code : Code} {bits rest : Bits}
    (h : readLengthCode count bits = .ok (code, rest)) : rest.length ≤ bits.length := by
  unfold readLengthCode at h
  split at h
  · cases h
  · next entries tail hread =>
    split at h
    · cases h
    · cases h; exact readTriples_length_le hread

def readCodes : Reader (Code × Code) := fun bits =>
  match readSizes bits with
  | .error e => .error e
  | .ok (sizes, afterSizes) =>
    match readLengthCode sizes.triples afterSizes with
    | .error e => .error e
    | .ok (lengthCode, afterCode) =>
      match readLengths lengthCode (sizes.literals + sizes.distances) [] afterCode with
      | .error e => .error e
      | .ok (lengths, rest) =>
        match checkedCodes (lengths.take sizes.literals) (lengths.drop sizes.literals) with
        | .error e => .error e
        | .ok codes => .ok (codes, rest)

theorem readCodes_length_le {codes : Code × Code} {bits rest : Bits}
    (h : readCodes bits = .ok (codes, rest)) : rest.length ≤ bits.length := by
  unfold readCodes at h
  split at h
  · cases h
  · next sizes afterSizes hsizes =>
    split at h
    · cases h
    · next lengthCode afterCode hcode =>
      split at h
      · cases h
      · next lengths tail hlengths =>
        split at h
        · cases h
        · cases h
          have h1 := readSizes_length_le hsizes
          have h2 := readLengthCode_length_le hcode
          have h3 := readLengths_length_le hlengths
          omega

end Gzip

end SelectorXPath
