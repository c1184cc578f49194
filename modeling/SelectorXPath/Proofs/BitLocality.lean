import SelectorXPath.Gzip.Inflate

namespace SelectorXPath

namespace Gzip

def Aligned (s t : Bits) : Prop := s.length % 8 = t.length % 8

@[simp] theorem aligned_append_iff (front s t : Bits) :
    Aligned (front ++ s) (front ++ t) ↔ Aligned s t := by
  simp only [Aligned, List.length_append]
  omega

def IsLocal {α : Type} (read : Reader α) : Prop :=
  ∀ ⦃bits : Bits⦄ ⦃value : α⦄ ⦃rest : Bits⦄, read bits = .ok (value, rest) →
    ∃ used, bits = used ++ rest ∧
      ∀ other, Aligned other rest → read (used ++ other) = .ok (value, other)

theorem readNat_local (width : Nat) : IsLocal (readNat width) := by
  intro bits n rest h
  induction width generalizing bits n with
  | zero =>
    cases h
    exact ⟨[], rfl, fun _ _ => rfl⟩
  | succ width ih =>
    cases bits with
    | nil => cases h
    | cons bit bits =>
      simp only [readNat] at h
      split at h
      · next m tail hread =>
        cases h
        obtain ⟨used, rfl, hused⟩ := ih hread
        refine ⟨bit :: used, rfl, fun other hother => ?_⟩
        simp [readNat, hused, hother]
      · cases h

theorem readBytes_local (out : Array UInt8) (count : Nat) : IsLocal (readBytes out count) := by
  intro bits out' rest h
  induction count generalizing out bits with
  | zero =>
    cases h
    exact ⟨[], rfl, fun _ _ => rfl⟩
  | succ count ih =>
    simp only [readBytes] at h
    split at h
    · next n tail hread =>
      obtain ⟨first, rfl, hfirst⟩ := readNat_local 8 hread
      obtain ⟨used, rfl, hused⟩ := ih _ h
      refine ⟨first ++ used, by simp, fun other hother => ?_⟩
      simp [readBytes, hfirst, hused, hother]
    · cases h

theorem alignToByte_local (bits : Bits) :
    ∃ used, bits = used ++ alignToByte bits ∧
      ∀ other, Aligned other (alignToByte bits) → alignToByte (used ++ other) = other := by
  refine ⟨bits.take (bits.length % 8), (List.take_append_drop _ _).symm, fun other hother => ?_⟩
  have hlength : (bits.take (bits.length % 8)).length = bits.length % 8 := by
    rw [List.length_take]
    have := Nat.mod_le bits.length 8
    omega
  have hother' : other.length % 8 = 0 := by
    rw [hother, alignToByte, List.length_drop]
    omega
  have hdrop : (bits.take (bits.length % 8) ++ other).length % 8 =
      (bits.take (bits.length % 8)).length := by
    rw [List.length_append, hlength]
    omega
  rw [alignToByte, hdrop, List.drop_left]

theorem readStored_local (out : Array UInt8) : IsLocal (readStored out) := by
  intro bits out' rest h
  unfold readStored at h
  split at h
  · cases h
  · next count afterCount hcount =>
    split at h
    · cases h
    · next complement body hcomplement =>
      split at h
      · next hsum =>
        obtain ⟨pad, hpad, halign⟩ := alignToByte_local bits
        obtain ⟨first, hfirst, hread⟩ := readNat_local 16 hcount
        obtain ⟨second, rfl, hsecond⟩ := readNat_local 16 hcomplement
        obtain ⟨bytes, rfl, hbytes⟩ := readBytes_local out count h
        rw [hfirst] at hpad halign
        refine ⟨pad ++ (first ++ (second ++ bytes)), by simp [hpad], fun other hother => ?_⟩
        simp [readStored, halign, hread, hsecond, hbytes, hsum, hother]
      · cases h

theorem readSymbolFrom_local (code : Code) (above : Nat) : IsLocal (readSymbolFrom code above) := by
  intro bits symbol rest h
  induction code generalizing above bits with
  | nil => cases h
  | cons symbols deeper ih =>
    cases bits with
    | nil => cases h
    | cons bit bits =>
      simp only [readSymbolFrom] at h
      split at h
      · next found hfound =>
        cases h
        exact ⟨[bit], rfl, fun other _ => by simp [readSymbolFrom, hfound]⟩
      · next hfound =>
        obtain ⟨used, rfl, hused⟩ := ih _ h
        refine ⟨bit :: used, rfl, fun other hother => ?_⟩
        simp only [List.cons_append, readSymbolFrom, hfound, hused _ hother]

theorem Code.read_local (code : Code) : IsLocal code.read := readSymbolFrom_local code 0

theorem readFromTable_local (table : List (Nat × Nat)) (symbol : Nat) :
    IsLocal (readFromTable table symbol) := by
  intro bits n rest h
  unfold readFromTable at h
  split at h
  · cases h
  · next least width hrow =>
    split at h
    · next m tail hread =>
      cases h
      obtain ⟨used, rfl, hused⟩ := readNat_local width hread
      exact ⟨used, rfl, fun other hother => by simp [readFromTable, hrow, hused, hother]⟩
    · cases h

theorem readCopy_local (distances : Code) (symbol : Nat) : IsLocal (readCopy distances symbol) := by
  intro bits copy rest h
  unfold readCopy at h
  split at h
  · cases h
  · next length afterLength hlength =>
    split at h
    · cases h
    · next distanceSymbol afterSymbol hsymbol =>
      split at h
      · cases h
      · next distance tail hdistance =>
        cases h
        obtain ⟨first, rfl, hfirst⟩ := readFromTable_local lengthTable _ hlength
        obtain ⟨second, rfl, hsecond⟩ := distances.read_local hsymbol
        obtain ⟨third, rfl, hthird⟩ := readFromTable_local distanceTable _ hdistance
        refine ⟨first ++ (second ++ third), by simp, fun other hother => ?_⟩
        unfold readCopy
        simp [hfirst, hsecond, hthird, hother]

theorem readToken_local (literals distances : Code) : IsLocal (readToken literals distances) := by
  intro bits token rest h
  unfold readToken at h
  split at h
  · cases h
  · next symbol tail hread =>
    obtain ⟨used, rfl, hused⟩ := literals.read_local hread
    split at h
    · next hbyte =>
      cases h
      exact ⟨used, rfl, fun other hother => by simp [readToken, hused, hother, hbyte]⟩
    · next hbyte =>
      split at h
      · next hstop =>
        cases h
        exact ⟨used, rfl, fun other hother => by simp [readToken, hused, hother, hstop]⟩
      · next hstop =>
        split at h
        · cases h
        · next length distance tail' hcopy =>
          cases h
          obtain ⟨more, rfl, hmore⟩ := readCopy_local _ _ hcopy
          refine ⟨used ++ more, by simp, fun other hother => ?_⟩
          simp [readToken, hused, hmore, hother, hbyte, hstop]

theorem readSymbols_step {literals distances : Code} {token : Token} {bits tail : Bits}
    (out : Array UInt8) (h : readToken literals distances bits = .ok (token, tail)) :
    ∃ used, bits = used ++ tail ∧ ∀ other, Aligned other tail →
      readSymbols literals distances out (used ++ other) =
        match token with
        | .byte value => readSymbols literals distances (out.push value) other
        | .copy length distance =>
          readSymbols literals distances (copyBack distance length out) other
        | .stop => .ok (out, other) := by
  obtain ⟨used, rfl, hused⟩ := readToken_local _ _ h
  refine ⟨used, rfl, fun other hother => ?_⟩
  rw [readSymbols, hused other hother]
  cases token <;> rfl

theorem readSymbols_local (literals distances : Code) (out : Array UInt8) :
    IsLocal (readSymbols literals distances out) := by
  intro bits out' rest h
  fun_induction readSymbols literals distances out bits with
  | case1 => cases h
  | case2 out bits value tail hread ih =>
    obtain ⟨first, rfl, hfirst⟩ := readSymbols_step out hread
    obtain ⟨used, rfl, hused⟩ := ih h
    exact ⟨first ++ used, by simp, fun other hother => by simp [hfirst, hused, hother]⟩
  | case3 out bits length distance tail hread ih =>
    obtain ⟨first, rfl, hfirst⟩ := readSymbols_step out hread
    obtain ⟨used, rfl, hused⟩ := ih h
    exact ⟨first ++ used, by simp, fun other hother => by simp [hfirst, hused, hother]⟩
  | case4 out bits tail hread =>
    cases h
    exact readSymbols_step _ hread

theorem readTriples_local (symbols : List Nat) : IsLocal (readTriples symbols) := by
  intro bits entries rest h
  induction symbols generalizing bits entries with
  | nil =>
    cases h
    exact ⟨[], rfl, fun _ _ => rfl⟩
  | cons symbol more ih =>
    simp only [readTriples] at h
    split at h
    · cases h
    · next length tail hread =>
      split at h
      · cases h
      · next entries tail' hmore =>
        cases h
        obtain ⟨first, rfl, hfirst⟩ := readNat_local 3 hread
        obtain ⟨used, rfl, hused⟩ := ih hmore
        refine ⟨first ++ used, by simp, fun other hother => ?_⟩
        simp [readTriples, hfirst, hused, hother]

theorem readRun_local (lengths : List Nat) (symbol : Nat) : IsLocal (readRun lengths symbol) := by
  intro bits run rest h
  unfold readRun at h
  simp only at h
  repeat' split at h
  all_goals cases h
  · exact ⟨[], rfl, fun _ _ => by simp [readRun, *]⟩
  all_goals
    next hread =>
      obtain ⟨used, rfl, hused⟩ := readNat_local _ hread
      exact ⟨used, rfl, fun other hother => by simp [readRun, *]⟩

theorem readLengths_local (code : Code) (total : Nat) (lengths : List Nat) :
    IsLocal (readLengths code total lengths) := by
  intro bits lengths' rest h
  fun_induction readLengths code total lengths bits with
  | case1 lengths bits htotal =>
    cases h
    exact ⟨[], rfl, fun other _ => by rw [List.nil_append, readLengths, if_pos htotal]⟩
  | case2 => cases h
  | case3 => cases h
  | case4 => cases h
  | case5 lengths bits hne hle symbol afterSymbol hread run tail hrun ih =>
    obtain ⟨first, rfl, hfirst⟩ := code.read_local hread
    obtain ⟨second, rfl, hsecond⟩ := readRun_local lengths symbol hrun
    obtain ⟨used, rfl, hused⟩ := ih h
    refine ⟨first ++ (second ++ used), by simp, fun other hother => ?_⟩
    have hsymbol := hfirst (second ++ (used ++ other)) (by simpa using hother)
    have hlengths := hsecond (used ++ other) (by simpa using hother)
    rw [readLengths, if_neg hne, if_neg hle, List.append_assoc, List.append_assoc, hsymbol]
    dsimp only
    rw [hlengths]
    exact hused other hother

theorem readSizes_local : IsLocal readSizes := by
  intro bits sizes rest h
  unfold readSizes at h
  split at h
  · cases h
  · next literals afterLiterals hliterals =>
    split at h
    · cases h
    · next distances afterDistances hdistances =>
      split at h
      · cases h
      · next triples tail htriples =>
        split at h
        · next hbound =>
          cases h
          obtain ⟨first, rfl, hfirst⟩ := readNat_local 5 hliterals
          obtain ⟨second, rfl, hsecond⟩ := readNat_local 5 hdistances
          obtain ⟨third, rfl, hthird⟩ := readNat_local 4 htriples
          refine ⟨first ++ (second ++ third), by simp, fun other hother => ?_⟩
          simp [readSizes, hfirst, hsecond, hthird, hother, hbound]
        · cases h

theorem readLengthCode_local (count : Nat) : IsLocal (readLengthCode count) := by
  intro bits code rest h
  unfold readLengthCode at h
  split at h
  · cases h
  · next entries tail hread =>
    split at h
    · cases h
    · next hcode =>
      cases h
      obtain ⟨used, rfl, hused⟩ := readTriples_local _ hread
      exact ⟨used, rfl, fun other hother => by simp [readLengthCode, hused, hother, hcode]⟩

theorem readCodes_local : IsLocal readCodes := by
  intro bits codes rest h
  unfold readCodes at h
  split at h
  · cases h
  · next sizes afterSizes hsizes =>
    split at h
    · cases h
    · next lengthCode afterCode hcode =>
      split at h
      · cases h
      · next lengths tail hlengths =>
        split at h
        · cases h
        · next hcodes =>
          cases h
          obtain ⟨first, rfl, hfirst⟩ := readSizes_local hsizes
          obtain ⟨second, rfl, hsecond⟩ := readLengthCode_local _ hcode
          obtain ⟨third, rfl, hthird⟩ := readLengths_local _ _ _ hlengths
          refine ⟨first ++ (second ++ third), by simp, fun other hother => ?_⟩
          simp [readCodes, hfirst, hsecond, hthird, hother, hcodes]

theorem readBlock_local (kind : Nat) (out : Array UInt8) : IsLocal (readBlock kind out) := by
  intro bits out' rest h
  unfold readBlock at h
  split at h
  · exact readStored_local out h
  · exact readSymbols_local _ _ out h
  · split at h
    · cases h
    · next literals distances tail hcodes =>
      obtain ⟨first, rfl, hfirst⟩ := readCodes_local hcodes
      obtain ⟨used, rfl, hused⟩ := readSymbols_local literals distances out h
      refine ⟨first ++ used, by simp, fun other hother => ?_⟩
      simp [readBlock, hfirst, hused, hother]
  · cases h

theorem readBlocks_step {last kind : Nat} {out out' : Array UInt8} {bits afterLast body tail : Bits}
    (hlast : readNat 1 bits = .ok (last, afterLast))
    (hkind : readNat 2 afterLast = .ok (kind, body))
    (hblock : readBlock kind out body = .ok (out', tail)) :
    ∃ used, bits = used ++ tail ∧ ∀ other, Aligned other tail →
      readBlocks out (used ++ other) =
        if last = 1 then .ok (out', other) else readBlocks out' other := by
  obtain ⟨first, rfl, hfirst⟩ := readNat_local 1 hlast
  obtain ⟨second, rfl, hsecond⟩ := readNat_local 2 hkind
  obtain ⟨used, rfl, hused⟩ := readBlock_local kind out hblock
  refine ⟨first ++ (second ++ used), by simp, fun other hother => ?_⟩
  have hlast' := hfirst (second ++ (used ++ other)) (by simpa using hother)
  have hkind' := hsecond (used ++ other) (by simpa using hother)
  rw [readBlocks, List.append_assoc, List.append_assoc, hlast']
  dsimp only
  rw [hkind']
  dsimp only
  rw [hused other hother]

theorem readBlocks_local (out : Array UInt8) : IsLocal (readBlocks out) := by
  intro bits result rest h
  fun_induction readBlocks out bits with
  | case1 => cases h
  | case2 => cases h
  | case3 => cases h
  | case4 out bits afterLast kind body hkind out' tail hblock hlast =>
    cases h
    exact readBlocks_step hlast hkind hblock
  | case5 out bits last afterLast hlast kind body hkind out' tail hblock hne ih =>
    obtain ⟨first, rfl, hfirst⟩ := readBlocks_step hlast hkind hblock
    obtain ⟨used, rfl, hused⟩ := ih h
    exact ⟨first ++ used, by simp, fun other hother => by simp [hfirst, hused, hother, hne]⟩

theorem inflate_local : IsLocal inflate := readBlocks_local #[]

end Gzip

end SelectorXPath
