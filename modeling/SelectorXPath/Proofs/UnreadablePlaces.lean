import SelectorXPath.Proofs.Locality

namespace SelectorXPath

open Grammar

def NoRuleApplies (t : Text) : Prop := ∀ rule ∈ rules, rule t = none

theorem noRuleApplies_iff {t : Text} : NoRuleApplies t ↔ firstMatch t = none := by
  simp [NoRuleApplies, firstMatch]

theorem scan_unreadable {started : Bool} {t rest : Text}
    (h : scan started t = .error (.unreadable rest)) :
    rest ≠ [] ∧ NoRuleApplies rest ∧
      ∃ front fragments, t = front ++ rest ∧ EndsOff isBlank front ∧
        scan started front = .ok fragments ∧ ∀ f ∈ fragments, f.isLink = false := by
  fun_induction scan started t with
  | case1 => cases h
  | case2 started t hmatch ht =>
    cases h
    exact ⟨ht, noRuleApplies_iff.mpr hmatch, [], [], rfl, by simp [EndsOff], scan_nil, by simp⟩
  | case3 => cases h
  | case4 => cases h
  | case5 => cases h
  | case6 => cases h
  | case7 started t fragment after hlink hmatch halt hhalt ih =>
    cases h
    obtain ⟨hrest, hnone, front, fragments, rfl, hend, hscan, hfragments⟩ := ih hhalt
    have hfragment : fragment.isLink = false := by
      cases fragment with
      | link kind r => exact absurd rfl (hlink kind r)
      | _ => rfl
    rcases firstMatch_sound hmatch with ⟨kind, m, rfl, -⟩ | ⟨span, hspells, rfl, -⟩
    · cases hfragment
    · refine ⟨hrest, hnone, span ++ front, fragment :: fragments, by simp, ?_, ?_, ?_⟩
      · by_cases hfront : front = []
        · simpa [hfront] using hspells.endsOff_blank
        · exact (endsOff_append hfront).mpr hend
      · rw [← List.append_assoc] at hmatch
        rw [scan_fragment (firstMatch_of_append hmatch hfragment) hfragment, hscan]
      · exact List.forall_mem_cons.mpr ⟨hfragment, hfragments⟩

theorem residue_cut {t : Text} (h : NoRuleApplies t) :
    ∃ after, t = residue t ++ after ∧
      (∀ b, b <:+ residue t → b ≠ [] → NoRuleApplies (b ++ after)) ∧
      (after = [] ∨ ¬ NoRuleApplies after) := by
  induction t with
  | nil => exact ⟨[], rfl, fun b hb hne => absurd (List.suffix_nil.mp hb) hne, .inl rfl⟩
  | cons c t ih =>
    cases hnext : firstMatch t with
    | some found =>
      have hresidue : residue (c :: t) = [c] := by simp [residue, hnext]
      refine ⟨t, by simp [hresidue], fun b hb hne => ?_, .inr (by simp [noRuleApplies_iff, hnext])⟩
      rw [hresidue] at hb
      rcases List.suffix_cons_iff.mp hb with rfl | hnil
      · exact h
      · exact absurd (List.suffix_nil.mp hnil) hne
    | none =>
      obtain ⟨after, ht, hinside, hend⟩ := ih (noRuleApplies_iff.mpr hnext)
      have hresidue : residue (c :: t) = c :: residue t := by simp [residue, hnext]
      refine ⟨after, by rw [hresidue, List.cons_append, ← ht], fun b hb hne => ?_, hend⟩
      rw [hresidue] at hb
      rcases List.suffix_cons_iff.mp hb with rfl | hb
      · rwa [List.cons_append, ← ht]
      · exact hinside b hb hne

theorem residue_ne_nil {t : Text} (h : t ≠ []) : residue t ≠ [] := by
  obtain ⟨c, t, rfl⟩ := List.exists_cons_of_ne_nil h
  simp [residue]

theorem parseSelector_grammar_inv {s input unread : Text} {position : Nat}
    (h : parseSelector s = .error (.grammar input position unread)) :
    ∃ rest, scan false (trim s) = .error (.unreadable rest) ∧ input = s ∧
      position = byteSize (leadingBlanks s) + (byteSize (trim s) - byteSize rest) ∧
      unread = residue rest := by
  unfold parseSelector at h
  split at h
  · cases h
  · cases h
  · cases h
  · next rest hscan =>
    cases h
    exact ⟨rest, hscan, rfl, rfl, rfl⟩

theorem parseSelector_blanks_append {w t : Text} {fragments : List Fragment} (hw : Blanks w)
    (htrim : trim t = t) (h : scan false t = .ok fragments) :
    parseSelector (w ++ t) = .ok fragments := by
  have hblanks := trim_blanks_append (b := []) hw (by simp [Blanks]) htrim
  rw [List.append_nil] at hblanks
  rw [parseSelector, hblanks, h]

theorem parseSelector_fault_place {s input unread : Text} {position : Nat}
    (h : parseSelector s = .error (.grammar input position unread)) :
    input = s ∧ unread ≠ [] ∧
      ∃ p q, s = p ++ unread ++ q ∧ position = byteSize p ∧
        (∃ fragments, parseSelector p = .ok fragments ∧ ∀ f ∈ fragments, f.isLink = false) ∧
        ∃ scanned after trailing, trim s = scanned ++ unread ++ after ∧
          p = leadingBlanks s ++ scanned ∧ q = after ++ trailing ∧ Blanks trailing ∧
          (∀ b, b <:+ unread → b ≠ [] → NoRuleApplies (b ++ after)) ∧
          (after = [] ∨ ∃ rule ∈ rules, rule after ≠ none) := by
  obtain ⟨rest, hscan, hinput, rfl, rfl⟩ := parseSelector_grammar_inv h
  obtain ⟨hne, hnone, front, fragments, htrim, hend, hfront, hfragments⟩ := scan_unreadable hscan
  obtain ⟨after, hrest, hinside, hafter⟩ := residue_cut hnone
  obtain ⟨trailing, htrailing, hs⟩ := eq_leadingBlanks_append_trim s
  have hscanned : trim s = front ++ residue rest ++ after := by
    rw [List.append_assoc, ← hrest, htrim]
  have hstart : StartsOff isBlank front :=
    startsOff_of_initial ⟨rest, htrim.symm⟩ (trim_eq_self_iff.mp (trim_trim s)).1
  refine ⟨hinput, residue_ne_nil hne, leadingBlanks s ++ front, after ++ trailing, ?_, ?_,
    ⟨fragments, ?_, hfragments⟩, front, after, trailing, hscanned, rfl, rfl, htrailing, hinside, ?_⟩
  · rw [hscanned] at hs
    simpa using hs
  · rw [htrim, byteSize_append, byteSize_append, Nat.add_sub_cancel]
  · exact parseSelector_blanks_append (blanks_leadingBlanks s)
      (trim_eq_self_iff.mpr ⟨hstart, hend⟩) hfront
  · simpa [NoRuleApplies] using hafter

theorem parseSelector_fault_place_wide :
    parseSelector "\u3000 é#x!!(.y ".toList =
        .error (.grammar "\u3000 é#x!!(.y ".toList 8 "!!(".toList) ∧
      ∃ p q, "\u3000 é#x!!(.y ".toList = p ++ "!!(".toList ++ q ∧ byteSize p = 8 ∧
        ∃ fragments, parseSelector p = .ok fragments ∧ ∀ f ∈ fragments, f.isLink = false := by
  have h : parseSelector "\u3000 é#x!!(.y ".toList =
      .error (.grammar "\u3000 é#x!!(.y ".toList 8 "!!(".toList) := by
    decide +kernel
  obtain ⟨-, -, p, q, hs, hposition, hfragments, -⟩ := parseSelector_fault_place h
  exact ⟨h, p, q, hs, hposition.symm, hfragments⟩

end SelectorXPath
