import Mathlib.Data.Nat.Find
import SelectorXPath.Proofs.Levels

namespace SelectorXPath

def nextLevel? (s : Text) : Option Text :=
  match parseSelector s with
  | .ok fragments => fragments.getLast?.bind fun fragment => fragment.link?.map Prod.snd
  | .error _ => none

def level? : Nat → Text → Option Text
  | 0, s => some s
  | i + 1, s => (nextLevel? s).bind (level? i)

def levelFault? (levels i : Nat) (s : Text) : Option SelectorError :=
  if i = levels then some .tooDeep
  else
    match parseSelector s with
    | .error e => some e
    | .ok fragments => fragments.findSome? Fragment.fault?

def FirstFault (levels : Nat) (s : Text) (e : SelectorError) : Prop :=
  ∃ i t, level? i s = some t ∧ levelFault? levels i t = some e ∧
    ∀ j < i, ∀ u, level? j s = some u → levelFault? levels j u = none

inductive AlikeToSibling : Text → Text → Prop
  | here {s s' compound kind r r'} : kind = .adjacent ∨ kind = .sibling →
      parseSelector s = .ok (compound ++ [.link kind r]) →
      parseSelector s' = .ok (compound ++ [.link kind r']) → AlikeToSibling s s'
  | deeper {s s' compound kind r r'} : parseSelector s = .ok (compound ++ [.link kind r]) →
      parseSelector s' = .ok (compound ++ [.link kind r']) → AlikeToSibling r r' →
      AlikeToSibling s s'

section Faults

variable {levels i : Nat} {s r t : Text} {e : SelectorError} {level : Level} {kind : Combinator}

theorem levelFault?_succ : levelFault? (levels + 1) (i + 1) s = levelFault? levels i s := by
  simp [levelFault?]

theorem levelFault?_zero_eq_some :
    levelFault? (levels + 1) 0 s = some e ↔ readLevel s = .error e := by
  rw [levelFault?, if_neg (by omega), readLevel]
  cases parseSelector s with
  | error e => simp
  | ok fragments =>
    simp only
    cases fragments.findSome? Fragment.fault? <;> simp

theorem levelFault?_zero_of_readLevel (h : readLevel s = .ok level) :
    levelFault? (levels + 1) 0 s = none := by
  cases hf : levelFault? (levels + 1) 0 s with
  | none => rfl
  | some e =>
    rw [levelFault?_zero_eq_some.mp hf] at h
    cases h

theorem exists_link_of_nextLevel? (h : nextLevel? s = some r) :
    ∃ compound kind, parseSelector s = .ok (compound ++ [.link kind r]) := by
  rw [nextLevel?] at h
  split at h
  · next fragments hparse =>
    obtain ⟨fragment, hlast, hlink⟩ := Option.bind_eq_some_iff.mp h
    obtain ⟨compound, rfl⟩ := List.getLast?_eq_some_iff.mp hlast
    cases fragment with
    | link kind remainder =>
      cases hlink
      exact ⟨compound, kind, hparse⟩
    | _ => cases hlink
  · cases h

theorem nextLevel?_of_parseSelector {compound : List Fragment}
    (h : parseSelector s = .ok (compound ++ [.link kind r])) : nextLevel? s = some r := by
  simp [nextLevel?, h, Fragment.link?]

theorem nextLevel?_eq_link (h : readLevel s = .ok level) :
    nextLevel? s = some r ↔ ∃ kind, level.link = some (kind, r) := by
  obtain ⟨fragments, hparse, -, rfl⟩ := readLevel_ok_iff.mp h
  constructor
  · intro hnext
    obtain ⟨compound, kind, hlink⟩ := exists_link_of_nextLevel? hnext
    cases hparse.symm.trans hlink
    exact ⟨kind, (compoundOf_and_linkOf_of_parseSelector hlink).2⟩
  · rintro ⟨kind, hlink⟩
    have hcut := fragments_eq_of_parseSelector hparse
    rw [show linkOf fragments = some (kind, r) from hlink] at hcut
    exact nextLevel?_of_parseSelector (hparse.trans (congrArg _ hcut))

theorem firstFault_succ_iff :
    FirstFault (levels + 1) s e ↔ readLevel s = .error e ∨
      ∃ level kind r, readLevel s = .ok level ∧ level.link = some (kind, r) ∧
        FirstFault levels r e := by
  constructor
  · rintro ⟨i, t, ht, hfault, hbefore⟩
    cases hread : readLevel s with
    | error e' =>
      cases i with
      | zero => cases ht; exact .inl (by rw [← hread]; exact levelFault?_zero_eq_some.mp hfault)
      | succ i =>
        have hnone := hbefore 0 (by omega) s rfl
        rw [levelFault?_zero_eq_some.mpr hread] at hnone
        cases hnone
    | ok level =>
      cases i with
      | zero =>
        cases ht
        rw [levelFault?_zero_of_readLevel hread] at hfault
        cases hfault
      | succ i =>
        obtain ⟨r, hnext, hr⟩ := Option.bind_eq_some_iff.mp ht
        obtain ⟨kind, hlink⟩ := (nextLevel?_eq_link hread).mp hnext
        refine .inr ⟨level, kind, r, rfl, hlink, i, t, hr, levelFault?_succ.symm.trans hfault, ?_⟩
        intro j hj u hu
        rw [← levelFault?_succ]
        exact hbefore (j + 1) (by omega) u (Option.bind_eq_some_iff.mpr ⟨r, hnext, hu⟩)
  · rintro (hread | ⟨level, kind, r, hread, hlink, i, t, ht, hfault, hbefore⟩)
    · exact ⟨0, s, rfl, levelFault?_zero_eq_some.mpr hread, by omega⟩
    · have hnext := (nextLevel?_eq_link hread).mpr ⟨kind, hlink⟩
      have hlevel : level? (i + 1) s = some t := Option.bind_eq_some_iff.mpr ⟨r, hnext, ht⟩
      refine ⟨i + 1, t, hlevel, levelFault?_succ.trans hfault, ?_⟩
      intro j hj u hu
      cases j with
      | zero => cases hu; exact levelFault?_zero_of_readLevel hread
      | succ j =>
        obtain ⟨r', hnext', hu⟩ := Option.bind_eq_some_iff.mp hu
        cases hnext.symm.trans hnext'
        rw [levelFault?_succ]
        exact hbefore j (by omega) u hu

theorem firstFault_zero_iff : FirstFault 0 s e ↔ e = .tooDeep := by
  constructor
  · rintro ⟨i, t, -, hfault, hbefore⟩
    cases i with
    | zero => cases hfault; rfl
    | succ i => cases hbefore 0 (by omega) s rfl
  · rintro rfl
    exact ⟨0, s, rfl, rfl, by omega⟩

theorem fails_iff_firstFault : Fails levels s e ↔ FirstFault levels s e := by
  induction levels generalizing s with
  | zero =>
    rw [firstFault_zero_iff]
    constructor
    · intro h
      cases h
      rfl
    · rintro rfl
      exact .deep
  | succ levels ih =>
    rw [firstFault_succ_iff]
    constructor
    · intro h
      cases h with
      | level hread => exact .inl hread
      | link hread hlink hfails => exact .inr ⟨_, _, _, hread, hlink, ih.mp hfails⟩
    · rintro (hread | ⟨level, kind, r, hread, hlink, hfirst⟩)
      · exact .level hread
      · exact .link hread hlink (ih.mpr hfirst)

theorem exists_firstFault_iff :
    (∃ e, FirstFault levels s e) ↔
      ∃ i t, level? i s = some t ∧ (levelFault? levels i t).isSome = true := by
  constructor
  · rintro ⟨e, i, t, ht, hfault, -⟩
    exact ⟨i, t, ht, by simp [hfault]⟩
  · intro h
    classical
    obtain ⟨t, ht, hfault⟩ := Nat.find_spec h
    obtain ⟨e, he⟩ := Option.isSome_iff_exists.mp hfault
    refine ⟨e, Nat.find h, t, ht, he, fun j hj u hu => ?_⟩
    have hmin := Nat.find_min h hj
    simp only [not_exists, not_and, Bool.not_eq_true, Option.isSome_eq_false_iff,
      Option.isNone_iff_eq_none] at hmin
    exact hmin u hu

end Faults

section Depth

variable {levels i : Nat} {s t : Text}

theorem parseSelector_ne_tooDeep (s : Text) : parseSelector s ≠ .error .tooDeep := by
  intro h
  rw [parseSelector] at h
  split at h <;> cases h

theorem Fragment.fault?_ne_tooDeep (fragment : Fragment) : fragment.fault? ≠ some .tooDeep := by
  intro h
  rw [Fragment.fault?.eq_def] at h
  split at h
  · split at h <;> cases h
  · split at h
    · split at h <;> cases h
    · split at h
      · split at h <;> cases h
      · cases h
  · cases h
  · cases h
  · cases h

theorem levelFault?_eq_tooDeep_iff : levelFault? levels i t = some .tooDeep ↔ i = levels := by
  constructor
  · intro h
    by_contra hne
    rw [levelFault?, if_neg hne] at h
    split at h
    · next e hparse =>
      cases h
      exact parseSelector_ne_tooDeep t hparse
    · obtain ⟨fragment, -, hfault⟩ := List.exists_of_findSome?_eq_some h
      exact fragment.fault?_ne_tooDeep hfault
  · intro h
    rw [levelFault?, if_pos h]

theorem levelFault?_eq_none_iff (hi : i < levels) :
    levelFault? levels i t = none ↔
      ∃ fragments, parseSelector t = .ok fragments ∧ ∀ f ∈ fragments, f.fault? = none := by
  rw [levelFault?, if_neg (by omega)]
  cases parseSelector t with
  | error e => simp
  | ok fragments => simp

theorem level?_succ (i : Nat) (s : Text) :
    level? (i + 1) s = (level? i s).bind nextLevel? := by
  induction i generalizing s with
  | zero =>
    rw [level?, level?, Option.bind_some]
    cases nextLevel? s <;> rfl
  | succ i ih =>
    rw [level?, level?]
    cases nextLevel? s with
    | none => rfl
    | some r => exact ih r

theorem level?_isSome_of_le {j : Nat} (h : (level? i s).isSome = true) (hj : j ≤ i) :
    (level? j s).isSome = true := by
  induction hj with
  | refl => exact h
  | step _ ih =>
    apply ih
    rw [level?_succ] at h
    exact Option.isSome_of_isSome_bind h

theorem firstFault_tooDeep_iff :
    FirstFault (levels + 1) s .tooDeep ↔
      (∀ i ≤ levels, ∃ t fragments, level? i s = some t ∧ parseSelector t = .ok fragments ∧
        ∀ f ∈ fragments, f.fault? = none) ∧
      ∃ t compound kind r, level? levels s = some t ∧
        parseSelector t = .ok (compound ++ [.link kind r]) ∧
        kind ≠ .adjacent ∧ kind ≠ .sibling := by
  constructor
  · rintro ⟨i, t, ht, hfault, hbefore⟩
    obtain rfl := levelFault?_eq_tooDeep_iff.mp hfault
    have hvalid (i : Nat) (hi : i ≤ levels) : ∃ t fragments, level? i s = some t ∧
        parseSelector t = .ok fragments ∧ ∀ f ∈ fragments, f.fault? = none := by
      have hsome : (level? i s).isSome = true :=
        level?_isSome_of_le (Option.isSome_iff_exists.mpr ⟨t, ht⟩) (by omega)
      obtain ⟨u, hu⟩ := Option.isSome_iff_exists.mp hsome
      obtain ⟨fragments, hparse, hfragments⟩ :=
        (levelFault?_eq_none_iff (by omega)).mp (hbefore i (by omega) u hu)
      exact ⟨u, fragments, hu, hparse, hfragments⟩
    refine ⟨hvalid, ?_⟩
    rw [level?_succ] at ht
    obtain ⟨u, hu, hnext⟩ := Option.bind_eq_some_iff.mp ht
    obtain ⟨compound, kind, hparse⟩ := exists_link_of_nextLevel? hnext
    obtain ⟨u', fragments, hu', hparse', hfragments⟩ := hvalid levels (by omega)
    cases hu.symm.trans hu'
    cases hparse.symm.trans hparse'
    have hkind := hfragments (.link kind t) (by simp)
    refine ⟨u, compound, kind, t, hu, hparse, ?_, ?_⟩
    · rintro rfl
      cases hkind
    · rintro rfl
      cases hkind
  · rintro ⟨hvalid, t, compound, kind, r, ht, hparse, -⟩
    refine ⟨levels + 1, r, ?_, levelFault?_eq_tooDeep_iff.mpr rfl, ?_⟩
    · rw [level?_succ, ht]
      exact nextLevel?_of_parseSelector hparse
    · intro j hj u hu
      obtain ⟨u', fragments, hu', hparse', hfragments⟩ := hvalid j (by omega)
      cases hu.symm.trans hu'
      exact (levelFault?_eq_none_iff hj).mpr ⟨fragments, hparse', hfragments⟩

end Depth

section Siblings

open PathTree

variable {s s' : Text}

theorem AlikeToSibling.ofSelectorWithin_eq (h : AlikeToSibling s s') (levels : Nat)
    (anchor : Anchor) : ofSelectorWithin levels s' anchor = ofSelectorWithin levels s anchor := by
  induction h generalizing levels anchor with
  | @here s s' compound kind r r' hkind hs hs' =>
    cases levels with
    | zero => rfl
    | succ levels =>
      rw [ofSelectorWithin_succ, ofSelectorWithin_succ, readLevel_of_link hs,
        readLevel_of_link hs', link_fault_eq kind r' r]
      rcases hkind with rfl | rfl
      · cases compound.findSome? Fragment.fault? <;> rfl
      · cases compound.findSome? Fragment.fault? <;> rfl
  | @deeper s s' compound kind r r' hs hs' _ ih =>
    cases levels with
    | zero => rfl
    | succ levels =>
      rw [ofSelectorWithin_succ, ofSelectorWithin_succ, readLevel_of_link hs,
        readLevel_of_link hs', link_fault_eq kind r' r]
      cases (compound.findSome? Fragment.fault?).or (Fragment.link kind r).fault? with
      | some e => rfl
      | none => simp only [applyLink_eq, link_fault_eq kind r' r, ih, node]

end Siblings

theorem ofSelector_error_law (s : Text) (anchor : Anchor) :
    ((∃ e, PathTree.ofSelector s anchor = .error e) ↔
      ∃ i t, level? i s = some t ∧ (levelFault? 257 i t).isSome = true) ∧
    (∀ e, PathTree.ofSelector s anchor = .error e ↔ FirstFault 257 s e) ∧
    (PathTree.ofSelector s anchor = .error .tooDeep ↔
      (∀ i ≤ 256, ∃ t fragments, level? i s = some t ∧ parseSelector t = .ok fragments ∧
        ∀ f ∈ fragments, f.fault? = none) ∧
      ∃ t compound kind r, level? 256 s = some t ∧
        parseSelector t = .ok (compound ++ [.link kind r]) ∧
        kind ≠ .adjacent ∧ kind ≠ .sibling) ∧
    ∀ s', AlikeToSibling s s' → PathTree.ofSelector s' anchor = PathTree.ofSelector s anchor := by
  have hfirst (e : SelectorError) :
      PathTree.ofSelector s anchor = .error e ↔ FirstFault 257 s e :=
    ofSelectorWithin_eq_error_iff.trans fails_iff_firstFault
  refine ⟨?_, hfirst, (hfirst .tooDeep).trans firstFault_tooDeep_iff, ?_⟩
  · simp only [hfirst]
    exact exists_firstFault_iff
  · intro s' h
    exact h.ofSelectorWithin_eq 257 anchor

-- The text behind the sibling combinator is not read, so it may be one that cannot be.
theorem ofSelector_error_law_unread :
    PathTree.ofSelector "a > b + @".toList .root =
      PathTree.ofSelector "a > b + c".toList .root := by
  have hparse (r : Text) (hr : r ∈ ["@".toList, "c".toList]) :
      parseSelector ("a > b + ".toList ++ r) =
          .ok ([.element "a".toList] ++ [.link .child ("b + ".toList ++ r)]) ∧
        parseSelector ("b + ".toList ++ r) =
          .ok ([.element "b".toList] ++ [.link .adjacent r]) := by
    revert r
    decide +kernel
  obtain ⟨houter, hinner⟩ := hparse "@".toList (by simp)
  obtain ⟨hother, hlast⟩ := hparse "c".toList (by simp)
  have halike : AlikeToSibling "a > b + c".toList "a > b + @".toList :=
    .deeper hother houter (.here (.inl rfl) hlast hinner)
  exact (ofSelector_error_law _ .root).2.2.2 _ halike

end SelectorXPath
