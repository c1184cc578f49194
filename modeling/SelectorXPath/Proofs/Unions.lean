import SelectorXPath.Proofs.FirstFault
import SelectorXPath.Proofs.Locality

namespace SelectorXPath

open PathTree

def firstLink? (s : Text) : Option (Combinator × Text) :=
  match readLevel s with
  | .ok level => level.link
  | .error _ => none

theorem firstLink?_of_readLevel {s : Text} {level : Level} (h : readLevel s = .ok level) :
    firstLink? s = level.link := by
  simp only [firstLink?, h]

theorem firstLink?_length_lt {s r : Text} {kind : Combinator}
    (h : firstLink? s = some (kind, r)) : r.length < s.length := by
  unfold firstLink? at h
  split at h
  · next hread =>
    have hlength := (remainder_of_readLevel hread h).2.2
    obtain ⟨a, b, -, -, hs⟩ := eq_append_trim s
    rw [hs, List.length_append, List.length_append]
    omega
  · cases h

/-- The anchor of the last compound of a selector: each step on the way has its own. -/
def lastAnchor (anchor : Anchor) (s : Text) : Anchor :=
  match _h : firstLink? s with
  | some (kind, r) => lastAnchor (kind.stepAnchor?.getD anchor) r
  | none => anchor
termination_by s.length
decreasing_by exact firstLink?_length_lt (by assumption)

def ReadsLink (kind : Combinator) (r s : Text) : Prop :=
  ∃ i t compound, level? i s = some t ∧ parseSelector t = .ok (compound ++ [.link kind r])

/-- No attribute value of the selector starts with a quote mark. Such a value can be written without
quotes, and then the mark is a quote after all as soon as another one follows. -/
def OpensNoQuote (s : Text) : Prop :=
  ∀ i t fragments, level? i s = some t → parseSelector t = .ok fragments →
    ∀ f ∈ fragments, f.opensQuote = false

section Trimming

variable {s t : Text} {level : Level} {fragments : List Fragment}

theorem parseSelector_ok_iff :
    parseSelector s = .ok fragments ↔ scan false (trim s) = .ok fragments := by
  constructor
  · exact scan_eq_ok_of_parseSelector
  · intro h
    rw [parseSelector, h]

theorem readLevel_of_trim_eq (ht : trim s = trim t) (h : readLevel s = .ok level) :
    readLevel t = .ok level := by
  obtain ⟨fragments, hparse, hfault, rfl⟩ := readLevel_ok_iff.mp h
  rw [parseSelector_ok_iff, ht, ← parseSelector_ok_iff] at hparse
  exact readLevel_ok_iff.mpr ⟨fragments, hparse, hfault, rfl⟩

theorem Builds.of_trim_eq {levels : Nat} {anchor : Anchor} {tree : PathTree}
    (h : Builds levels s anchor tree) (ht : trim s = trim t) : Builds levels t anchor tree := by
  cases h with
  | compound hread hlink => exact .compound (readLevel_of_trim_eq ht hread) hlink
  | union hread hlink hother => exact .union (readLevel_of_trim_eq ht hread) hlink hother
  | step hread hlink hnext hchild => exact .step (readLevel_of_trim_eq ht hread) hlink hnext hchild

theorem firstLink?_of_trim_eq (ht : trim s = trim t) : firstLink? s = firstLink? t := by
  cases hs : readLevel s with
  | ok level =>
    rw [firstLink?_of_readLevel hs, firstLink?_of_readLevel (readLevel_of_trim_eq ht hs)]
  | error e =>
    cases hother : readLevel t with
    | ok level =>
      rw [readLevel_of_trim_eq ht.symm hother] at hs
      cases hs
    | error e' => simp only [firstLink?, hs, hother]

theorem lastAnchor_of_link {kind : Combinator} {r : Text} (anchor : Anchor)
    (h : firstLink? s = some (kind, r)) :
    lastAnchor anchor s = lastAnchor (kind.stepAnchor?.getD anchor) r := by
  rw [lastAnchor]
  split
  · next heq =>
    cases h.symm.trans heq
    rfl
  · next heq => cases h.symm.trans heq

theorem lastAnchor_of_no_link (anchor : Anchor) (h : firstLink? s = none) :
    lastAnchor anchor s = anchor := by
  rw [lastAnchor]
  split
  · next heq => cases h.symm.trans heq
  · rfl

theorem lastAnchor_of_trim_eq (anchor : Anchor) (ht : trim s = trim t) :
    lastAnchor anchor s = lastAnchor anchor t := by
  have hlink := firstLink?_of_trim_eq ht
  cases hs : firstLink? s with
  | none => rw [lastAnchor_of_no_link anchor hs, lastAnchor_of_no_link anchor (hlink ▸ hs)]
  | some link => rw [lastAnchor_of_link anchor hs, lastAnchor_of_link anchor (hlink ▸ hs)]

end Trimming

section Writing

variable {tree first other : PathTree} {t : Text}

theorem renderAlternatives_append (xs ys : List PathTree) :
    renderAlternatives (xs ++ ys) = renderAlternatives xs ++ renderAlternatives ys := by
  induction xs with
  | nil => simp [renderAlternatives]
  | cons x xs ih => simp [renderAlternatives, ih]

theorem render_addAlternative (tree other : PathTree) :
    (tree.addAlternative other).render = tree.render ++ " | ".toList ++ other.render := by
  have hstep : (tree.addAlternative other).hasStep = tree.hasStep := rfl
  have hown : (tree.addAlternative other).renderStep = tree.renderStep := rfl
  rw [render_eq, hstep, hown, render_eq tree]
  simp [addAlternative, renderAlternatives_append, renderAlternatives]

theorem render_addChild_append (hnone : tree.alternatives = [])
    (h : first.render = other.render ++ t) :
    (tree.addChild first).render = (tree.addChild other).render ++ t := by
  have hstep (child : PathTree) : (tree.addChild child).hasStep = tree.hasStep := rfl
  have hown (child : PathTree) : (tree.addChild child).renderStep = tree.renderStep := rfl
  rw [render_eq, render_eq (tree.addChild other), hstep, hstep, hown, hown]
  simp [addChild, renderChildren_append, renderChildren, hnone, h, renderAlternatives]

end Writing

section Splitting

variable {s p r x y : Text} {compound : List Fragment} {kind : Combinator}

theorem append_comma_inj {a b w w' : Text} (hw : Blanks w) (hw' : Blanks w')
    (h : a ++ ',' :: (w ++ y) = b ++ ',' :: (w' ++ y)) : a = b := by
  have hcomma {w : Text} (hw : Blanks w) : ',' ∉ w := fun hmem => absurd (hw _ hmem) (by decide)
  rw [← List.cons_append, ← List.cons_append, ← List.append_assoc, ← List.append_assoc] at h
  rcases List.append_eq_append_iff.mp (List.append_cancel_right h) with ⟨c, rfl, hc⟩ | ⟨c, rfl, hc⟩
  · cases c with
    | nil => simp
    | cons d c =>
      cases hc
      exact absurd (by simp) (hcomma hw)
  · cases c with
    | nil => simp
    | cons d c =>
      cases hc
      exact absurd (by simp) (hcomma hw')

def SplitsInto (s p y : Text) : Prop :=
  ∀ {levels anchor tree}, Builds levels s anchor tree →
    ∃ front back, Builds levels p anchor front ∧ Builds levels y (lastAnchor anchor p) back ∧
      tree.render = front.render ++ " | ".toList ++ back.render

theorem readLevel_eq_of_link {level : Level} (h : readLevel s = .ok level)
    (hparse : parseSelector s = .ok (compound ++ [.link kind r])) :
    (compound.findSome? Fragment.fault?).or (Fragment.link kind r).fault? = none ∧
      level = ⟨compound, some (kind, r)⟩ := by
  rw [readLevel_of_link hparse] at h
  split at h
  · cases h
  · next hnone =>
    cases h
    exact ⟨hnone, rfl⟩

structure SplitAtComma (s front y : Text) : Prop where
  text : ∃ v w, Blanks v ∧ Blanks w ∧ trim s = front ++ (v ++ ',' :: (w ++ y))
  nonempty : front ≠ []
  trimmed : trim front = front
  splits : SplitsInto s front y

theorem trim_eq_self_of_front {u : Text} (h : trim s = p ++ u) (hend : EndsOff isBlank p) :
    trim p = p := by
  have hstart := (trim_eq_self_iff.mp (trim_trim s)).1
  exact trim_eq_self_iff.mpr ⟨startsOff_of_initial ⟨u, h.symm⟩ hstart, hend⟩

theorem SplitsInto.of_comma (h : parseSelector s = .ok (compound ++ [.link .multiple y]))
    (hp : parseSelector p = .ok compound) : SplitsInto s p y := by
  have hlinks := isLink_of_parseSelector_link h
  intro levels anchor tree hbuilds
  cases hbuilds with
  | compound hlevel hlink =>
    obtain ⟨-, rfl⟩ := readLevel_eq_of_link hlevel h
    cases hlink
  | union hlevel hlink hother =>
    obtain ⟨hnone, rfl⟩ := readLevel_eq_of_link hlevel h
    cases hlink
    have hfront : readLevel p = .ok ⟨compound, none⟩ := by
      rw [readLevel_of_no_link hp hlinks, (Option.or_eq_none_iff.mp hnone).1]
    refine ⟨_, _, .compound hfront rfl, ?_, render_addAlternative _ _⟩
    rw [lastAnchor_of_no_link anchor (firstLink?_of_readLevel hfront)]
    exact hother.mono (Nat.le_succ _)
  | step hlevel hlink hnext =>
    obtain ⟨-, rfl⟩ := readLevel_eq_of_link hlevel h
    cases hlink
    cases hnext

theorem SplitsInto.of_link {front : Text} (hsplits : SplitsInto r front y)
    (h : parseSelector s = .ok (compound ++ [.link kind r]))
    (hp : parseSelector p = .ok (compound ++ [.link kind front])) : SplitsInto s p y := by
  intro levels anchor tree hbuilds
  have hboth {level : Level} (hlevel : readLevel s = .ok level) :
      level = ⟨compound, some (kind, r)⟩ ∧
        readLevel p = .ok ⟨compound, some (kind, front)⟩ := by
    obtain ⟨hnone, heq⟩ := readLevel_eq_of_link hlevel h
    refine ⟨heq, ?_⟩
    rw [readLevel_of_link hp, link_fault_eq kind front r, hnone]
  cases hbuilds with
  | compound hlevel hlink =>
    obtain ⟨rfl, -⟩ := hboth hlevel
    cases hlink
  | union hlevel hlink hother =>
    obtain ⟨rfl, hfront⟩ := hboth hlevel
    cases hlink
    obtain ⟨first, back, hfirst, hback, hrender⟩ := hsplits hother
    refine ⟨_, back, .union hfront rfl hfirst, ?_, ?_⟩
    · rw [lastAnchor_of_link anchor (firstLink?_of_readLevel hfront)]
      exact hback.mono (Nat.le_succ _)
    · simp only [render_addAlternative, hrender, List.append_assoc]
      rfl
  | step hlevel hlink hnext hchild =>
    obtain ⟨rfl, hfront⟩ := hboth hlevel
    cases hlink
    obtain ⟨first, back, hfirst, hback, hrender⟩ := hsplits hchild
    refine ⟨_, back, .step hfront rfl hnext hfirst, ?_, ?_⟩
    · rw [lastAnchor_of_link anchor (firstLink?_of_readLevel hfront), hnext]
      exact hback.mono (Nat.le_succ _)
    · rw [List.append_assoc] at hrender ⊢
      exact render_addChild_append rfl hrender

theorem splitAtComma_of_parseSelector
    (h : parseSelector s = .ok (compound ++ [.link .multiple y])) :
    ∃ front, SplitAtComma s front y := by
  obtain ⟨front, tail, htext, hspells, hend, hstart, hread⟩ :=
    scan_cut (parseSelector_ok_iff.mp h)
  have hne : front ≠ [] := fun hnil => nomatch hstart hnil
  have htrim : trim front = front := trim_eq_self_of_front htext hend
  have hparse : parseSelector front = .ok compound := by
    rw [parseSelector_ok_iff, htrim]
    simpa using hread (l := []) rfl scan_nil
  refine ⟨front, ?_, hne, htrim, SplitsInto.of_comma h hparse⟩
  cases hspells with
  | @marked _ _ v w _ hv hw => exact ⟨v, w, hv, hw, by simpa [Combinator.symbol] using htext⟩

theorem SplitAtComma.of_link {front : Text} (hsplit : SplitAtComma r front y)
    (h : parseSelector s = .ok (compound ++ [.link kind r])) :
    ∃ longer, SplitAtComma s longer y := by
  obtain ⟨⟨v, w, hv, hw, hr⟩, hne, htrim, hsplits⟩ := hsplit
  have hremainder := remainder_of_parseSelector h (compoundOf_and_linkOf_of_parseSelector h).2
  rw [hremainder.2.1] at hr
  obtain ⟨body, tail, htext, hspells, -, -, hread⟩ := scan_cut (parseSelector_ok_iff.mp h)
  rw [hr] at hspells
  obtain ⟨g, rfl, hshort⟩ := hspells.shorten
  have hscan : scan true (g ++ front) = .ok [.link kind front] :=
    scan_link (Tail.firstMatch_span ⟨kind, front, _, hshort, hne, htrim⟩) hne
  have hlonger : trim s = (body ++ (g ++ front)) ++ (v ++ ',' :: (w ++ y)) := by simp [htext]
  have hend : EndsOff isBlank (body ++ (g ++ front)) := by
    rw [← List.append_assoc, endsOff_append hne]
    exact (trim_eq_self_iff.mp htrim).2
  have htrimmed := trim_eq_self_of_front hlonger hend
  have hparse : parseSelector (body ++ (g ++ front)) = .ok (compound ++ [.link kind front]) := by
    rw [parseSelector_ok_iff, htrimmed]
    exact hread (List.append_assoc ..).symm hscan
  exact ⟨_, ⟨v, w, hv, hw, hlonger⟩, by simp [hne], htrimmed, hsplits.of_link h hparse⟩

theorem ReadsLink.splitAtComma (h : ReadsLink .multiple y s) : ∃ front, SplitAtComma s front y := by
  obtain ⟨i, t, compound, hlevel, hparse⟩ := h
  induction i generalizing s with
  | zero =>
    cases hlevel
    exact splitAtComma_of_parseSelector hparse
  | succ i ih =>
    obtain ⟨r, hnext, hr⟩ := Option.bind_eq_some_iff.mp hlevel
    obtain ⟨outer, kind, hlink⟩ := exists_link_of_nextLevel? hnext
    obtain ⟨front, hsplit⟩ := ih hr
    exact hsplit.of_link hlink

theorem SplitAtComma.trim_eq {front : Text}
    (h : SplitAtComma (x ++ ", ".toList ++ y) front (trim y)) (hy : trim y ≠ []) :
    trim x = front := by
  obtain ⟨⟨v, w, hv, hw, htext⟩, -, htrim, -⟩ := h
  obtain ⟨a, b, ha, hb, hlist⟩ := eq_append_trim (x ++ ", ".toList ++ y)
  obtain ⟨a', b', ha', hb', hitem⟩ := eq_append_trim y
  have hclosed (t : Text) : trimEnd (t ++ trim y) = t ++ trim y :=
    trimEnd_eq_self_iff.mpr ((endsOff_append hy).mpr (trim_eq_self_iff.mp (trim_trim y)).2)
  -- Both sides are the list without the blanks at its end.
  have hends : (a ++ front ++ v) ++ ',' :: (w ++ trim y) = x ++ ',' :: ((' ' :: a') ++ trim y) := by
    calc (a ++ front ++ v) ++ ',' :: (w ++ trim y)
      _ = trimEnd (a ++ trim (x ++ ", ".toList ++ y) ++ b) := by
        rw [trimEnd_append_blanks hb, htext]
        simpa using (hclosed (a ++ front ++ v ++ ',' :: w)).symm
      _ = trimEnd (x ++ ", ".toList ++ (a' ++ trim y) ++ b') := by
        rw [← hlist, List.append_assoc _ _ b', ← hitem]
      _ = x ++ ',' :: ((' ' :: a') ++ trim y) := by
        rw [trimEnd_append_blanks hb']
        simpa using hclosed (x ++ ", ".toList ++ a')
  have hspace : Blanks (' ' :: a') := by
    rw [Blanks, List.forall_mem_cons]
    exact ⟨by decide, ha'⟩
  rw [← append_comma_inj hw hspace hends]
  exact trim_blanks_append ha hv htrim

end Splitting

theorem convert_eq_ok_iff {s X : Text} {anchor : Anchor} :
    convert s anchor = .ok X ↔
      ∃ tree, Builds (maxLinks + 1) s anchor tree ∧ tree.render = X := by
  simp only [← ofSelectorWithin_eq_ok_iff]
  rw [convert, ofSelector]
  cases ofSelectorWithin (maxLinks + 1) s anchor with
  | error e => simp [Except.map]
  | ok tree => simp [Except.map]

section Joining

variable {s z : Text} {compound : List Fragment}

theorem ReadsLink.of_next {kind : Combinator} {r m : Text} (h : ReadsLink kind r m)
    (hnext : nextLevel? s = some m) : ReadsLink kind r s := by
  obtain ⟨i, t, compound, ht, hparse⟩ := h
  exact ⟨i + 1, t, compound, Option.bind_eq_some_iff.mpr ⟨m, hnext, ht⟩, hparse⟩

theorem OpensNoQuote.next {r : Text} (h : OpensNoQuote s) (hnext : nextLevel? s = some r) :
    OpensNoQuote r := by
  intro i t fragments ht
  exact h (i + 1) t fragments (Option.bind_eq_some_iff.mpr ⟨r, hnext, ht⟩)

theorem OpensNoQuote.of_mem_compound (h : OpensNoQuote s) {level : Level}
    (hread : readLevel s = .ok level) :
    ∀ f ∈ level.compound, f.isLink = false ∧ f.opensQuote = false := by
  obtain ⟨fragments, hparse, -, rfl⟩ := readLevel_ok_iff.mp hread
  intro f hf
  exact ⟨isLink_of_mem_compoundOf hf,
    h 0 s fragments rfl hparse f (List.takeWhile_subset _ hf)⟩

theorem trim_append_eq_self {r u : Text} (hr : r ≠ []) (htrim : trim r = r) (hu : u ≠ [])
    (hend : EndsOff isBlank u) : trim (r ++ u) = r ++ u :=
  trim_eq_self_iff.mpr ⟨(startsOff_append hr).mpr (trim_eq_self_iff.mp htrim).1,
    (endsOff_append hu).mpr hend⟩

theorem parseSelector_append_tail (tail : Tail) (h : parseSelector s = .ok compound)
    (hcompound : ∀ f ∈ compound, f.isLink = false ∧ f.opensQuote = false) (hs : trim s ≠ [])
    (hz : trim z = trim s ++ tail.span) :
    parseSelector z = .ok (compound ++ [tail.fragment]) := by
  have hscan := parseSelector_ok_iff.mp h
  rw [← List.append_nil compound] at hscan
  have hne := compound_ne_nil_of_scan hscan hs (by simp)
  obtain ⟨rest, hrest, hread⟩ := scan_append hscan hcompound (.inr hne) tail.spells.stops
  rw [parseSelector_ok_iff, hz]
  apply hread
  obtain rfl := eq_nil_of_scan hrest
  exact scan_link tail.firstMatch_span tail.nonempty

theorem parseSelector_append_link {kind : Combinator} {r u : Text}
    (h : parseSelector s = .ok (compound ++ [.link kind r]))
    (hcompound : ∀ f ∈ compound, f.isLink = false ∧ f.opensQuote = false) (hu : Stops u)
    (hne : u ≠ []) (hend : EndsOff isBlank u) (hz : trim z = trim s ++ u) :
    parseSelector z = .ok (compound ++ [.link kind (r ++ u)]) := by
  have hscan := parseSelector_ok_iff.mp h
  obtain ⟨hr, htrim, hlength⟩ :=
    remainder_of_parseSelector h (compoundOf_and_linkOf_of_parseSelector h).2
  have hs : trim s ≠ [] := by
    intro hnil
    simp [hnil] at hlength
  have hstarted := compound_ne_nil_of_scan hscan hs (by simp [Fragment.isLink])
  obtain ⟨rest, hrest, hread⟩ := scan_append hscan hcompound (.inr hstarted) hu
  rw [parseSelector_ok_iff, hz]
  apply hread
  obtain ⟨-, hspells⟩ := spellsLink_of_scan hrest
  have htrimmed := trim_append_eq_self hr htrim hne hend
  have hlong : r ++ u ≠ [] := by simp [hr]
  exact scan_link (Tail.firstMatch_span ⟨kind, _, _, hspells.extend hr u, hlong, htrimmed⟩) hlong

theorem readsLink_of_builds {levels : Nat} {anchor : Anchor} {tree : PathTree} (tail : Tail)
    (h : Builds levels s anchor tree) (hquotes : OpensNoQuote s) (hs : trim s ≠ [])
    (hz : trim z = trim s ++ tail.span) : ReadsLink tail.kind tail.remainder z := by
  have hend := tail.spells.endsOff_blank tail.nonempty tail.trimmed
  revert z
  revert hquotes hs
  refine h.level_induction ?_ ?_
  · intro s level hread hlink hquotes hs z hz
    have hparse := parseSelector_of_readLevel hread
    rw [hlink, Option.toList_none, List.map_nil, List.append_nil] at hparse
    have hlong := parseSelector_append_tail tail hparse (hquotes.of_mem_compound hread) hs hz
    exact ⟨0, z, _, rfl, hlong⟩
  · intro s level kind r hread hlink ih hquotes hs z hz
    obtain ⟨hr, htrim, -⟩ := remainder_of_readLevel hread hlink
    have hparse := parseSelector_of_readLevel hread
    rw [hlink] at hparse
    have hlong := parseSelector_append_link hparse (hquotes.of_mem_compound hread)
      tail.spells.stops tail.spells.ne_nil hend hz
    refine (ih ?_ ?_ ?_).of_next (nextLevel?_of_parseSelector hlong)
    · exact hquotes.next (nextLevel?_of_parseSelector hparse)
    · rwa [htrim]
    · rw [htrim]
      exact trim_append_eq_self hr htrim tail.spells.ne_nil hend

theorem Builds.endsOff_linkMark {levels : Nat} {anchor : Anchor} {tree : PathTree}
    (h : Builds levels s anchor tree) : EndsOff isLinkMark (trim s) := by
  refine h.level_induction ?_ ?_
  · intro s level hread hlink
    obtain ⟨layout, htext, -, htail, -⟩ := exists_layout_of_readLevel hread
    have hend := endsOff_flatMap_span fun x (_ : x ∈ layout.pieces) => x.spells.endsOff_linkMark
    rw [hlink] at htail
    rw [← htext, Layout.text, textOf, Option.map_eq_none_iff.mp htail.symm]
    simpa using hend
  · intro s level kind r hread hlink ih
    obtain ⟨fragments, hparse, -, rfl⟩ := readLevel_ok_iff.mp hread
    obtain ⟨hr, htrim, -⟩ := remainder_of_parseSelector hparse hlink
    obtain ⟨a, ha⟩ := remainder_suffix_of_parseSelector hparse hlink
    rw [← ha, endsOff_append hr]
    rwa [htrim] at ih

theorem readsLink_comma {x y : Text} {anchor : Anchor} {item list : PathTree} {levels : Nat}
    (hquotes : OpensNoQuote x) (hx : trim x ≠ []) (hitem : Builds levels x anchor item)
    (hlist : Builds levels (x ++ ", ".toList ++ y) anchor list) :
    ReadsLink .multiple (trim y) (x ++ ", ".toList ++ y) := by
  obtain ⟨a, b, ha, hb, hxeq⟩ := eq_append_trim x
  obtain ⟨a', b', ha', hb', hyeq⟩ := eq_append_trim y
  have hparts : x ++ ", ".toList ++ y =
      a ++ trim x ++ b ++ ", ".toList ++ (a' ++ trim y ++ b') := by
    rw [← hxeq, ← hyeq]
  have htrim {u c : Text} (hu : u ≠ []) (hend : EndsOff isBlank u) (hc : Blanks c)
      (heq : x ++ ", ".toList ++ y = a ++ (trim x ++ u) ++ c) :
      trim (x ++ ", ".toList ++ y) = trim x ++ u := by
    rw [heq]
    exact trim_blanks_append ha hc (trim_append_eq_self hx (trim_trim x) hu hend)
  have hblank {c : Text} (hc : Blanks c) : Blanks (' ' :: c) := by
    rw [Blanks, List.forall_mem_cons]
    exact ⟨by decide, hc⟩
  by_cases hy : trim y = []
  · -- Nothing behind the comma: then the list ends with it, as no selector with a tree does.
    have hcomma : trim (x ++ ", ".toList ++ y) = trim x ++ (b ++ [',']) := by
      refine htrim (c := ' ' :: (a' ++ b')) (by simp) ?_ (hblank (ha'.append hb')) ?_
      · exact endsOff_close (by decide) b
      · rw [hparts, hy]
        simp
    have hend := hlist.endsOff_linkMark
    rw [hcomma, ← List.append_assoc] at hend
    exact absurd (hend ',' (by simp)) (by decide)
  · let tail : Tail := ⟨.multiple, trim y, _, .marked (by decide) hb (hblank ha'), hy, trim_trim y⟩
    refine readsLink_of_builds tail hitem hquotes hx (htrim tail.spells.ne_nil ?_ hb' ?_)
    · exact tail.spells.endsOff_blank hy (trim_trim y)
    · rw [hparts]
      simp [tail, Combinator.symbol]

theorem Spells.exists_quoteMark {bare : Text → Prop} {fragment : Fragment} {span : Text}
    (h : Spells bare fragment span) (hq : fragment.opensQuote = true) :
    ∃ c ∈ span, isQuoteMark c = true := by
  cases h with
  | @attrValue n op v body _ _ _ _ _ _ hbody =>
    cases v with
    | nil => cases hq
    | cons c v =>
      refine ⟨c, ?_, hq⟩
      cases hbody with
      | quoted q => simp [Quote.around]
      | bare => simp
  | _ => cases hq

theorem trim_subset (s : Text) : trim s ⊆ s := by
  obtain ⟨a, b, -, -, hs⟩ := eq_append_trim s
  intro c hc
  rw [hs]
  simp [hc]

theorem level?_subset {i : Nat} {t : Text} (h : level? i s = some t) : t ⊆ s := by
  induction i generalizing s with
  | zero =>
    cases h
    exact List.Subset.refl t
  | succ i ih =>
    obtain ⟨r, hnext, hr⟩ := Option.bind_eq_some_iff.mp h
    obtain ⟨compound, kind, hparse⟩ := exists_link_of_nextLevel? hnext
    have hsuffix :=
      remainder_suffix_of_parseSelector hparse (compoundOf_and_linkOf_of_parseSelector hparse).2
    exact List.Subset.trans (ih hr) (List.Subset.trans hsuffix.subset (trim_subset s))

theorem opensNoQuote_of_any (h : s.any isQuoteMark = false) : OpensNoQuote s := by
  intro i t fragments ht hparse f hf
  obtain ⟨layout, rfl, htext⟩ := exists_layout_of_parseSelector hparse
  cases hq : f.opensQuote with
  | false => rfl
  | true =>
    rcases List.mem_append.mp hf with hf | hf
    · obtain ⟨x, hx, rfl⟩ := List.mem_map.mp hf
      obtain ⟨c, hc, hmark⟩ := x.spells.exists_quoteMark hq
      have htrim : c ∈ trim t := by
        rw [← htext]
        exact List.mem_append_left _ (List.mem_flatMap.mpr ⟨x, hx, hc⟩)
      exact absurd hmark (List.any_eq_false.mp h c (level?_subset ht (trim_subset t htrim)))
    · obtain ⟨tail, -, rfl⟩ := List.mem_map.mp hf
      cases hq

end Joining

theorem convert_of_readsLink {x y Z : Text} {anchor : Anchor}
    (hcomma : ReadsLink .multiple (trim y) (x ++ ", ".toList ++ y))
    (hZ : convert (x ++ ", ".toList ++ y) anchor = .ok Z) :
    ∃ X Y, convert x anchor = .ok X ∧ convert y (lastAnchor anchor x) = .ok Y ∧
      Z = X ++ " | ".toList ++ Y := by
  have hy : trim y ≠ [] := by
    obtain ⟨i, t, compound, -, hparse⟩ := hcomma
    exact (remainder_of_parseSelector hparse (compoundOf_and_linkOf_of_parseSelector hparse).2).1
  obtain ⟨front, hsplit⟩ := hcomma.splitAtComma
  have hfront : trim front = trim x := by rw [hsplit.trimmed, hsplit.trim_eq hy]
  obtain ⟨tree, hbuilds, rfl⟩ := convert_eq_ok_iff.mp hZ
  obtain ⟨first, second, hfirst, hsecond, hrender⟩ := hsplit.splits hbuilds
  rw [lastAnchor_of_trim_eq anchor hfront] at hsecond
  exact ⟨first.render, second.render,
    convert_eq_ok_iff.mpr ⟨first, hfirst.of_trim_eq hfront, rfl⟩,
    convert_eq_ok_iff.mpr ⟨second, hsecond.of_trim_eq (trim_trim y), rfl⟩, hrender⟩

theorem convert_list {x y X Z : Text} {anchor : Anchor} (hx : ¬ Blanks x)
    (hquotes : OpensNoQuote x) (hX : convert x anchor = .ok X)
    (hZ : convert (x ++ ", ".toList ++ y) anchor = .ok Z) :
    ∃ Y, convert y (lastAnchor anchor x) = .ok Y ∧ Z = X ++ " | ".toList ++ Y := by
  obtain ⟨item, hitem, -⟩ := convert_eq_ok_iff.mp hX
  obtain ⟨list, hlist, -⟩ := convert_eq_ok_iff.mp hZ
  have hne : trim x ≠ [] := mt blanks_of_trim_eq_nil hx
  obtain ⟨X', Y, hX', hY, rfl⟩ := convert_of_readsLink (readsLink_comma hquotes hne hitem hlist) hZ
  cases hX.symm.trans hX'
  exact ⟨Y, hY, rfl⟩

theorem convert_list_child :
    convert "a > b".toList .anywhere = .ok "//a/b".toList ∧
      convert ("a > b".toList ++ ", ".toList ++ "c d".toList) .anywhere =
        .ok "//a/b | /c//d".toList ∧
      ∃ Y, convert "c d".toList (lastAnchor .anywhere "a > b".toList) = .ok Y ∧
        "//a/b | /c//d".toList = "//a/b".toList ++ " | ".toList ++ Y := by
  have hitem : convert "a > b".toList .anywhere = .ok "//a/b".toList := by decide +kernel
  have hlist : convert ("a > b".toList ++ ", ".toList ++ "c d".toList) .anywhere =
      .ok "//a/b | /c//d".toList := by
    decide +kernel
  exact ⟨hitem, hlist,
    convert_list (by decide) (opensNoQuote_of_any (by decide)) hitem hlist⟩

theorem convert_list_loses_anchor :
    ¬ ∀ (anchor : Anchor) (x y X Y Z : Text), ¬ Blanks x → convert x anchor = .ok X →
      convert y anchor = .ok Y → convert (x ++ ", ".toList ++ y) anchor = .ok Z →
      Z = X ++ " | ".toList ++ Y := by
  intro h
  have hlist := h .anywhere "a > b".toList "c".toList "//a/b".toList "//c".toList
    "//a/b | /c".toList (by decide) (by decide +kernel) (by decide +kernel) (by decide +kernel)
  exact absurd hlist (by decide)

-- A quote mark at the start of a bare value can take the comma into a quoted one.
example :
    convert "[a='b]".toList .root = .ok "/*[@a=\"'b\"]".toList ∧
      convert "[c=']".toList .root = .ok "/*[@c=\"'\"]".toList ∧
      convert "[a='b], [c=']".toList .root = .ok "/*[@a='b], [c=']".toList := by
  decide +kernel

end SelectorXPath
