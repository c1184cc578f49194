import SelectorXPath.Proofs.ScanSoundness
import SelectorXPath.Proofs.UniqueReading
import SelectorXPath.XPath.OfSelector

namespace SelectorXPath

structure Step where
  anchor : Anchor
  nodeTest : Text
  tests : List Predicate
deriving DecidableEq, Repr

def Step.render (step : Step) : Text :=
  step.anchor.marker ++ step.nodeTest ++ PathTree.renderPredicates step.tests

abbrev Outline := List (Option Step)

namespace PathTree

def step (tree : PathTree) : Step where
  anchor := tree.anchor
  nodeTest := renderAxis tree.axis ++ renderNodeTest tree.nodeTest tree.axis
  tests := tree.predicates

mutual

def outline : PathTree → Outline
  | ⟨nodeTest, axis, predicates, anchor, children, alternatives⟩ =>
    let own : PathTree := ⟨nodeTest, axis, predicates, anchor, [], []⟩
    (if own.hasStep || children.isEmpty then [some own.step] else []) ++
      outlineChildren children ++ outlineAlternatives alternatives

def outlineChildren : List PathTree → Outline
  | [] => []
  | child :: more => child.outline ++ outlineChildren more

def outlineAlternatives : List PathTree → Outline
  | [] => []
  | alternative :: more => none :: alternative.outline ++ outlineAlternatives more

end

end PathTree

def cutAtBars : Outline → List (List Step)
  | [] => [[]]
  | none :: more => [] :: cutAtBars more
  | some step :: more => (cutAtBars more).modifyHead (step :: ·)

def PathTree.branches (tree : PathTree) : List (List Step) := cutAtBars tree.outline

def branchText (branch : List Step) : Text := branch.flatMap Step.render

def unionText (branches : List (List Step)) : Text :=
  joinWith " | ".toList (branches.map branchText)

section Writing

def outlineText : Outline → Text
  | [] => []
  | none :: more => " | ".toList ++ outlineText more
  | some step :: more => step.render ++ outlineText more

theorem outlineText_append (xs ys : Outline) :
    outlineText (xs ++ ys) = outlineText xs ++ outlineText ys := by
  induction xs with
  | nil => rfl
  | cons x xs ih => cases x <;> simp [outlineText, ih]

theorem cutAtBars_ne_nil (xs : Outline) : cutAtBars xs ≠ [] := by
  induction xs with
  | nil => simp [cutAtBars]
  | cons x xs ih => cases x <;> simp [cutAtBars, ih]

theorem outlineText_eq_unionText (xs : Outline) : outlineText xs = unionText (cutAtBars xs) := by
  induction xs with
  | nil => rfl
  | cons x xs ih =>
    obtain ⟨branch, others, hcut⟩ := List.exists_cons_of_ne_nil (cutAtBars_ne_nil xs)
    cases x with
    | none => simp [outlineText, cutAtBars, ih, hcut, unionText, branchText, joinWith_cons]
    | some step => simp [outlineText, cutAtBars, ih, hcut, unionText, branchText, joinWith_cons]

namespace PathTree

theorem renderStep_eq (tree : PathTree) : tree.renderStep = tree.step.render := by
  simp [renderStep, Step.render, step]

mutual

theorem render_eq_outlineText : ∀ tree : PathTree, tree.render = outlineText tree.outline
  | ⟨nodeTest, axis, predicates, anchor, children, alternatives⟩ => by
    rw [render, outline, outlineText_append, outlineText_append,
      renderChildren_eq_outlineText children, renderAlternatives_eq_outlineText alternatives]
    split <;> simp [outlineText, renderStep_eq]

theorem renderChildren_eq_outlineText :
    ∀ trees : List PathTree, renderChildren trees = outlineText (outlineChildren trees)
  | [] => rfl
  | child :: more => by
    rw [renderChildren, outlineChildren, outlineText_append, render_eq_outlineText child,
      renderChildren_eq_outlineText more]

theorem renderAlternatives_eq_outlineText :
    ∀ trees : List PathTree, renderAlternatives trees = outlineText (outlineAlternatives trees)
  | [] => rfl
  | alternative :: more => by
    rw [renderAlternatives, outlineAlternatives, outlineText_append, outlineText,
      render_eq_outlineText alternative, renderAlternatives_eq_outlineText more]

end

theorem render_eq_unionText (tree : PathTree) : tree.render = unionText tree.branches := by
  rw [render_eq_outlineText, outlineText_eq_unionText, branches]

end PathTree

end Writing

section Reading

def isTestChar (c : Char) : Bool := isNameChar c || c == '*' || c == '.'

def IsNodeTest (t : Text) : Prop := t ≠ [] ∧ ∀ c ∈ t, isTestChar c = true

instance (t : Text) : Decidable (IsNodeTest t) := @instDecidableAnd _ _ _ (List.decidableBAll _ t)

structure Step.Plain (step : Step) : Prop where
  nodeTest : IsNodeTest step.nodeTest
  tests : ∀ p ∈ step.tests, p.Named

def EndsStep (r : Text) : Prop := StartsOff (fun c => isTestChar c || c == '[') r

theorem marker_reads :
    ReadsUniquely (fun _ => True) (StartsOff (· == '/')) Anchor.marker := by
  intro a b r s _ _ hr hs h
  have hmarker (a : Anchor) : ∀ c ∈ a.marker, (c == '/') = true := by
    cases a <;> simp [Anchor.marker]
  obtain ⟨hab, hrs⟩ := readsUniquely_run (· == '/') _ _ r s (hmarker a) (hmarker b) hr hs h
  refine ⟨?_, hrs⟩
  revert hab
  cases a <;> cases b <;> decide

theorem EndsStep.startsOff_test {r : Text} (h : EndsStep r) (ps : List Predicate) :
    StartsOff isTestChar (PathTree.renderPredicates ps ++ r) := by
  cases ps with
  | nil =>
    intro c hc
    have := h c hc
    simp only [Bool.or_eq_false_iff] at this
    exact this.1
  | cons p ps =>
    exact startsOff_cons (by decide) _

theorem EndsStep.startsOff_bracket {r : Text} (h : EndsStep r) : StartsOff (· == '[') r := by
  intro c hc
  have := h c hc
  simp only [Bool.or_eq_false_iff] at this
  exact this.2

theorem IsNodeTest.startsOff {t : Text} (h : IsNodeTest t) (r : Text) {p : Char → Bool}
    (hp : ∀ c, isTestChar c = true → p c = false) : StartsOff p (t ++ r) := by
  rw [startsOff_append h.1]
  intro c hc
  exact hp c (h.2 c (List.mem_of_mem_head? hc))

theorem isTestChar_ne {c d : Char} (hd : isTestChar d = false) (hc : isTestChar c = true) :
    c ≠ d := by
  rintro rfl
  rw [hc] at hd
  cases hd

theorem Step.render_reads : ReadsUniquely Step.Plain EndsStep Step.render := by
  intro a b r s ha hb hr hs h
  obtain ⟨anchor, nodeTest, tests⟩ := a
  obtain ⟨anchor', nodeTest', tests'⟩ := b
  have hslash (c : Char) (hc : isTestChar c = true) : (c == '/') = false := by
    simpa using isTestChar_ne (by decide) hc
  simp only [Step.render, List.append_assoc] at h
  obtain ⟨rfl, htail⟩ := marker_reads _ _ _ _ trivial trivial (ha.nodeTest.startsOff _ hslash)
    (hb.nodeTest.startsOff _ hslash) h
  obtain ⟨rfl, hbrackets⟩ := readsUniquely_run isTestChar nodeTest nodeTest' _ _ ha.nodeTest.2
    hb.nodeTest.2 (hr.startsOff_test tests) (hs.startsOff_test tests') htail
  obtain ⟨rfl, hrs⟩ := renderPredicates_reads tests tests' r s ha.tests hb.tests
    hr.startsOff_bracket hs.startsOff_bracket hbrackets
  exact ⟨rfl, hrs⟩

def Opens : Outline → Prop
  | some step :: _ => step.anchor ≠ .relative
  | _ => True

def Readable : Outline → Prop
  | [] => True
  | none :: more => Readable more
  | some step :: more => step.Plain ∧ Opens more ∧ Readable more

theorem Opens.append {xs ys : Outline} (hx : Opens xs) (hy : Opens ys) : Opens (xs ++ ys) := by
  cases xs with
  | nil => exact hy
  | cons x xs => cases x <;> exact hx

theorem Readable.append {xs ys : Outline} (hx : Readable xs) (hy : Readable ys) (ho : Opens ys) :
    Readable (xs ++ ys) := by
  induction xs with
  | nil => exact hy
  | cons x xs ih =>
    cases x with
    | none => exact ih hx
    | some step =>
      obtain ⟨hstep, hopens, hmore⟩ := hx
      exact ⟨hstep, hopens.append ho, ih hmore⟩

theorem Step.Plain.exists_render_eq_cons {step : Step} (h : step.Plain) :
    ∃ c t, step.render = c :: t ∧ c ≠ ' ' := by
  obtain ⟨c, t, htest⟩ := List.exists_cons_of_ne_nil h.nodeTest.1
  have hc : isTestChar c = true := h.nodeTest.2 c (by simp [htest])
  cases hanchor : step.anchor with
  | relative =>
    refine ⟨c, t ++ PathTree.renderPredicates step.tests, ?_, isTestChar_ne (by decide) hc⟩
    simp [Step.render, hanchor, htest, Anchor.marker]
  | root => exact ⟨'/', _, by simp [Step.render, hanchor, Anchor.marker]; rfl, by decide⟩
  | anywhere => exact ⟨'/', _, by simp [Step.render, hanchor, Anchor.marker]; rfl, by decide⟩

theorem Opens.endsStep {xs : Outline} (h : Opens xs) : EndsStep (outlineText xs) := by
  cases xs with
  | nil => simp [outlineText, EndsStep, StartsOff]
  | cons x more =>
    cases x with
    | none => exact startsOff_cons (by decide) _
    | some step =>
      cases hanchor : step.anchor with
      | relative => exact absurd hanchor h
      | root =>
        simp only [outlineText, Step.render, hanchor, Anchor.marker]
        exact startsOff_cons (by decide) _
      | anywhere =>
        simp only [outlineText, Step.render, hanchor, Anchor.marker]
        exact startsOff_cons (by decide) _

theorem Readable.eq_nil {xs : Outline} (hx : Readable xs) (h : outlineText xs = []) : xs = [] := by
  cases xs with
  | nil => rfl
  | cons x xs =>
    cases x with
    | none => simp [outlineText] at h
    | some step =>
      obtain ⟨c, t, hstep, -⟩ := hx.1.exists_render_eq_cons
      simp [outlineText, hstep] at h

theorem Step.Plain.render_append_ne_bar {step : Step} (h : step.Plain) (r s : Text) :
    step.render ++ r ≠ " | ".toList ++ s := by
  obtain ⟨c, t, hstep, hc⟩ := h.exists_render_eq_cons
  simp [hstep, hc]

theorem Readable.outlineText_inj {xs ys : Outline} (hx : Readable xs) (hy : Readable ys)
    (h : outlineText xs = outlineText ys) : xs = ys := by
  induction xs generalizing ys with
  | nil => exact (hy.eq_nil h.symm).symm
  | cons x xs ih =>
    cases ys with
    | nil => exact hx.eq_nil h
    | cons y ys =>
      cases x with
      | none =>
        cases y with
        | none => exact congrArg _ (ih hx hy (by simpa [outlineText] using h))
        | some step => exact absurd h.symm (hy.1.render_append_ne_bar _ _)
      | some step =>
        cases y with
        | none => exact absurd h (hx.1.render_append_ne_bar _ _)
        | some step' =>
          obtain ⟨hstep, hopens, hmore⟩ := hx
          obtain ⟨hstep', hopens', hmore'⟩ := hy
          obtain ⟨rfl, hrest⟩ :=
            Step.render_reads step step' _ _ hstep hstep' hopens.endsStep hopens'.endsStep h
          rw [ih hmore hmore' hrest]

end Reading

namespace PathTree

inductive Plain : PathTree → Prop
  | intro {tree : PathTree} (noAxis : tree.axis = none)
      (nodeTest : ∀ t ∈ tree.nodeTest, IsNodeTest t) (tests : ∀ p ∈ tree.predicates, p.Named)
      (marked : ∀ child ∈ tree.children, child.anchor ≠ .relative)
      (children : ∀ child ∈ tree.children, Plain child)
      (alternatives : ∀ alternative ∈ tree.alternatives, Plain alternative) : Plain tree

section Outlines

variable {tree : PathTree} {trees : List PathTree}

theorem outline_eq (tree : PathTree) :
    tree.outline =
      (if tree.hasStep || tree.children.isEmpty then [some tree.step] else []) ++
        outlineChildren tree.children ++ outlineAlternatives tree.alternatives := by
  cases tree
  rw [outline]
  rfl

theorem outlineChildren_readable
    (h : ∀ child ∈ trees, Readable child.outline ∧ Opens child.outline) :
    Readable (outlineChildren trees) ∧ Opens (outlineChildren trees) := by
  induction trees with
  | nil => exact ⟨trivial, trivial⟩
  | cons child more ih =>
    simp only [List.mem_cons, forall_eq_or_imp] at h
    obtain ⟨⟨hchild, hopens⟩, hmore⟩ := h
    obtain ⟨hrest, hrestOpens⟩ := ih hmore
    exact ⟨hchild.append hrest hrestOpens, hopens.append hrestOpens⟩

theorem opens_outlineAlternatives (trees : List PathTree) : Opens (outlineAlternatives trees) := by
  cases trees <;> trivial

theorem outlineAlternatives_readable (h : ∀ alternative ∈ trees, Readable alternative.outline) :
    Readable (outlineAlternatives trees) := by
  induction trees with
  | nil => trivial
  | cons alternative more ih =>
    simp only [List.mem_cons, forall_eq_or_imp] at h
    exact h.1.append (ih h.2) (opens_outlineAlternatives more)

theorem plain_step (hax : tree.axis = none) (htest : ∀ t ∈ tree.nodeTest, IsNodeTest t)
    (hpred : ∀ p ∈ tree.predicates, p.Named) : tree.step.Plain := by
  refine ⟨?_, hpred⟩
  cases hnode : tree.nodeTest with
  | none =>
    simp only [step, hax, hnode, renderAxis, renderNodeTest]
    decide
  | some t => simpa [step, hax, hnode, renderAxis, renderNodeTest] using htest t hnode

theorem Plain.outline_readable (h : tree.Plain) :
    Readable tree.outline ∧ (tree.anchor ≠ .relative → Opens tree.outline) := by
  induction h with
  | @intro tree hax htest hpred hmarked _ _ ihChildren ihAlternatives =>
    obtain ⟨hchildren, hopens⟩ := @outlineChildren_readable tree.children fun child hc =>
      ⟨(ihChildren child hc).1, (ihChildren child hc).2 (hmarked child hc)⟩
    have halternatives :=
      outlineAlternatives_readable fun other ho => (ihAlternatives other ho).1
    have hbars := opens_outlineAlternatives tree.alternatives
    rw [outline_eq]
    split
    · refine ⟨?_, fun hanchor => hanchor⟩
      have hstep : Readable [some tree.step] := ⟨plain_step hax htest hpred, trivial, trivial⟩
      exact (hstep.append hchildren hopens).append halternatives hbars
    · exact ⟨hchildren.append halternatives hbars, fun _ => hopens.append hbars⟩

end Outlines

section Building

variable {tree other : PathTree}

theorem plain_empty (anchor : Anchor) : (empty anchor).Plain := by
  constructor <;> simp [empty]

theorem Plain.setNodeTest (h : tree.Plain) {t : Text} (ht : IsNodeTest t) :
    (tree.setNodeTest t).Plain := by
  obtain ⟨hax, -, hpred, hmarked, hchildren, halternatives⟩ := h
  exact ⟨hax, by simpa [PathTree.setNodeTest] using ht, hpred, hmarked, hchildren, halternatives⟩

theorem Plain.addPredicate (h : tree.Plain) {p : Predicate} (hp : p.Named) :
    (tree.addPredicate p).Plain := by
  obtain ⟨hax, htest, hpred, hmarked, hchildren, halternatives⟩ := h
  refine ⟨hax, htest, ?_, hmarked, hchildren, halternatives⟩
  simpa [PathTree.addPredicate, or_imp, forall_and, hp] using hpred

theorem Plain.addChild (h : tree.Plain) (hother : other.Plain)
    (hanchor : other.anchor ≠ .relative) : (tree.addChild other).Plain := by
  obtain ⟨hax, htest, hpred, hmarked, hchildren, halternatives⟩ := h
  refine ⟨hax, htest, hpred, ?_, ?_, halternatives⟩
  · simpa [PathTree.addChild, or_imp, forall_and, hanchor] using hmarked
  · simpa [PathTree.addChild, or_imp, forall_and, hother] using hchildren

theorem Plain.addAlternative (h : tree.Plain) (hother : other.Plain) :
    (tree.addAlternative other).Plain := by
  obtain ⟨hax, htest, hpred, hmarked, hchildren, halternatives⟩ := h
  refine ⟨hax, htest, hpred, hmarked, hchildren, ?_⟩
  simpa [PathTree.addAlternative, or_imp, forall_and, hother] using halternatives

theorem plain_parentStep : parentStep.Plain :=
  (plain_empty .root).setNodeTest (by decide)

theorem plain_applyFilter {name : Text} {argument : Option Text} (h : tree.Plain)
    (hother : tree.applyFilter name argument = .ok other) :
    other.Plain ∧ other.anchor = tree.anchor := by
  simp only [applyFilter] at hother
  split at hother
  · split at hother
    · cases hother
      exact ⟨h.addPredicate trivial, rfl⟩
    · cases hother
  · split at hother
    · split at hother
      · cases hother
        exact ⟨h.addChild plain_parentStep (by decide), rfl⟩
      · cases hother
    · cases hother

theorem named_attributeTest {name : Text} {operator value : Option Text} {p : Predicate}
    (hname : IsName name) (h : attributeTest name operator value = .ok p) : p.Named := by
  simp only [attributeTest] at h
  split at h
  · cases h
    exact hname
  · split at h
    · cases h
      exact hname
    · split at h
      · cases h
        exact hname
      · cases h

def BuildsPlain (next : Text → Anchor → Except SelectorError PathTree) : Prop :=
  ∀ s anchor tree, next s anchor = .ok tree → tree.Plain ∧ tree.anchor = anchor

theorem plain_applyLink {next : Text → Anchor → Except SelectorError PathTree}
    {kind : Combinator} {r : Text} (hnext : BuildsPlain next) (h : tree.Plain)
    (hother : applyLink next tree kind r = .ok other) :
    other.Plain ∧ other.anchor = tree.anchor := by
  cases kind with
  | multiple =>
    obtain ⟨rest, hrest, rfl⟩ := map_eq_ok hother
    exact ⟨h.addAlternative (hnext _ _ _ hrest).1, rfl⟩
  | child =>
    obtain ⟨rest, hrest, rfl⟩ := map_eq_ok hother
    obtain ⟨hplain, hanchor⟩ := hnext _ _ _ hrest
    exact ⟨h.addChild hplain (by simp [hanchor]), rfl⟩
  | descendant =>
    obtain ⟨rest, hrest, rfl⟩ := map_eq_ok hother
    obtain ⟨hplain, hanchor⟩ := hnext _ _ _ hrest
    exact ⟨h.addChild hplain (by simp [hanchor]), rfl⟩
  | adjacent => cases hother
  | sibling => cases hother

theorem isNodeTest_name {n : Text} (h : IsName n) : IsNodeTest n :=
  ⟨h.1, fun c hc => by simp [isTestChar, h.2 c hc]⟩

def Spellable (fragment : Fragment) : Prop :=
  fragment.isLink = true ∨ ∃ span, Spells BareValue fragment span

theorem plain_refine {next : Text → Anchor → Except SelectorError PathTree}
    {fragments : List Fragment} (hnext : BuildsPlain next)
    (hspells : ∀ fragment ∈ fragments, Spellable fragment) (h : tree.Plain)
    (hother : refine next tree fragments = .ok other) :
    other.Plain ∧ other.anchor = tree.anchor := by
  induction fragments generalizing tree with
  | nil =>
    cases hother
    exact ⟨h, rfl⟩
  | cons fragment more ih =>
    simp only [List.mem_cons, forall_eq_or_imp] at hspells
    obtain ⟨hfragment, hmore⟩ := hspells
    have hrest {refined : PathTree} (hr : refine next refined more = .ok other)
        (hplain : refined.Plain) (hanchor : refined.anchor = tree.anchor) :
        other.Plain ∧ other.anchor = tree.anchor := by
      rw [← hanchor]
      exact ih hmore hplain hr
    rcases hfragment with hlink | ⟨span, hspan⟩
    · cases fragment with
      | link kind r => exact plain_applyLink hnext h hother
      | _ => cases hlink
    · cases hspan with
      | any => exact hrest hother (h.setNodeTest (by decide)) rfl
      | element hn => exact hrest hother (h.setNodeTest (isNodeTest_name hn)) rfl
      | id => exact hrest hother (h.addPredicate (by decide : IsName "id".toList)) rfl
      | className => exact hrest hother (h.addPredicate trivial) rfl
      | attr hn => exact hrest hother (h.addPredicate hn) rfl
      | attrValue hn =>
        simp only [refine] at hother
        split at hother
        · rename_i hp
          exact hrest hother (h.addPredicate (named_attributeTest hn hp)) rfl
        · cases hother
      | filter | filterBlank | filterArgument =>
        simp only [refine] at hother
        split at hother
        · rename_i hrefined
          obtain ⟨hplain, hanchor⟩ := plain_applyFilter h hrefined
          exact hrest hother hplain hanchor
        · cases hother

theorem spellable_of_parseSelector {s : Text} {fragments : List Fragment}
    (h : parseSelector s = .ok fragments) : ∀ fragment ∈ fragments, Spellable fragment := by
  obtain ⟨layout, rfl, -⟩ := exists_layout_of_parseSelector h
  intro fragment hf
  simp only [Layout.fragments, fragmentsOf, List.mem_append, List.mem_map] at hf
  rcases hf with ⟨x, -, rfl⟩ | ⟨tail, -, rfl⟩
  · exact .inr ⟨x.span, x.spells⟩
  · exact .inl rfl

theorem buildsPlain_ofSelectorWithin (levels : Nat) : BuildsPlain (ofSelectorWithin levels) := by
  induction levels with
  | zero =>
    intro s anchor tree h
    cases h
  | succ levels ih =>
    intro s anchor tree h
    simp only [ofSelectorWithin] at h
    split at h
    · rename_i fragments hparse
      exact plain_refine ih (spellable_of_parseSelector hparse) (plain_empty anchor) h
    · cases h

end Building

end PathTree

theorem convert_eq_unionText {s : Text} {m : Anchor} {tree : PathTree}
    (h : PathTree.ofSelector s m = .ok tree) : convert s m = .ok (unionText tree.branches) := by
  rw [convert, h, ← PathTree.render_eq_unionText]
  rfl

theorem convert_eq_iff_branches_eq {s t : Text} {m n : Anchor} {a b : PathTree}
    (hs : PathTree.ofSelector s m = .ok a) (ht : PathTree.ofSelector t n = .ok b) :
    convert s m = convert t n ↔ a.branches = b.branches := by
  constructor
  · intro h
    have ha := (PathTree.buildsPlain_ofSelectorWithin _ _ _ _ hs).1.outline_readable.1
    have hb := (PathTree.buildsPlain_ofSelectorWithin _ _ _ _ ht).1.outline_readable.1
    rw [convert, convert, hs, ht] at h
    have hrender : a.render = b.render := Except.ok.inj h
    rw [PathTree.render_eq_outlineText, PathTree.render_eq_outlineText] at hrender
    rw [PathTree.branches, ha.outlineText_inj hb hrender, PathTree.branches]
  · intro h
    rw [convert_eq_unionText hs, convert_eq_unionText ht, h]

theorem convert_eq_iff_branches_eq_parent :
    ∃ a b, PathTree.ofSelector "a:parent".toList .anywhere = .ok a ∧
      PathTree.ofSelector "a > :parent".toList .anywhere = .ok b ∧ a.branches = b.branches := by
  have hs : convert "a:parent".toList .anywhere = .ok "//a/..".toList := by decide +kernel
  have ht : convert "a > :parent".toList .anywhere = .ok "//a/..".toList := by decide +kernel
  obtain ⟨a, ha, -⟩ := map_eq_ok hs
  obtain ⟨b, hb, -⟩ := map_eq_ok ht
  exact ⟨a, b, ha, hb, (convert_eq_iff_branches_eq ha hb).mp (hs.trans ht.symm)⟩

end SelectorXPath
