import Mathlib.Logic.Relation
import SelectorXPath.Proofs.Levels

namespace SelectorXPath

namespace PathTree

def Leads (node next : PathTree) : Prop := next ∈ node.children ∨ next ∈ node.alternatives

structure IsParentLeaf (node : PathTree) : Prop where
  nodeTest : node.nodeTest = some "..".toList
  anchor : node.anchor = .root
  predicates : node.predicates = []
  children : node.children = []
  alternatives : node.alternatives = []

structure IsInnerStep (node : PathTree) : Prop where
  anchor : node.anchor = .root ∨ node.anchor = .anywhere
  nodeTest : node.nodeTest ≠ some "..".toList

structure Shaped (node : PathTree) : Prop where
  noAxis : node.axis = none
  alternatives : node.alternatives.length ≤ 1
  sameAnchor : ∀ other ∈ node.alternatives, other.anchor = node.anchor
  children : ∃ (parents : List PathTree) (child : Option PathTree),
    node.children = parents ++ child.toList ∧ (∀ leaf ∈ parents, leaf.IsParentLeaf) ∧
    ∀ step ∈ child, step.IsInnerStep
  onlyParents : node.alternatives ≠ [] → ∀ child ∈ node.children, child.IsParentLeaf

/-- The trees are the same but for the anchor of the node and of the nodes that only alternatives
lead to. -/
inductive DifferInAnchor (m n : Anchor) : PathTree → PathTree → Prop
  | intro {a b : PathTree} (nodeTest : a.nodeTest = b.nodeTest) (axis : a.axis = b.axis)
      (predicates : a.predicates = b.predicates) (children : a.children = b.children)
      (left : a.anchor = m) (right : b.anchor = n)
      (alternatives : List.Forall₂ (DifferInAnchor m n) a.alternatives b.alternatives) :
      DifferInAnchor m n a b

end PathTree

open PathTree

section Nodes

variable {s r : Text} {level : Level} {anchor : Anchor} {leaf : PathTree}

theorem isParentLeaf_parentStep : parentStep.IsParentLeaf := ⟨rfl, rfl, rfl, rfl, rfl⟩

theorem isParentLeaf_of_mem_node (h : leaf ∈ (node anchor level).children) :
    leaf = parentStep := by
  simp only [node, extend, empty, List.nil_append, List.mem_map] at h
  obtain ⟨-, -, rfl⟩ := h
  rfl

theorem shaped_parentStep : parentStep.Shaped := by
  constructor
  · rfl
  · simp [parentStep, empty, setNodeTest]
  · simp [parentStep, empty, setNodeTest]
  · exact ⟨[], none, rfl, by simp, by simp⟩
  · simp [parentStep, empty, setNodeTest]

theorem eq_parentStep_of_reaches {other : PathTree}
    (h : Relation.ReflTransGen Leads parentStep other) : other = parentStep := by
  rcases Relation.ReflTransGen.cases_head_iff.mp h with rfl | ⟨next, hnext, -⟩
  · rfl
  · rcases hnext with hnext | hnext <;> cases hnext

theorem nodeTest_node_ne (h : readLevel s = .ok level) :
    (node anchor level).nodeTest ≠ some "..".toList := by
  intro htest
  simp only [node, extend, empty, Option.or_none] at htest
  obtain ⟨fragment, hf, hname⟩ := List.mem_filterMap.mp (List.mem_of_getLast? htest)
  obtain ⟨⟨span, hspells⟩, -⟩ := spells_and_fault_of_mem_compound h hf
  cases hspells with
  | any => revert hname; decide
  | element hn =>
    -- A name has no point in it.
    cases hname
    exact absurd (hn.2 '.' (by simp)) (by decide)
  | _ => cases hname

theorem Fragment.adds_of_fault_eq_none {fragment : Fragment} (hl : fragment.isLink = false)
    (hf : fragment.fault? = none) :
    fragment.nodeTest? ≠ none ∨ fragment.predicate? ≠ none ∨ fragment.isParent = true := by
  cases fragment with
  | element name => simp [nodeTest?]
  | id value => simp [predicate?]
  | className value => simp [predicate?]
  | attr name operator value =>
    cases operator with
    | none => simp [predicate?]
    | some operator =>
      right; left
      simp only [predicate?]
      split <;> simp
  | filter name argument => cases argument <;> simp [predicate?, isParent]
  | link kind r => cases hl

theorem compound_eq_nil_of_bare (h : readLevel s = .ok level)
    (hstep : (node anchor level).hasStep = false) (hchildren : (node anchor level).children = []) :
    level.compound = [] := by
  simp only [node, extend, empty, hasStep, Option.or_none, List.nil_append, Option.isSome_none,
    Bool.or_false, Bool.or_eq_false_iff, Option.isSome_eq_false_iff, Option.isNone_iff_eq_none,
    List.getLast?_eq_none_iff, Bool.not_eq_false', List.isEmpty_iff] at hstep
  simp only [node, extend, empty, List.nil_append, List.map_eq_nil_iff] at hchildren
  rw [List.eq_nil_iff_forall_not_mem]
  intro fragment hf
  obtain ⟨⟨span, hspells⟩, hfault⟩ := spells_and_fault_of_mem_compound h hf
  rcases Fragment.adds_of_fault_eq_none hspells.isLink_eq_false hfault with htest | htest | htest
  · exact htest (List.filterMap_eq_nil_iff.mp hstep.1 fragment hf)
  · exact htest (List.filterMap_eq_nil_iff.mp hstep.2 fragment hf)
  · exact List.filter_eq_nil_iff.mp hchildren fragment hf htest

theorem not_blanks_remainder {kind : Combinator} (h : readLevel s = .ok level)
    (hlink : level.link = some (kind, r)) : ¬ Blanks r := by
  obtain ⟨hne, htrim, -⟩ := remainder_of_readLevel h hlink
  intro hblank
  exact hne (htrim.symm.trans (trim_blanks hblank))

end Nodes

section Shape

variable {levels : Nat} {s : Text} {anchor : Anchor} {tree other : PathTree}

theorem Builds.anchor_eq (h : Builds levels s anchor tree) : tree.anchor = anchor := by
  cases h <;> rfl

theorem Builds.nodeTest_ne (h : Builds levels s anchor tree) :
    tree.nodeTest ≠ some "..".toList := by
  cases h with
  | compound hread => exact nodeTest_node_ne hread
  | union hread => exact nodeTest_node_ne hread
  | step hread => exact nodeTest_node_ne hread

theorem Combinator.stepAnchor?_eq {kind : Combinator} {next : Anchor}
    (h : kind.stepAnchor? = some next) : next = .root ∨ next = .anywhere := by
  cases kind with
  | child => exact .inl (Option.some.inj h).symm
  | descendant => exact .inr (Option.some.inj h).symm
  | _ => cases h

theorem Builds.shaped (h : Builds levels s anchor tree) : tree.Shaped := by
  have hleaf {level : Level} : ∀ leaf ∈ (node anchor level).children, leaf.IsParentLeaf := by
    intro leaf hmem
    rw [isParentLeaf_of_mem_node hmem]
    exact isParentLeaf_parentStep
  cases h with
  | @compound _ _ _ level hread hlink =>
    refine ⟨rfl, Nat.zero_le _, by simp [node, extend, empty], ?_, fun _ => hleaf⟩
    exact ⟨_, none, (List.append_nil _).symm, hleaf, by simp⟩
  | @union _ _ _ level _ other hread hlink hother =>
    refine ⟨rfl, Nat.le_refl 1, ?_, ?_, fun _ => hleaf⟩
    · intro alternative hmem
      obtain rfl : alternative = other := List.mem_singleton.mp hmem
      exact hother.anchor_eq
    · exact ⟨_, none, (List.append_nil _).symm, hleaf, by simp⟩
  | @step _ _ _ level _ _ next child hread hlink hnext hchild =>
    refine ⟨rfl, Nat.zero_le _, by simp [node, extend, empty, addChild], ?_, ?_⟩
    · refine ⟨(node anchor level).children, some child, rfl, hleaf, ?_⟩
      rintro step hstep
      obtain rfl := Option.mem_some_iff.mp hstep
      refine ⟨?_, hchild.nodeTest_ne⟩
      rw [hchild.anchor_eq]
      exact Combinator.stepAnchor?_eq hnext
    · intro hne
      exact absurd rfl hne

theorem Builds.leads_cases {next : PathTree} (h : Builds levels s anchor tree)
    (hnext : Leads tree next) :
    next = parentStep ∨
      ∃ fewer r below, levels = fewer + 1 ∧ ¬ Blanks r ∧ Builds fewer r below next := by
  cases h with
  | compound hread hlink =>
    rcases hnext with hnext | hnext
    · exact .inl (isParentLeaf_of_mem_node hnext)
    · cases hnext
  | @union fewer _ _ level r other hread hlink hother =>
    rcases hnext with hnext | hnext
    · exact .inl (isParentLeaf_of_mem_node hnext)
    · obtain rfl : next = other := List.mem_singleton.mp hnext
      exact .inr ⟨fewer, r, anchor, rfl, not_blanks_remainder hread hlink, hother⟩
  | @step fewer _ _ level _ r below child hread hlink _ hchild =>
    rcases hnext with hnext | hnext
    · rcases List.mem_append.mp hnext with hnext | hnext
      · exact .inl (isParentLeaf_of_mem_node hnext)
      · obtain rfl : next = child := List.mem_singleton.mp hnext
        exact .inr ⟨fewer, r, below, rfl, not_blanks_remainder hread hlink, hchild⟩
    · cases hnext

theorem Builds.eq_empty_of_bare (h : Builds levels s anchor tree) (hstep : tree.hasStep = false)
    (hchildren : tree.children = []) : Blanks s ∧ tree = empty anchor := by
  have hblank {level : Level} (hread : readLevel s = .ok level)
      (hs : (node anchor level).hasStep = false) (hc : (node anchor level).children = []) :
      Blanks s ∧ level.link = none ∧ node anchor level = empty anchor := by
    have hnil := compound_eq_nil_of_bare hread hs hc
    obtain ⟨htrim, hlink⟩ := trim_eq_nil_of_compound_eq_nil hread hnil
    exact ⟨blanks_of_trim_eq_nil htrim, hlink, by rw [node, hnil, extend_nil]⟩
  cases h with
  | compound hread hlink =>
    obtain ⟨hs, -, heq⟩ := hblank hread hstep hchildren
    exact ⟨hs, heq⟩
  | union hread hlink =>
    obtain ⟨-, hnone, -⟩ := hblank hread hstep hchildren
    rw [hnone] at hlink
    cases hlink
  | step => simp [addChild] at hchildren

theorem Builds.reaches (h : Builds levels s anchor tree) {place : PathTree}
    (hreach : Relation.ReflTransGen Leads tree place) :
    place.Shaped ∧
      (place.hasStep = false → place.children = [] →
        Blanks s ∧ place = tree ∧ tree = empty anchor) := by
  induction levels generalizing s anchor tree with
  | zero => cases h
  | succ levels ih =>
    rcases Relation.ReflTransGen.cases_head_iff.mp hreach with rfl | ⟨next, hnext, hrest⟩
    · refine ⟨h.shaped, fun hstep hchildren => ?_⟩
      obtain ⟨hs, heq⟩ := h.eq_empty_of_bare hstep hchildren
      exact ⟨hs, rfl, heq⟩
    · rcases h.leads_cases hnext with rfl | ⟨fewer, r, below, hfewer, hr, hbuilds⟩
      · obtain rfl := eq_parentStep_of_reaches hrest
        exact ⟨shaped_parentStep, fun hstep => by cases hstep⟩
      · cases hfewer
        obtain ⟨hshaped, hbare⟩ := ih hbuilds hrest
        exact ⟨hshaped, fun hstep hchildren => absurd (hbare hstep hchildren).1 hr⟩

theorem Builds.length_chain_le (h : Builds levels s anchor tree) {chain : List PathTree}
    (hchain : (tree :: chain).IsChain Leads) (hinner : ∀ place ∈ chain, ¬ place.IsParentLeaf) :
    chain.length < levels := by
  induction levels generalizing s anchor tree chain with
  | zero => cases h
  | succ levels ih =>
    cases chain with
    | nil => exact Nat.zero_lt_succ _
    | cons next chain =>
      obtain ⟨hnext, hrest⟩ := List.isChain_cons_cons.mp hchain
      rcases h.leads_cases hnext with rfl | ⟨fewer, r, below, hfewer, -, hbuilds⟩
      · exact absurd isParentLeaf_parentStep (hinner _ (by simp))
      · cases hfewer
        have hbelow := ih hbuilds hrest fun place hmem => hinner place (.tail _ hmem)
        simpa using hbelow

end Shape

section Anchors

variable {levels : Nat} {s : Text} {m : Anchor} {a : PathTree}

theorem Builds.exists_differInAnchor (h : Builds levels s m a) (n : Anchor) :
    ∃ b, Builds levels s n b ∧ DifferInAnchor m n a b := by
  induction h with
  | @compound _ _ m level hread hlink =>
    exact ⟨_, .compound hread hlink, ⟨rfl, rfl, rfl, rfl, rfl, rfl, .nil⟩⟩
  | @union _ _ m level _ _ hread hlink _ ih =>
    obtain ⟨other, hother, hdiffer⟩ := ih
    exact ⟨_, .union hread hlink hother, ⟨rfl, rfl, rfl, rfl, rfl, rfl, .cons hdiffer .nil⟩⟩
  | @step _ _ m level _ _ _ _ hread hlink hnext hchild _ =>
    -- The child has an anchor of its own, so it is the same for both.
    exact ⟨_, .step hread hlink hnext hchild, ⟨rfl, rfl, rfl, rfl, rfl, rfl, .nil⟩⟩

end Anchors

theorem ofSelector_shape {s : Text} {anchor : Anchor} {tree : PathTree}
    (h : PathTree.ofSelector s anchor = .ok tree) :
    (∀ place, Relation.ReflTransGen Leads tree place →
      place.Shaped ∧
      (place.hasStep = false → place.children = [] →
        Blanks s ∧ place = tree ∧ tree = PathTree.empty anchor)) ∧
    ∀ chain : List PathTree, chain.head? = some tree → chain.IsChain Leads →
      (∀ place ∈ chain, ¬ place.IsParentLeaf) → chain.length ≤ 257 := by
  have hbuilds := ofSelectorWithin_eq_ok_iff.mp h
  refine ⟨fun place hreach => hbuilds.reaches hreach, ?_⟩
  intro chain hhead hchain hinner
  obtain ⟨rest, rfl⟩ := List.head?_eq_some_iff.mp hhead
  exact hbuilds.length_chain_le hchain fun place hmem => hinner place (List.mem_cons_of_mem _ hmem)

theorem ofSelector_shape_parent :
    ∃ tree, PathTree.ofSelector "a:parent b, c".toList .relative = .ok tree ∧
      tree.children.length = 2 ∧
      (∀ place, Relation.ReflTransGen Leads tree place → place.Shaped) ∧
      ∀ chain : List PathTree, chain.head? = some tree → chain.IsChain Leads →
        (∀ place ∈ chain, ¬ place.IsParentLeaf) → chain.length ≤ 257 := by
  have hfirst : readLevel "a:parent b, c".toList =
      .ok ⟨[.element "a".toList, .filter "parent".toList none],
        some (.descendant, "b, c".toList)⟩ := by
    decide +kernel
  have hsecond : readLevel "b, c".toList =
      .ok ⟨[.element "b".toList], some (.multiple, "c".toList)⟩ := by
    decide +kernel
  have hthird : readLevel "c".toList = .ok ⟨[.element "c".toList], none⟩ := by decide +kernel
  have hbuilds : Builds (maxLinks + 1) "a:parent b, c".toList .relative _ :=
    .step hfirst rfl rfl (.union hsecond rfl (.compound hthird rfl))
  obtain ⟨hshaped, hchain⟩ := ofSelector_shape hbuilds.ofSelectorWithin_eq
  exact ⟨_, hbuilds.ofSelectorWithin_eq, rfl, fun place hreach => (hshaped place hreach).1, hchain⟩

theorem ofSelector_anchor (s : Text) (m n : Anchor) :
    (∃ e, PathTree.ofSelector s m = .error e ∧ PathTree.ofSelector s n = .error e) ∨
    ∃ a b, PathTree.ofSelector s m = .ok a ∧ PathTree.ofSelector s n = .ok b ∧
      DifferInAnchor m n a b := by
  rcases builds_or_fails (maxLinks + 1) s m with ⟨a, ha⟩ | ⟨e, he⟩
  · obtain ⟨b, hb, hdiffer⟩ := ha.exists_differInAnchor n
    exact .inr ⟨a, b, ha.ofSelectorWithin_eq, hb.ofSelectorWithin_eq, hdiffer⟩
  · exact .inl ⟨e, he.ofSelectorWithin_eq m, he.ofSelectorWithin_eq n⟩

end SelectorXPath
