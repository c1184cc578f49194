import SelectorXPath.Proofs.Levels

namespace SelectorXPath

namespace PathTree

structure AlikeButOrder (a b : PathTree) : Prop where
  nodeTest : a.nodeTest = b.nodeTest
  axis : a.axis = b.axis
  anchor : a.anchor = b.anchor
  children : a.children = b.children
  alternatives : a.alternatives = b.alternatives
  predicates : a.predicates.Perm b.predicates

inductive EndAlike : Except SelectorError PathTree → Except SelectorError PathTree → Prop
  | fail (e e' : SelectorError) : EndAlike (.error e) (.error e')
  | build {a b : PathTree} : a.AlikeButOrder b → EndAlike (.ok a) (.ok b)

section Trees

variable {a b : PathTree}

theorem AlikeButOrder.addChild (h : a.AlikeButOrder b) (child : PathTree) :
    (a.addChild child).AlikeButOrder (b.addChild child) :=
  ⟨h.nodeTest, h.axis, h.anchor, congrArg (· ++ [child]) h.children, h.alternatives, h.predicates⟩

theorem AlikeButOrder.addAlternative (h : a.AlikeButOrder b) (other : PathTree) :
    (a.addAlternative other).AlikeButOrder (b.addAlternative other) :=
  ⟨h.nodeTest, h.axis, h.anchor, h.children, congrArg (· ++ [other]) h.alternatives, h.predicates⟩

theorem EndAlike.map {x : Except SelectorError PathTree} {f g : PathTree → PathTree}
    (h : ∀ tree, (f tree).AlikeButOrder (g tree)) : EndAlike (x.map f) (x.map g) := by
  cases x with
  | error e => exact .fail e e
  | ok tree => exact .build (h tree)

theorem AlikeButOrder.applyLink (h : a.AlikeButOrder b)
    (next : Text → Anchor → Except SelectorError PathTree) (kind : Combinator) (r : Text) :
    EndAlike (applyLink next a kind r) (applyLink next b kind r) := by
  rw [applyLink_eq, applyLink_eq, h.anchor]
  split
  · exact .fail _ _
  · split
    · exact .map h.addChild
    · exact .map h.addAlternative

end Trees

section Fragments

variable {p q : List Fragment}

theorem extend_perm (hperm : p.Perm q)
    (hnames : p.filterMap Fragment.nodeTest? = q.filterMap Fragment.nodeTest?) (tree : PathTree) :
    (tree.extend p).AlikeButOrder (tree.extend q) where
  nodeTest := by simp only [extend, hnames]
  axis := rfl
  anchor := rfl
  children := by
    simp only [extend, List.map_const', (hperm.filter Fragment.isParent).length_eq]
  alternatives := rfl
  predicates := (hperm.filterMap Fragment.predicate?).append_left tree.predicates

theorem findSome?_fault?_eq_none_of_perm (hperm : p.Perm q)
    (h : p.findSome? Fragment.fault? = none) : q.findSome? Fragment.fault? = none := by
  rw [List.findSome?_eq_none_iff] at h ⊢
  exact fun fragment hf => h fragment (hperm.mem_iff.mpr hf)

theorem compoundOf_append_link (h : ∀ fragment ∈ p, fragment.isLink = false)
    (link : Option (Combinator × Text)) :
    compoundOf (p ++ link.toList.map fun link => .link link.1 link.2) = p ∧
      linkOf (p ++ link.toList.map fun link => .link link.1 link.2) = link := by
  have hparts : ∀ fragment ∈ p, (!fragment.isLink) = true := fun fragment hf => by
    rw [h fragment hf]
    rfl
  have hnone : p.findSome? Fragment.link? = none := linkOf_eq_none h
  rw [compoundOf, linkOf, List.takeWhile_append_of_pos hparts, List.findSome?_append, hnone]
  cases link with
  | none => simp
  | some link => simp [Fragment.isLink, Fragment.link?]

theorem refine_perm (next : Text → Anchor → Except SelectorError PathTree) (tree : PathTree)
    (hp : ∀ fragment ∈ p, fragment.isLink = false) (hperm : p.Perm q)
    (hnames : p.filterMap Fragment.nodeTest? = q.filterMap Fragment.nodeTest?)
    (link : Option (Combinator × Text)) :
    EndAlike (refine next tree (p ++ link.toList.map fun link => .link link.1 link.2))
      (refine next tree (q ++ link.toList.map fun link => .link link.1 link.2)) := by
  have hq : ∀ fragment ∈ q, fragment.isLink = false :=
    fun fragment hf => hp fragment (hperm.mem_iff.mpr hf)
  obtain ⟨hcompound, hlink⟩ := compoundOf_append_link hp link
  obtain ⟨hcompound', hlink'⟩ := compoundOf_append_link hq link
  have halike := extend_perm hperm hnames tree
  rw [refine_eq, refine_eq, hcompound, hcompound', hlink, hlink']
  cases hfault : p.findSome? Fragment.fault? with
  | some e =>
    cases hfault' : q.findSome? Fragment.fault? with
    | some e' => exact .fail e e'
    | none =>
      rw [findSome?_fault?_eq_none_of_perm hperm.symm hfault'] at hfault
      cases hfault
  | none =>
    rw [findSome?_fault?_eq_none_of_perm hperm hfault]
    cases link with
    | none => exact .build halike
    | some link => exact halike.applyLink next link.1 link.2

end Fragments

theorem EndAlike.ok_iff {x y : Except SelectorError PathTree} (h : EndAlike x y) :
    ((∃ a, x = .ok a) ↔ ∃ b, y = .ok b) ∧ ∀ a b, x = .ok a → y = .ok b → a.AlikeButOrder b := by
  cases h with
  | fail e e' => simp
  | build h => simpa using h

end PathTree

theorem ofFragments_perm {p q : List Fragment} (hp : ∀ fragment ∈ p, fragment.isLink = false)
    (hperm : p.Perm q)
    (hnames : p.filterMap Fragment.nodeTest? = q.filterMap Fragment.nodeTest?)
    (link : Option (Combinator × Text)) (anchor : Anchor) :
    let parts := p ++ link.toList.map fun link => .link link.1 link.2
    let reordered := q ++ link.toList.map fun link => .link link.1 link.2
    ((∃ a, PathTree.ofFragments parts anchor = .ok a) ↔
      ∃ b, PathTree.ofFragments reordered anchor = .ok b) ∧
    ∀ a b, PathTree.ofFragments parts anchor = .ok a →
      PathTree.ofFragments reordered anchor = .ok b →
      a.nodeTest = b.nodeTest ∧ a.axis = b.axis ∧ a.anchor = b.anchor ∧
        a.children = b.children ∧ a.alternatives = b.alternatives ∧
        a.predicates.Perm b.predicates := by
  intro parts reordered
  obtain ⟨hsucceed, halike⟩ := (PathTree.refine_perm (PathTree.ofSelectorWithin maxLinks)
    (PathTree.empty anchor) hp hperm hnames link).ok_iff
  refine ⟨hsucceed, fun a b ha hb => ?_⟩
  obtain ⟨hnode, haxis, hanchor, hchildren, halternatives, hpredicates⟩ := halike a b ha hb
  exact ⟨hnode, haxis, hanchor, hchildren, halternatives, hpredicates⟩

theorem ofFragments_perm_union :
    ∃ a b,
      PathTree.ofFragments [.element "a".toList, .id "x".toList, .filter "parent".toList none,
        .className "c".toList, .element "b".toList, .link .multiple "d > e".toList] .anywhere =
          .ok a ∧
      PathTree.ofFragments [.className "c".toList, .element "a".toList, .id "x".toList,
        .element "b".toList, .filter "parent".toList none, .link .multiple "d > e".toList]
          .anywhere = .ok b ∧
      a.nodeTest = b.nodeTest ∧ a.children = b.children ∧ a.alternatives = b.alternatives ∧
      a.predicates.Perm b.predicates := by
  obtain ⟨hsucceed, halike⟩ := ofFragments_perm
    (p := [.element "a".toList, .id "x".toList, .filter "parent".toList none,
      .className "c".toList, .element "b".toList])
    (q := [.className "c".toList, .element "a".toList, .id "x".toList, .element "b".toList,
      .filter "parent".toList none])
    (by decide) (by decide) (by decide) (some (.multiple, "d > e".toList)) .anywhere
  have hok : (PathTree.ofFragments [.element "a".toList, .id "x".toList,
      .filter "parent".toList none, .className "c".toList, .element "b".toList,
      .link .multiple "d > e".toList] .anywhere).isOk = true := by
    decide +kernel
  cases ha : PathTree.ofFragments [.element "a".toList, .id "x".toList,
      .filter "parent".toList none, .className "c".toList, .element "b".toList,
      .link .multiple "d > e".toList] .anywhere with
  | error e =>
    rw [ha] at hok
    cases hok
  | ok a =>
    obtain ⟨b, hb⟩ := hsucceed.mp ⟨a, ha⟩
    obtain ⟨hnode, -, -, hchildren, halternatives, hpredicates⟩ := halike a b ha hb
    exact ⟨a, b, rfl, hb, hnode, hchildren, halternatives, hpredicates⟩

end SelectorXPath
