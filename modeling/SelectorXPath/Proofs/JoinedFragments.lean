import SelectorXPath.Proofs.Levels

namespace SelectorXPath

namespace PathTree

def followedBy (tree more : PathTree) : PathTree where
  nodeTest := more.nodeTest.or tree.nodeTest
  axis := tree.axis
  predicates := tree.predicates ++ more.predicates
  anchor := tree.anchor
  children := tree.children ++ more.children
  alternatives := tree.alternatives ++ more.alternatives

section Following

variable (tree more : PathTree)

theorem followedBy_empty (anchor : Anchor) : tree.followedBy (empty anchor) = tree := by
  cases tree
  simp [followedBy, empty]

theorem followedBy_extend (compound : List Fragment) :
    (tree.followedBy more).extend compound = tree.followedBy (more.extend compound) := by
  simp [followedBy, extend, Option.or_assoc]

theorem followedBy_addChild (child : PathTree) :
    (tree.followedBy more).addChild child = tree.followedBy (more.addChild child) := by
  simp [followedBy, addChild]

theorem followedBy_addAlternative (other : PathTree) :
    (tree.followedBy more).addAlternative other = tree.followedBy (more.addAlternative other) := by
  simp [followedBy, addAlternative]

end Following

section Refining

variable (next : Text → Anchor → Except SelectorError PathTree) (tree : PathTree)
  {more refined : PathTree} {p : List Fragment}

theorem applyLink_followedBy (h : more.anchor = tree.anchor) (kind : Combinator) (r : Text) :
    applyLink next (tree.followedBy more) kind r =
      (applyLink next more kind r).map tree.followedBy := by
  have hmap {f g : PathTree → PathTree} (hfg : ∀ other, f other = tree.followedBy (g other))
      (x : Except SelectorError PathTree) : x.map f = (x.map g).map tree.followedBy := by
    cases x with
    | error e => rfl
    | ok other => exact congrArg Except.ok (hfg other)
  cases kind with
  | multiple =>
    simp only [applyLink, h]
    exact hmap (followedBy_addAlternative tree more) _
  | child => exact hmap (followedBy_addChild tree more) _
  | descendant => exact hmap (followedBy_addChild tree more) _
  | adjacent => rfl
  | sibling => rfl

theorem refine_followedBy (h : more.anchor = tree.anchor) (fragments : List Fragment) :
    refine next (tree.followedBy more) fragments =
      (refine next more fragments).map tree.followedBy := by
  induction fragments generalizing more with
  | nil => rfl
  | cons fragment rest ih =>
    cases hlink : fragment.isLink with
    | true =>
      cases fragment with
      | link kind r => exact applyLink_followedBy next tree h kind r
      | _ => cases hlink
    | false =>
      rw [refine_cons next _ hlink, refine_cons next _ hlink]
      cases fragment.fault? with
      | some e => rfl
      | none =>
        simp only [followedBy_extend]
        exact ih h

theorem refine_eq_map (fragments : List Fragment) :
    refine next tree fragments =
      (refine next (empty tree.anchor) fragments).map tree.followedBy := by
  have hempty : (empty tree.anchor).anchor = tree.anchor := rfl
  rw [← refine_followedBy next tree hempty, followedBy_empty]

theorem refine_append (hp : ∀ fragment ∈ p, fragment.isLink = false) (q : List Fragment) :
    refine next tree (p ++ q) =
      match refine next tree p with
      | .error e => .error e
      | .ok refined => refine next refined q := by
  induction p generalizing tree with
  | nil => rfl
  | cons fragment p ih =>
    obtain ⟨hfragment, hp⟩ := List.forall_mem_cons.mp hp
    rw [List.cons_append, refine_cons next tree hfragment, refine_cons next tree hfragment]
    cases fragment.fault? with
    | some e => rfl
    | none => exact ih _ hp

theorem refine_append_link (p : List Fragment) (kind : Combinator) (r : Text)
    (rest : List Fragment) :
    refine next tree (p ++ .link kind r :: rest) = refine next tree (p ++ [.link kind r]) := by
  induction p generalizing tree with
  | nil => rfl
  | cons fragment p ih =>
    cases hlink : fragment.isLink with
    | true =>
      cases fragment with
      | link kind' r' => rfl
      | _ => cases hlink
    | false =>
      rw [List.cons_append, List.cons_append, refine_cons next tree hlink,
        refine_cons next tree hlink]
      simp only [ih]

theorem eq_extend_of_refine (hp : ∀ fragment ∈ p, fragment.isLink = false)
    (h : refine next tree p = .ok refined) : refined = tree.extend p := by
  rw [refine_eq, compoundOf_eq_self hp, linkOf_eq_none hp] at h
  split at h
  · cases h
  · exact (Except.ok.inj h).symm

end Refining

end PathTree

open PathTree

theorem ofFragments_append (p q : List Fragment) (anchor : Anchor) :
    ((∀ fragment ∈ p, fragment.isLink = false) →
      ofFragments (p ++ q) anchor =
        match ofFragments p anchor, ofFragments q anchor with
        | .error e, _ => .error e
        | .ok _, .error e => .error e
        | .ok a, .ok b => .ok
          { nodeTest := b.nodeTest.or a.nodeTest
            axis := none
            predicates := a.predicates ++ b.predicates
            anchor := anchor
            children := a.children ++ b.children
            alternatives := b.alternatives }) ∧
    ∀ kind r, ofFragments (p ++ [.link kind r] ++ q) anchor =
      ofFragments (p ++ [.link kind r]) anchor := by
  refine ⟨fun hp => ?_, fun kind r => ?_⟩
  · rw [ofFragments, ofFragments, ofFragments, refine_append _ _ hp]
    cases hfront : refine (ofSelectorWithin maxLinks) (empty anchor) p with
    | error e => rfl
    | ok a =>
      obtain rfl := eq_extend_of_refine _ _ hp hfront
      have hrest : refine (ofSelectorWithin maxLinks) ((empty anchor).extend p) q =
          (refine (ofSelectorWithin maxLinks) (empty anchor) q).map
            ((empty anchor).extend p).followedBy := refine_eq_map _ _ q
      simp only [hrest]
      -- A compound leaves the axis, the anchor and the alternatives of its node as they were.
      cases refine (ofSelectorWithin maxLinks) (empty anchor) q with
      | error e => rfl
      | ok b => rfl
  · rw [List.append_assoc, List.singleton_append]
    exact refine_append_link _ _ p kind r q

theorem ofFragments_append_union :
    ∃ a b,
      ofFragments [.element "a".toList, .filter "parent".toList none, .id "x".toList] .anywhere =
        .ok a ∧
      ofFragments [.className "c".toList, .filter "parent".toList none,
        .link .multiple "d > e".toList] .anywhere = .ok b ∧
      a.children ++ b.children = [parentStep, parentStep] ∧
      a.predicates ++ b.predicates = [.equals "id".toList "x".toList, .hasClass "c".toList] ∧
      b.alternatives.length = 1 ∧
      ofFragments [.element "a".toList, .filter "parent".toList none, .id "x".toList,
        .className "c".toList, .filter "parent".toList none, .link .multiple "d > e".toList]
          .anywhere = .ok
        { nodeTest := some "a".toList
          axis := none
          predicates := a.predicates ++ b.predicates
          anchor := .anywhere
          children := a.children ++ b.children
          alternatives := b.alternatives } := by
  have hfirst : readLevel "d > e".toList =
      .ok ⟨[.element "d".toList], some (.child, "e".toList)⟩ := by
    decide +kernel
  have hsecond : readLevel "e".toList = .ok ⟨[.element "e".toList], none⟩ := by decide +kernel
  have hother : Builds maxLinks "d > e".toList .anywhere _ :=
    .step hfirst rfl rfl (.compound hsecond rfl)
  have hfront : ofFragments [.element "a".toList, .filter "parent".toList none, .id "x".toList]
      .anywhere = .ok _ := rfl
  have hrest : ofFragments [.className "c".toList, .filter "parent".toList none,
      .link .multiple "d > e".toList] .anywhere = .ok _ :=
    congrArg (Except.map _) hother.ofSelectorWithin_eq
  have hjoined := (ofFragments_append
    [.element "a".toList, .filter "parent".toList none, .id "x".toList]
    [.className "c".toList, .filter "parent".toList none, .link .multiple "d > e".toList]
    .anywhere).1 (by decide)
  rw [hfront, hrest] at hjoined
  exact ⟨_, _, hfront, hrest, rfl, rfl, rfl, hjoined⟩

end SelectorXPath
