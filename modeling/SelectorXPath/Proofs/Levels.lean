import SelectorXPath.Proofs.ScanSoundness
import SelectorXPath.XPath.OfSelector

namespace SelectorXPath

namespace Fragment

def link? : Fragment → Option (Combinator × Text)
  | .link kind remainder => some (kind, remainder)
  | _ => none

def fault? : Fragment → Option SelectorError
  | .attr name (some operator) _ =>
    if operator = "=".toList ∨ operator = "!=".toList then none
    else some (.unsupportedOperator name operator)
  | .filter name argument =>
    if name = "contains".toList then
      if argument.isSome then none else some (.filterArgument name .missing)
    else if name = "parent".toList then
      if argument.isSome then some (.filterArgument name .unexpected) else none
    else some (.unsupportedFilter name)
  | .link .adjacent _ => some (.unsupportedCombinator .adjacent)
  | .link .sibling _ => some (.unsupportedCombinator .sibling)
  | _ => none

def nodeTest? : Fragment → Option Text
  | .element name => some name
  | _ => none

def predicate? : Fragment → Option Predicate
  | .id value => some (.equals "id".toList value)
  | .className value => some (.hasClass value)
  | .attr name none _ => some (.has name)
  | .attr name (some operator) value =>
    if operator = "=".toList then some (.equals name (value.getD []))
    else some (.differs name (value.getD []))
  | .filter _ (some text) => some (.textContains (replaceAngle text))
  | _ => none

def isParent : Fragment → Bool
  | .filter _ none => true
  | _ => false

theorem isLink_eq_false_iff (fragment : Fragment) :
    fragment.isLink = false ↔ fragment.link? = none := by
  cases fragment <;> simp [isLink, link?]

end Fragment

def compoundOf (fragments : List Fragment) : List Fragment :=
  fragments.takeWhile fun fragment => !fragment.isLink

def linkOf (fragments : List Fragment) : Option (Combinator × Text) :=
  fragments.findSome? Fragment.link?

theorem compoundOf_eq_self {compound : List Fragment}
    (h : ∀ fragment ∈ compound, fragment.isLink = false) : compoundOf compound = compound := by
  rw [compoundOf, List.takeWhile_eq_self_iff]
  intro fragment hf
  simp [h fragment hf]

theorem linkOf_eq_none {compound : List Fragment}
    (h : ∀ fragment ∈ compound, fragment.isLink = false) : linkOf compound = none := by
  rw [linkOf, List.findSome?_eq_none_iff]
  intro fragment hf
  exact fragment.isLink_eq_false_iff.mp (h fragment hf)

def Combinator.stepAnchor? : Combinator → Option Anchor
  | .child => some .root
  | .descendant => some .anywhere
  | _ => none

namespace PathTree

def extend (tree : PathTree) (compound : List Fragment) : PathTree where
  nodeTest := (compound.filterMap Fragment.nodeTest?).getLast?.or tree.nodeTest
  axis := tree.axis
  predicates := tree.predicates ++ compound.filterMap Fragment.predicate?
  anchor := tree.anchor
  children := tree.children ++ (compound.filter Fragment.isParent).map fun _ => parentStep
  alternatives := tree.alternatives

theorem extend_nil (tree : PathTree) : tree.extend [] = tree := by
  cases tree
  simp [extend]

theorem extend_append (tree : PathTree) (xs ys : List Fragment) :
    tree.extend (xs ++ ys) = (tree.extend xs).extend ys := by
  simp [extend, List.getLast?_append, Option.or_assoc]

section Refining

variable (next : Text → Anchor → Except SelectorError PathTree) (tree : PathTree)

theorem extend_singleton (fragment : Fragment) :
    tree.extend [fragment] =
      { tree with
        nodeTest := fragment.nodeTest?.or tree.nodeTest
        predicates := tree.predicates ++ fragment.predicate?.toList
        children := tree.children ++ if fragment.isParent then [parentStep] else [] } := by
  cases hn : fragment.nodeTest? <;> cases hp : fragment.predicate? <;>
    cases hc : fragment.isParent <;>
      simp_all [extend]

theorem refine_attr (name : Text) (operator value : Option Text) (more : List Fragment) :
    refine next tree (.attr name operator value :: more) =
      match (Fragment.attr name operator value).fault? with
      | some e => .error e
      | none => refine next (tree.extend [.attr name operator value]) more := by
  rw [extend_singleton]
  cases operator with
  | none =>
    simp [refine, attributeTest, addPredicate, Fragment.fault?, Fragment.nodeTest?,
      Fragment.predicate?, Fragment.isParent]
  | some operator =>
    simp only [refine, attributeTest, Fragment.fault?, Fragment.nodeTest?, Fragment.predicate?,
      Fragment.isParent]
    by_cases heq : operator = "=".toList
    · simp [heq, addPredicate]
    · by_cases hne : operator = "!=".toList
      · simp [hne, addPredicate]
      · simp only [heq, hne, or_self, if_false]

theorem refine_filter (name : Text) (argument : Option Text) (more : List Fragment) :
    refine next tree (.filter name argument :: more) =
      match (Fragment.filter name argument).fault? with
      | some e => .error e
      | none => refine next (tree.extend [.filter name argument]) more := by
  rw [extend_singleton]
  simp only [refine, applyFilter, Fragment.fault?]
  by_cases hcontains : name = "contains".toList
  · cases argument with
    | none => simp [hcontains]
    | some text =>
      simp [hcontains, addPredicate, Fragment.nodeTest?, Fragment.predicate?, Fragment.isParent]
  · by_cases hparent : name = "parent".toList
    · cases argument with
      | none =>
        simp [hparent, addChild, Fragment.nodeTest?, Fragment.predicate?, Fragment.isParent]
      | some text => simp [hparent]
    · simp only [if_neg hcontains, if_neg hparent]

theorem refine_cons {fragment : Fragment} (h : fragment.isLink = false) (more : List Fragment) :
    refine next tree (fragment :: more) =
      match fragment.fault? with
      | some e => .error e
      | none => refine next (tree.extend [fragment]) more := by
  cases fragment with
  | element name =>
    simp [refine, setNodeTest, extend_singleton, Fragment.fault?, Fragment.nodeTest?,
      Fragment.predicate?, Fragment.isParent]
  | id value =>
    simp [refine, addPredicate, extend_singleton, Fragment.fault?, Fragment.nodeTest?,
      Fragment.predicate?, Fragment.isParent]
  | className value =>
    simp [refine, addPredicate, extend_singleton, Fragment.fault?, Fragment.nodeTest?,
      Fragment.predicate?, Fragment.isParent]
  | attr name operator value => exact refine_attr next tree name operator value more
  | filter name argument => exact refine_filter next tree name argument more
  | link kind remainder => cases h

theorem refine_eq (fragments : List Fragment) :
    refine next tree fragments =
      match (compoundOf fragments).findSome? Fragment.fault? with
      | some e => .error e
      | none =>
        match linkOf fragments with
        | none => .ok (tree.extend (compoundOf fragments))
        | some (kind, r) => applyLink next (tree.extend (compoundOf fragments)) kind r := by
  induction fragments generalizing tree with
  | nil => simp [compoundOf, linkOf, refine, extend_nil]
  | cons fragment more ih =>
    cases hlink : fragment.isLink with
    | true =>
      cases fragment with
      | link kind r =>
        simp [compoundOf, linkOf, refine, extend_nil, Fragment.isLink, Fragment.link?,
          List.findSome?_cons]
      | _ => cases hlink
    | false =>
      have hcompound : compoundOf (fragment :: more) = fragment :: compoundOf more := by
        simp [compoundOf, hlink]
      have hof : linkOf (fragment :: more) = linkOf more := by
        simp [linkOf, fragment.isLink_eq_false_iff.mp hlink]
      rw [refine_cons next tree hlink, hcompound, hof, List.findSome?_cons]
      cases fragment.fault? with
      | some e => rfl
      | none =>
        simp only [ih]
        rw [← extend_append, List.singleton_append]

theorem applyLink_eq (kind : Combinator) (r : Text) :
    applyLink next tree kind r =
      match (Fragment.link kind r).fault? with
      | some e => .error e
      | none =>
        match kind.stepAnchor? with
        | some anchor => (next r anchor).map tree.addChild
        | none => (next r tree.anchor).map tree.addAlternative := by
  cases kind <;> rfl

end Refining

end PathTree

section Reading

variable {s : Text} {fragments : List Fragment} {bare : Text → Prop}

theorem Layout.compoundOf_fragments (layout : Layout bare) :
    compoundOf layout.fragments = layout.pieces.map Piece.fragment := by
  have hpieces : ∀ f ∈ layout.pieces.map Piece.fragment, (!f.isLink) = true := by
    intro f hf
    obtain ⟨x, -, rfl⟩ := List.mem_map.mp hf
    simp [x.spells.isLink_eq_false]
  rw [compoundOf, fragments, fragmentsOf, List.takeWhile_append_of_pos hpieces]
  cases layout.tail <;> simp [Tail.fragment, Fragment.isLink]

theorem Layout.linkOf_fragments (layout : Layout bare) :
    linkOf layout.fragments = layout.tail.map fun tail => (tail.kind, tail.remainder) := by
  have hpieces : (layout.pieces.map Piece.fragment).findSome? Fragment.link? = none := by
    rw [List.findSome?_eq_none_iff]
    intro f hf
    obtain ⟨x, -, rfl⟩ := List.mem_map.mp hf
    exact (Fragment.isLink_eq_false_iff _).mp x.spells.isLink_eq_false
  rw [linkOf, fragments, fragmentsOf, List.findSome?_append, hpieces]
  cases layout.tail <;> simp [Tail.fragment, Fragment.link?, List.findSome?_cons]

theorem fragments_eq_of_parseSelector (h : parseSelector s = .ok fragments) :
    fragments = compoundOf fragments ++
      (linkOf fragments).toList.map fun link => .link link.1 link.2 := by
  obtain ⟨layout, rfl, -⟩ := exists_layout_of_parseSelector h
  rw [layout.compoundOf_fragments, layout.linkOf_fragments, Layout.fragments, fragmentsOf]
  cases layout.tail <;> rfl

theorem isLink_of_mem_compoundOf {fragment : Fragment} (h : fragment ∈ compoundOf fragments) :
    fragment.isLink = false := by
  simpa using List.mem_takeWhile_imp h

theorem compoundOf_and_linkOf_of_parseSelector {kind : Combinator} {r : Text}
    (h : parseSelector s = .ok (fragments ++ [.link kind r])) :
    compoundOf (fragments ++ [.link kind r]) = fragments ∧
      linkOf (fragments ++ [.link kind r]) = some (kind, r) := by
  have hcut := fragments_eq_of_parseSelector h
  cases hlink : linkOf (fragments ++ [.link kind r]) with
  | none =>
    rw [hlink, Option.toList_none, List.map_nil, List.append_nil] at hcut
    have hmem : Fragment.link kind r ∈ compoundOf (fragments ++ [.link kind r]) := by
      rw [← hcut]
      simp
    exact absurd (isLink_of_mem_compoundOf hmem) (by simp [Fragment.isLink])
  | some link =>
    rw [hlink] at hcut
    obtain ⟨hcompound, htail⟩ := List.append_inj' hcut rfl
    simp only [Option.toList_some, List.map_cons, List.map_nil, List.cons.injEq, and_true,
      Fragment.link.injEq] at htail
    exact ⟨hcompound.symm, by rw [htail.1, htail.2]⟩

theorem isLink_of_parseSelector_link {kind : Combinator} {r : Text}
    (h : parseSelector s = .ok (fragments ++ [.link kind r])) :
    ∀ fragment ∈ fragments, fragment.isLink = false := by
  intro fragment hf
  rw [← (compoundOf_and_linkOf_of_parseSelector h).1] at hf
  exact isLink_of_mem_compoundOf hf

theorem remainder_of_parseSelector {kind : Combinator} {r : Text}
    (h : parseSelector s = .ok fragments) (hlink : linkOf fragments = some (kind, r)) :
    r ≠ [] ∧ trim r = r ∧ r.length < (trim s).length := by
  obtain ⟨layout, rfl, htext⟩ := exists_layout_of_parseSelector h
  rw [layout.linkOf_fragments] at hlink
  obtain ⟨tail, hsome, heq⟩ := Option.map_eq_some_iff.mp hlink
  cases heq
  refine ⟨tail.nonempty, tail.trimmed, ?_⟩
  obtain ⟨a, ha, hspan⟩ := tail.spells.exists_append
  have hpos := List.length_pos_iff.mpr ha
  rw [← htext, Layout.text, textOf, hsome, Option.elim_some, hspan, List.length_append,
    List.length_append]
  omega

theorem remainder_suffix_of_parseSelector {kind : Combinator} {r : Text}
    (h : parseSelector s = .ok fragments) (hlink : linkOf fragments = some (kind, r)) :
    r <:+ trim s := by
  obtain ⟨layout, rfl, htext⟩ := exists_layout_of_parseSelector h
  rw [layout.linkOf_fragments] at hlink
  obtain ⟨tail, hsome, heq⟩ := Option.map_eq_some_iff.mp hlink
  cases heq
  obtain ⟨a, -, hspan⟩ := tail.spells.exists_append
  rw [← htext, Layout.text, textOf, hsome, Option.elim_some, hspan, ← List.append_assoc]
  exact List.suffix_append _ _

end Reading

structure Level where
  compound : List Fragment
  link : Option (Combinator × Text)
deriving DecidableEq, Repr

def readLevel (s : Text) : Except SelectorError Level :=
  match parseSelector s with
  | .error e => .error e
  | .ok fragments =>
    match fragments.findSome? Fragment.fault? with
    | some e => .error e
    | none => .ok ⟨compoundOf fragments, linkOf fragments⟩

namespace PathTree

def node (anchor : Anchor) (level : Level) : PathTree := (empty anchor).extend level.compound

theorem node_anchor (anchor : Anchor) (level : Level) : (node anchor level).anchor = anchor := rfl

theorem ofSelectorWithin_succ (levels : Nat) (s : Text) (anchor : Anchor) :
    ofSelectorWithin (levels + 1) s anchor =
      match readLevel s with
      | .error e => .error e
      | .ok level =>
        match level.link with
        | none => .ok (node anchor level)
        | some (kind, r) => applyLink (ofSelectorWithin levels) (node anchor level) kind r := by
  rw [ofSelectorWithin, readLevel]
  cases hparse : parseSelector s with
  | error e => rfl
  | ok fragments =>
    have hfault := congrArg (List.findSome? Fragment.fault?) (fragments_eq_of_parseSelector hparse)
    rw [List.findSome?_append] at hfault
    simp only [refine_eq, hfault]
    cases (compoundOf fragments).findSome? Fragment.fault? with
    | some e => rfl
    | none =>
      cases linkOf fragments with
      | none => rfl
      | some link =>
        obtain ⟨kind, r⟩ := link
        cases kind <;> rfl

end PathTree

inductive Builds : Nat → Text → Anchor → PathTree → Prop
  | compound {levels s anchor level} : readLevel s = .ok level → level.link = none →
      Builds (levels + 1) s anchor (.node anchor level)
  | union {levels s anchor level r other} : readLevel s = .ok level →
      level.link = some (.multiple, r) → Builds levels r anchor other →
      Builds (levels + 1) s anchor ((PathTree.node anchor level).addAlternative other)
  | step {levels s anchor level kind r next child} : readLevel s = .ok level →
      level.link = some (kind, r) → kind.stepAnchor? = some next → Builds levels r next child →
      Builds (levels + 1) s anchor ((PathTree.node anchor level).addChild child)

inductive Fails : Nat → Text → SelectorError → Prop
  | deep {s} : Fails 0 s .tooDeep
  | level {levels s e} : readLevel s = .error e → Fails (levels + 1) s e
  | link {levels s level kind r e} : readLevel s = .ok level → level.link = some (kind, r) →
      Fails levels r e → Fails (levels + 1) s e

section Judgements

open PathTree

variable {levels : Nat} {s r : Text} {anchor : Anchor} {tree : PathTree} {e : SelectorError}
  {level : Level} {kind : Combinator}

theorem readLevel_ok_iff :
    readLevel s = .ok level ↔ ∃ fragments, parseSelector s = .ok fragments ∧
      fragments.findSome? Fragment.fault? = none ∧
      level = ⟨compoundOf fragments, linkOf fragments⟩ := by
  constructor
  · intro h
    rw [readLevel] at h
    split at h
    · cases h
    · next fragments hparse =>
      split at h
      · cases h
      · next hfault =>
        cases h
        exact ⟨fragments, hparse, hfault, rfl⟩
  · rintro ⟨fragments, hparse, hfault, rfl⟩
    simp only [readLevel, hparse, hfault]

theorem parseSelector_of_readLevel (h : readLevel s = .ok level) :
    parseSelector s =
      .ok (level.compound ++ level.link.toList.map fun link => .link link.1 link.2) := by
  obtain ⟨fragments, hparse, -, rfl⟩ := readLevel_ok_iff.mp h
  rw [hparse, ← fragments_eq_of_parseSelector hparse]

theorem link_fault_eq_none (h : readLevel s = .ok level) (hlink : level.link = some (kind, r)) :
    (Fragment.link kind r).fault? = none := by
  obtain ⟨fragments, hparse, hfault, rfl⟩ := readLevel_ok_iff.mp h
  rw [List.findSome?_eq_none_iff] at hfault
  apply hfault
  rw [fragments_eq_of_parseSelector hparse]
  simp [show linkOf fragments = some (kind, r) from hlink]

theorem readLevel_of_link {compound : List Fragment}
    (h : parseSelector s = .ok (compound ++ [.link kind r])) :
    readLevel s =
      match (compound.findSome? Fragment.fault?).or (Fragment.link kind r).fault? with
      | some e => .error e
      | none => .ok ⟨compound, some (kind, r)⟩ := by
  obtain ⟨hcompound, hlink⟩ := compoundOf_and_linkOf_of_parseSelector h
  have hfault : (compound ++ [Fragment.link kind r]).findSome? Fragment.fault? =
      (compound.findSome? Fragment.fault?).or (Fragment.link kind r).fault? := by
    rw [List.findSome?_append, List.findSome?_singleton]
  simp only [readLevel, h, hfault, hcompound, hlink]

theorem link_fault_eq (kind : Combinator) (r r' : Text) :
    (Fragment.link kind r).fault? = (Fragment.link kind r').fault? := by
  cases kind <;> rfl

theorem readLevel_of_no_link {compound : List Fragment} (h : parseSelector s = .ok compound)
    (hlink : ∀ f ∈ compound, f.isLink = false) :
    readLevel s =
      match compound.findSome? Fragment.fault? with
      | some e => .error e
      | none => .ok ⟨compound, none⟩ := by
  simp only [readLevel, h, compoundOf_eq_self hlink, linkOf_eq_none hlink]

theorem exists_layout_of_readLevel (h : readLevel s = .ok level) :
    ∃ layout : Layout BareValue, layout.text = trim s ∧
      level.compound = layout.pieces.map Piece.fragment ∧
      level.link = layout.tail.map (fun tail => (tail.kind, tail.remainder)) ∧
      ∀ fragment ∈ layout.fragments, fragment.fault? = none := by
  obtain ⟨fragments, hparse, hfault, rfl⟩ := readLevel_ok_iff.mp h
  obtain ⟨layout, rfl, htext⟩ := exists_layout_of_parseSelector hparse
  exact ⟨layout, htext, layout.compoundOf_fragments, layout.linkOf_fragments,
    List.findSome?_eq_none_iff.mp hfault⟩

theorem spells_and_fault_of_mem_compound (h : readLevel s = .ok level) {fragment : Fragment}
    (hf : fragment ∈ level.compound) :
    (∃ span, Spells BareValue fragment span) ∧ fragment.fault? = none := by
  obtain ⟨layout, -, hcompound, -, hfault⟩ := exists_layout_of_readLevel h
  rw [hcompound] at hf
  refine ⟨?_, hfault fragment (List.mem_append_left _ hf)⟩
  obtain ⟨piece, -, rfl⟩ := List.mem_map.mp hf
  exact ⟨piece.span, piece.spells⟩

theorem blanks_of_trim_eq_nil (h : trim s = []) : Blanks s := by
  obtain ⟨a, b, ha, hb, heq⟩ := eq_append_trim s
  rw [heq, h, List.append_nil]
  exact ha.append hb

theorem trim_eq_nil_of_compound_eq_nil (h : readLevel s = .ok level) (hnil : level.compound = []) :
    trim s = [] ∧ level.link = none := by
  obtain ⟨layout, htext, hcompound, hlink, -⟩ := exists_layout_of_readLevel h
  have hpieces : layout.pieces = [] := by simpa [hnil] using hcompound.symm
  have htail : layout.tail = none := by
    cases ht : layout.tail with
    | none => rfl
    | some tail => exact absurd hpieces (layout.started (by simp [ht]))
  exact ⟨by simp [← htext, Layout.text, textOf, hpieces, htail], by simp [hlink, htail]⟩

theorem remainder_of_readLevel (h : readLevel s = .ok level)
    (hlink : level.link = some (kind, r)) :
    r ≠ [] ∧ trim r = r ∧ r.length < (trim s).length := by
  obtain ⟨fragments, hparse, -, rfl⟩ := readLevel_ok_iff.mp h
  exact remainder_of_parseSelector hparse hlink

@[elab_as_elim]
theorem Builds.level_induction {motive : Text → Prop} (h : Builds levels s anchor tree)
    (last : ∀ s level, readLevel s = .ok level → level.link = none → motive s)
    (link : ∀ s level kind r, readLevel s = .ok level → level.link = some (kind, r) →
      motive r → motive s) :
    motive s := by
  induction h with
  | compound hread hlink => exact last _ _ hread hlink
  | union hread hlink _ ih => exact link _ _ _ _ hread hlink ih
  | step hread hlink _ _ ih => exact link _ _ _ _ hread hlink ih

theorem Builds.ofSelectorWithin_eq (h : Builds levels s anchor tree) :
    ofSelectorWithin levels s anchor = .ok tree := by
  induction h with
  | compound hread hlink => simp [ofSelectorWithin_succ, hread, hlink]
  | union hread hlink _ ih =>
    simp only [ofSelectorWithin_succ, hread, hlink, applyLink, node_anchor, ih]
    rfl
  | @step _ _ _ _ kind _ _ _ hread hlink hnext _ ih =>
    simp only [ofSelectorWithin_succ, hread, hlink, applyLink_eq, link_fault_eq_none hread hlink,
      hnext, ih]
    rfl

theorem Fails.ofSelectorWithin_eq (h : Fails levels s e) (anchor : Anchor) :
    ofSelectorWithin levels s anchor = .error e := by
  induction h generalizing anchor with
  | deep => rfl
  | level hread => simp [ofSelectorWithin_succ, hread]
  | @link _ _ _ kind _ _ hread hlink _ ih =>
    have hfault := link_fault_eq_none hread hlink
    simp only [ofSelectorWithin_succ, hread, hlink, applyLink_eq, hfault, ih]
    cases kind.stepAnchor? <;> rfl

theorem builds_or_fails (levels : Nat) (s : Text) (anchor : Anchor) :
    (∃ tree, Builds levels s anchor tree) ∨ ∃ e, Fails levels s e := by
  induction levels generalizing s anchor with
  | zero => exact .inr ⟨_, .deep⟩
  | succ levels ih =>
    cases hread : readLevel s with
    | error e => exact .inr ⟨e, .level hread⟩
    | ok level =>
      cases hlink : level.link with
      | none => exact .inl ⟨_, .compound hread hlink⟩
      | some link =>
        obtain ⟨kind, r⟩ := link
        have hfault := link_fault_eq_none hread hlink
        have hstep {next : Anchor} (hnext : kind.stepAnchor? = some next) :
            (∃ tree, Builds (levels + 1) s anchor tree) ∨ ∃ e, Fails (levels + 1) s e := by
          rcases ih r next with ⟨child, hchild⟩ | ⟨e, he⟩
          · exact .inl ⟨_, .step hread hlink hnext hchild⟩
          · exact .inr ⟨e, .link hread hlink he⟩
        cases kind with
        | multiple =>
          rcases ih r anchor with ⟨other, hother⟩ | ⟨e, he⟩
          · exact .inl ⟨_, .union hread hlink hother⟩
          · exact .inr ⟨e, .link hread hlink he⟩
        | child => exact hstep rfl
        | descendant => exact hstep rfl
        | adjacent => cases hfault
        | sibling => cases hfault

theorem ofSelectorWithin_eq_ok_iff :
    ofSelectorWithin levels s anchor = .ok tree ↔ Builds levels s anchor tree := by
  constructor
  · intro h
    rcases builds_or_fails levels s anchor with ⟨other, hother⟩ | ⟨e, he⟩
    · rw [hother.ofSelectorWithin_eq] at h
      cases h
      exact hother
    · rw [he.ofSelectorWithin_eq] at h
      cases h
  · exact Builds.ofSelectorWithin_eq

theorem ofSelectorWithin_eq_error_iff :
    ofSelectorWithin levels s anchor = .error e ↔ Fails levels s e := by
  constructor
  · intro h
    rcases builds_or_fails levels s anchor with ⟨other, hother⟩ | ⟨e, he⟩
    · rw [hother.ofSelectorWithin_eq] at h
      cases h
    · rw [he.ofSelectorWithin_eq] at h
      cases h
      exact he
  · exact fun h => h.ofSelectorWithin_eq anchor

theorem Builds.mono {more : Nat} (h : Builds levels s anchor tree) (hle : levels ≤ more) :
    Builds more s anchor tree := by
  induction h generalizing more with
  | compound hread hlink =>
    obtain ⟨more, rfl⟩ := Nat.exists_eq_add_of_lt hle
    exact .compound hread hlink
  | union hread hlink _ ih =>
    obtain ⟨extra, rfl⟩ := Nat.exists_eq_add_of_lt hle
    exact .union hread hlink (ih (by omega))
  | step hread hlink hnext _ ih =>
    obtain ⟨extra, rfl⟩ := Nat.exists_eq_add_of_lt hle
    exact .step hread hlink hnext (ih (by omega))

theorem Fails.mono {more : Nat} (h : Fails levels s e) (hdeep : e ≠ .tooDeep)
    (hle : levels ≤ more) : Fails more s e := by
  induction h generalizing more with
  | deep => exact absurd rfl hdeep
  | level hread =>
    obtain ⟨more, rfl⟩ := Nat.exists_eq_add_of_lt hle
    exact .level hread
  | link hread hlink _ ih =>
    obtain ⟨extra, rfl⟩ := Nat.exists_eq_add_of_lt hle
    exact .link hread hlink (ih hdeep (by omega))

theorem ofSelectorWithin_of_le {more : Nat}
    (h : ofSelectorWithin levels s anchor ≠ .error .tooDeep) (hle : levels ≤ more) :
    ofSelectorWithin more s anchor = ofSelectorWithin levels s anchor := by
  rcases builds_or_fails levels s anchor with ⟨tree, hbuilds⟩ | ⟨e, hfails⟩
  · rw [hbuilds.ofSelectorWithin_eq, (hbuilds.mono hle).ofSelectorWithin_eq]
  · rw [hfails.ofSelectorWithin_eq] at h
    have hdeep : e ≠ .tooDeep := fun heq => h (congrArg Except.error heq)
    rw [hfails.ofSelectorWithin_eq, (hfails.mono hdeep hle).ofSelectorWithin_eq]

end Judgements

end SelectorXPath
