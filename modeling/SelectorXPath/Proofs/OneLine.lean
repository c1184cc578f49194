import SelectorXPath.Proofs.UniqueReading
import SelectorXPath.Proofs.Unions
import SelectorXPath.Proofs.UnreadablePlaces

namespace SelectorXPath

open Grammar

def OneLine (t : Text) : Prop := '\n' ∉ t

instance (t : Text) : Decidable (OneLine t) := inferInstanceAs (Decidable ('\n' ∉ t))

section Texts

variable {s t : Text}

@[simp] theorem oneLine_nil : OneLine [] := List.not_mem_nil

@[simp] theorem oneLine_cons_iff {c : Char} : OneLine (c :: t) ↔ c ≠ '\n' ∧ OneLine t := by
  rw [OneLine, OneLine, List.mem_cons, not_or, ne_comm]

@[simp] theorem oneLine_append_iff : OneLine (s ++ t) ↔ OneLine s ∧ OneLine t := by
  rw [OneLine, OneLine, OneLine, List.mem_append, not_or]

theorem OneLine.of_subset (h : OneLine t) (hs : s ⊆ t) : OneLine s := fun hmem => h (hs hmem)

theorem OneLine.flatMap {α : Type} {xs : List α} {f : α → Text} (h : ∀ x ∈ xs, OneLine (f x)) :
    OneLine (xs.flatMap f) := by
  intro hmem
  obtain ⟨x, hx, hnewline⟩ := List.mem_flatMap.mp hmem
  exact h x hx hnewline

theorem OneLine.joinWith {separator : Text} {ts : List Text} (hseparator : OneLine separator)
    (h : ∀ t ∈ ts, OneLine t) : OneLine (joinWith separator ts) := by
  induction ts with
  | nil => exact oneLine_nil
  | cons t more ih =>
    obtain ⟨ht, hmore⟩ := List.forall_mem_cons.mp h
    rw [joinWith_cons, oneLine_append_iff]
    refine ⟨ht, ?_⟩
    split
    · exact oneLine_nil
    · exact oneLine_append_iff.mpr ⟨hseparator, ih hmore⟩

theorem oneLine_decimal (n : Nat) : OneLine (decimal n) := by
  intro hmem
  have hdigit := Nat.isDigit_of_mem_toDigits (by decide) (by decide) hmem
  exact absurd hdigit (by decide)

theorem subset_of_mem_splitOnChar {mark : Char} {piece : Text} (h : piece ∈ splitOnChar mark t) :
    piece ⊆ t := by
  induction t generalizing piece with
  | nil =>
    obtain rfl : piece = [] := by simpa [splitOnChar] using h
    exact List.nil_subset _
  | cons c t ih =>
    rw [splitOnChar] at h
    split at h
    · rcases List.mem_cons.mp h with rfl | hmore
      · exact List.nil_subset _
      · exact List.subset_cons_of_subset c (ih hmore)
    · split at h
      · next first more hsplit =>
        rcases List.mem_cons.mp h with rfl | hmore
        · exact List.cons_subset_cons c (ih (by simp [hsplit]))
        · exact List.subset_cons_of_subset c (ih (by simp [hsplit, hmore]))
      · next hsplit => exact absurd hsplit (splitOnChar_ne_nil mark t)

theorem OneLine.literal (h : OneLine t) : OneLine (literal t) := by
  rcases literal_cases t with ⟨-, heq⟩ | ⟨-, heq⟩ | heq
  · simp [heq, singleQuoted, h]
  · simp [heq, doubleQuoted, h]
  · rw [heq, oneLine_append_iff, oneLine_append_iff]
    refine ⟨⟨by decide, .joinWith (by decide) fun quoted hquoted => ?_⟩, by decide⟩
    obtain ⟨piece, hpiece, rfl⟩ := List.mem_map.mp hquoted
    simp [singleQuoted, h.of_subset (subset_of_mem_splitOnChar hpiece)]

theorem OneLine.replaceAngle (h : OneLine t) : OneLine (replaceAngle t) := by
  refine OneLine.flatMap fun c hc => ?_
  split
  · decide
  · have hne : c ≠ '\n' := ne_of_mem_of_not_mem hc h
    simp [hne]

end Texts

section Fragments

variable {s t span : Text} {bare : Text → Prop} {fragment : Fragment} {fragments : List Fragment}

def Fragment.texts : Fragment → List Text
  | .element name => [name]
  | .id value => [value]
  | .className value => [value]
  | .attr name operator value => name :: (operator.toList ++ value.toList)
  | .filter name argument => name :: argument.toList
  | .link _ remainder => [remainder]

theorem Written.subset {body : Text} (h : Written bare t body) : t ⊆ body := by
  cases h with
  | quoted q =>
    intro c hc
    simp [Quote.around, hc]
  | bare => exact List.Subset.refl t

theorem Spells.texts_subset (h : Spells bare fragment span) (ht : t ∈ fragment.texts) :
    t ⊆ span := by
  intro c hc
  cases h with
  | any =>
    obtain rfl := List.mem_singleton.mp ht
    exact hc
  | element =>
    obtain rfl := List.mem_singleton.mp ht
    exact hc
  | id =>
    obtain rfl := List.mem_singleton.mp ht
    simp [hc]
  | className =>
    obtain rfl := List.mem_singleton.mp ht
    simp [hc]
  | attr =>
    obtain rfl := List.mem_singleton.mp ht
    simp [hc]
  | attrValue _ _ hbody =>
    have hvalue := hbody.subset
    simp only [Fragment.texts, Option.toList_some, List.singleton_append, List.mem_cons,
      List.not_mem_nil, or_false] at ht
    rcases ht with rfl | rfl | rfl
    · simp [hc]
    · simp [hc]
    · simp [hvalue hc]
  | filter =>
    obtain rfl := List.mem_singleton.mp ht
    simp [hc]
  | filterBlank =>
    obtain rfl := List.mem_singleton.mp ht
    simp [hc]
  | filterArgument _ hbody =>
    have hargument := hbody.subset
    simp only [Fragment.texts, Option.toList_some, List.mem_cons, List.not_mem_nil, or_false] at ht
    rcases ht with rfl | rfl
    · simp [hc]
    · simp [hargument hc]

theorem texts_subset_of_parseSelector (h : parseSelector s = .ok fragments)
    (hf : fragment ∈ fragments) (ht : t ∈ fragment.texts) : t ⊆ s := by
  obtain ⟨layout, rfl, htext⟩ := exists_layout_of_parseSelector h
  have hlayout : layout.text ⊆ s := htext ▸ trim_subset s
  rcases List.mem_append.mp hf with hpiece | htail
  · obtain ⟨piece, hmem, rfl⟩ := List.mem_map.mp hpiece
    intro c hc
    apply hlayout
    exact List.mem_append_left _
      (List.mem_flatMap.mpr ⟨piece, hmem, piece.spells.texts_subset ht hc⟩)
  · obtain ⟨tail, hmem, rfl⟩ := List.mem_map.mp htail
    obtain rfl := List.mem_singleton.mp ht
    obtain ⟨front, -, hspan⟩ := tail.spells.exists_append
    rw [Layout.text, textOf, Option.mem_toList.mp hmem, Option.elim_some, hspan] at hlayout
    intro c hc
    apply hlayout
    simp [hc]

theorem suffix_of_scan_unreadable {started : Bool} {rest : Text}
    (h : scan started t = .error (.unreadable rest)) : rest <:+ t := by
  obtain ⟨-, -, front, -, ht, -⟩ := scan_unreadable h
  exact ⟨front, ht.symm⟩

theorem residue_subset (t : Text) : residue t ⊆ t := by
  induction t with
  | nil => exact List.Subset.refl []
  | cons c t ih =>
    rw [residue]
    split
    · exact List.cons_subset_cons c (List.nil_subset t)
    · exact List.cons_subset_cons c ih

end Fragments

section Messages

variable {levels : Nat} {s t : Text} {fragment : Fragment} {e : SelectorError}

def SelectorError.texts : SelectorError → List Text
  | .grammar input _ residue => [input, residue]
  | .unsupportedOperator name operator => [name, operator]
  | .unsupportedFilter name => [name]
  | .filterArgument name _ => [name]
  | _ => []

theorem oneLine_display (kind : Combinator) : OneLine kind.display := by
  cases kind <;> decide

theorem oneLine_fault (fault : ArgumentFault) : OneLine fault.message := by
  cases fault <;> decide +kernel

theorem SelectorError.oneLine_message (h : ∀ t ∈ e.texts, OneLine t) : OneLine e.message := by
  cases e with
  | grammar input position residue =>
    have hinput := h input (by simp [texts])
    have hresidue := h residue (by simp [texts])
    simp [hinput, hresidue, oneLine_decimal]
  | unsupportedOperator name operator =>
    have hname := h name (by simp [texts])
    have hoperator := h operator (by simp [texts])
    simp [hname, hoperator]
  | unsupportedFilter name => simp [h name (by simp [texts])]
  | unsupportedCombinator kind => simp [oneLine_display]
  | danglingCombinator kind => simp [oneLine_display]
  | leadingCombinator kind => simp [oneLine_display]
  | tooDeep => simp [oneLine_decimal]
  | filterArgument name fault => simp [h name (by simp [texts]), oneLine_fault]

theorem error_texts_of_parseSelector (h : parseSelector s = .error e) (ht : t ∈ e.texts) :
    t ⊆ s := by
  unfold parseSelector at h
  split at h
  · cases h
  · cases h
    cases ht
  · cases h
    cases ht
  · next rest hscan =>
    cases h
    simp only [SelectorError.texts, List.mem_cons, List.not_mem_nil, or_false] at ht
    rcases ht with rfl | rfl
    · exact List.Subset.refl t
    · calc residue rest ⊆ rest := residue_subset rest
        _ ⊆ trim s := (suffix_of_scan_unreadable hscan).subset
        _ ⊆ s := trim_subset s

theorem texts_of_fault (h : fragment.fault? = some e) : e.texts ⊆ fragment.texts := by
  unfold Fragment.fault? at h
  split at h
  · split at h
    · cases h
    · cases h
      simp [SelectorError.texts, Fragment.texts]
  · repeat' split at h
    all_goals cases h
    all_goals simp [SelectorError.texts, Fragment.texts]
  · cases h
    exact List.nil_subset _
  · cases h
    exact List.nil_subset _
  · cases h

theorem error_texts_of_readLevel (h : readLevel s = .error e) (ht : t ∈ e.texts) : t ⊆ s := by
  rw [readLevel] at h
  split at h
  · next hparse =>
    cases h
    exact error_texts_of_parseSelector hparse ht
  · next fragments hparse =>
    split at h
    · next hfault =>
      cases h
      obtain ⟨fragment, hf, hfragment⟩ := List.exists_of_findSome?_eq_some hfault
      exact texts_subset_of_parseSelector hparse hf (texts_of_fault hfragment ht)
    · cases h

theorem remainder_subset {level : Level} {kind : Combinator} {r : Text}
    (h : readLevel s = .ok level) (hlink : level.link = some (kind, r)) : r ⊆ s := by
  have hmem : Fragment.link kind r ∈
      level.compound ++ level.link.toList.map fun link => .link link.1 link.2 := by
    simp [hlink]
  exact texts_subset_of_parseSelector (parseSelector_of_readLevel h) hmem
    (List.mem_singleton.mpr rfl)

theorem Fails.texts_subset (h : Fails levels s e) (ht : t ∈ e.texts) : t ⊆ s := by
  induction h with
  | deep => cases ht
  | level hread => exact error_texts_of_readLevel hread ht
  | link hread hlink _ ih => exact List.Subset.trans (ih ht) (remainder_subset hread hlink)

end Messages

section Paths

variable {levels : Nat} {s : Text} {anchor : Anchor} {fragment : Fragment} {tree : PathTree}

theorem oneLine_predicate {p : Predicate} (htexts : ∀ t ∈ fragment.texts, OneLine t)
    (h : fragment.predicate? = some p) : OneLine p.render := by
  unfold Fragment.predicate? at h
  split at h
  · next value =>
    cases h
    have hvalue := (htexts value (by simp [Fragment.texts])).literal
    simp [hvalue]
  · next value =>
    cases h
    have hvalue : OneLine (' ' :: (value ++ [' '])) := by
      simp [htexts value (by simp [Fragment.texts])]
    simp [hvalue.literal]
  · next name _ =>
    cases h
    simp [htexts name (by simp [Fragment.texts])]
  · next name operator value =>
    have hname := htexts name (by simp [Fragment.texts])
    have hvalue : OneLine (value.getD []) := by
      cases value with
      | none => exact oneLine_nil
      | some value => exact htexts value (by simp [Fragment.texts])
    split at h
    · cases h
      simp [hname, hvalue.literal]
    · cases h
      simp [hname, hvalue.literal]
  · next text =>
    cases h
    have htext := (htexts text (by simp [Fragment.texts])).replaceAngle
    simp [htext.literal]
  · cases h

theorem oneLine_marker (anchor : Anchor) : OneLine anchor.marker := by
  cases anchor <;> decide

theorem PathTree.oneLine_renderChildren {trees : List PathTree}
    (h : ∀ tree ∈ trees, OneLine tree.render) : OneLine (renderChildren trees) := by
  induction trees with
  | nil => exact oneLine_nil
  | cons tree more ih =>
    obtain ⟨htree, hmore⟩ := List.forall_mem_cons.mp h
    simp [renderChildren, htree, ih hmore]

theorem PathTree.oneLine_renderAlternatives {trees : List PathTree}
    (h : ∀ tree ∈ trees, OneLine tree.render) : OneLine (renderAlternatives trees) := by
  induction trees with
  | nil => exact oneLine_nil
  | cons tree more ih =>
    obtain ⟨htree, hmore⟩ := List.forall_mem_cons.mp h
    simp [renderAlternatives, htree, ih hmore]

theorem PathTree.oneLine_render (hstep : OneLine tree.renderStep)
    (hchildren : ∀ child ∈ tree.children, OneLine child.render)
    (halternatives : ∀ other ∈ tree.alternatives, OneLine other.render) : OneLine tree.render := by
  rw [render_eq, oneLine_append_iff, oneLine_append_iff]
  refine ⟨⟨?_, oneLine_renderChildren hchildren⟩, oneLine_renderAlternatives halternatives⟩
  split
  · exact hstep
  · exact oneLine_nil

theorem PathTree.oneLine_renderPredicates {predicates : List Predicate}
    (h : ∀ p ∈ predicates, OneLine p.render) : OneLine (renderPredicates predicates) := by
  unfold renderPredicates
  split
  · exact oneLine_nil
  · have hjoin : OneLine (joinWith " and ".toList (predicates.map Predicate.render)) := by
      refine .joinWith (by decide) fun t ht => ?_
      obtain ⟨p, hp, rfl⟩ := List.mem_map.mp ht
      exact h p hp
    rw [oneLine_append_iff, oneLine_append_iff]
    exact ⟨⟨by decide, hjoin⟩, by decide⟩

theorem PathTree.oneLine_renderStep_node {level : Level} (hs : OneLine s)
    (h : readLevel s = .ok level) : OneLine (node anchor level).renderStep := by
  have htexts {fragment : Fragment} (hf : fragment ∈ level.compound) :
      ∀ t ∈ fragment.texts, OneLine t := fun t ht =>
    hs.of_subset (texts_subset_of_parseSelector (parseSelector_of_readLevel h)
      (List.mem_append_left _ hf) ht)
  have htest : ∀ test ∈ (node anchor level).nodeTest, OneLine test := by
    intro test htest
    have hlast : test ∈ (level.compound.filterMap Fragment.nodeTest?).getLast? := by
      simpa [node, extend, empty] using htest
    obtain ⟨fragment, hf, hname⟩ := List.mem_filterMap.mp (List.mem_of_mem_getLast? hlast)
    cases fragment with
    | element name =>
      cases hname
      exact htexts hf test (by simp [Fragment.texts])
    | _ => cases hname
  have hpredicates : ∀ p ∈ (node anchor level).predicates, OneLine p.render := by
    intro p hp
    obtain ⟨fragment, hf, hpredicate⟩ := List.mem_filterMap.mp hp
    exact oneLine_predicate (htexts hf) hpredicate
  have hnodeTest : OneLine (renderNodeTest (node anchor level).nodeTest none) := by
    cases hnode : (node anchor level).nodeTest with
    | none => decide
    | some test => exact htest test hnode
  simp only [renderStep, oneLine_append_iff]
  exact ⟨⟨⟨oneLine_marker anchor, oneLine_nil⟩, hnodeTest⟩, oneLine_renderPredicates hpredicates⟩

theorem PathTree.oneLine_parentStep : OneLine parentStep.render := by decide

theorem PathTree.oneLine_children_node {level : Level} :
    ∀ child ∈ (node anchor level).children, OneLine child.render := by
  intro child hchild
  obtain ⟨fragment, -, rfl⟩ := List.mem_map.mp hchild
  exact oneLine_parentStep

theorem Builds.oneLine_render (h : Builds levels s anchor tree) (hs : OneLine s) :
    OneLine tree.render := by
  induction h with
  | compound hread _ =>
    exact PathTree.oneLine_render (PathTree.oneLine_renderStep_node hs hread)
      PathTree.oneLine_children_node (fun _ hnone => absurd hnone List.not_mem_nil)
  | union hread hlink _ ih =>
    have hother := ih (hs.of_subset (remainder_subset hread hlink))
    refine PathTree.oneLine_render (PathTree.oneLine_renderStep_node hs hread)
      PathTree.oneLine_children_node fun other hmem => ?_
    obtain rfl := List.mem_singleton.mp hmem
    exact hother
  | step hread hlink _ _ ih =>
    have hchild := ih (hs.of_subset (remainder_subset hread hlink))
    refine PathTree.oneLine_render (PathTree.oneLine_renderStep_node hs hread)
      (fun child hmem => ?_) (fun _ hnone => absurd hnone List.not_mem_nil)
    rcases List.mem_append.mp hmem with hparent | hlast
    · exact PathTree.oneLine_children_node child hparent
    · obtain rfl := List.mem_singleton.mp hlast
      exact hchild

end Paths

theorem oneLine_convert {s : Text} (hs : OneLine s) (anchor : Anchor) :
    (∃ x, convert s anchor = .ok x ∧ OneLine x) ∨
      ∃ e, convert s anchor = .error e ∧ OneLine e.message := by
  rcases builds_or_fails (maxLinks + 1) s anchor with ⟨tree, htree⟩ | ⟨e, he⟩
  · refine .inl ⟨tree.render, ?_, htree.oneLine_render hs⟩
    rw [convert, PathTree.ofSelector, htree.ofSelectorWithin_eq]
    rfl
  · refine .inr ⟨e, ?_, SelectorError.oneLine_message fun t ht =>
      hs.of_subset (he.texts_subset ht)⟩
    rw [convert, PathTree.ofSelector, he.ofSelectorWithin_eq]
    rfl

end SelectorXPath
