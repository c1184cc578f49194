import SelectorXPath.Proofs.BuiltTrees
import SelectorXPath.Proofs.Unions

namespace SelectorXPath

open PathTree

def parentFilter : Fragment := .filter "parent".toList none

def OnlyParents (compound : List Fragment) : Prop :=
  compound ≠ [] ∧ ∀ fragment ∈ compound, fragment = parentFilter

def isSlash (c : Char) : Bool := c == '/'

section Steps

variable {s : Text} {level : Level} (anchor : Anchor) {fragment : Fragment}

theorem eq_parentFilter_of_isParent (hfault : fragment.fault? = none)
    (hparent : fragment.isParent = true) : fragment = parentFilter := by
  cases fragment with
  | filter name argument =>
    cases argument with
    | none =>
      simp only [Fragment.fault?, Option.isSome_none, Bool.false_eq_true, if_false] at hfault
      split at hfault
      · cases hfault
      · split at hfault
        · next hname => rw [hname, parentFilter]
        · cases hfault
    | some text => cases hparent
  | _ => cases hparent

theorem hasStep_node_eq_false_iff (h : readLevel s = .ok level) :
    (node anchor level).hasStep = false ↔
      ∀ fragment ∈ level.compound, fragment = parentFilter := by
  have hstep : (node anchor level).hasStep = false ↔
      level.compound.filterMap Fragment.nodeTest? = [] ∧
        level.compound.filterMap Fragment.predicate? = [] := by
    simp [node, extend, empty, hasStep]
  rw [hstep, List.filterMap_eq_nil_iff, List.filterMap_eq_nil_iff]
  constructor
  · rintro ⟨htests, hpredicates⟩ fragment hf
    obtain ⟨⟨span, hspells⟩, hfault⟩ := spells_and_fault_of_mem_compound h hf
    rcases Fragment.adds_of_fault_eq_none hspells.isLink_eq_false hfault with hadds | hadds | hadds
    · exact absurd (htests fragment hf) hadds
    · exact absurd (hpredicates fragment hf) hadds
    · exact eq_parentFilter_of_isParent hfault hadds
  · intro hparents
    constructor
    · intro fragment hf
      rw [hparents fragment hf]
      rfl
    · intro fragment hf
      rw [hparents fragment hf]
      rfl

theorem startsOff_slash_name {n : Text} (hn : IsName n) : StartsOff isSlash n := by
  intro c hc
  have hname := hn.2 c (List.mem_of_mem_head? hc)
  cases hslash : isSlash c with
  | false => rfl
  | true =>
    rw [beq_iff_eq.mp hslash] at hname
    exact absurd hname (by decide)

theorem nodeTest_node_cases (h : readLevel s = .ok level) :
    (node anchor level).nodeTest = none ∨ (node anchor level).nodeTest = some ['*'] ∨
      ∃ n, IsName n ∧ (node anchor level).nodeTest = some n := by
  cases htest : (node anchor level).nodeTest with
  | none => exact .inl rfl
  | some test =>
    right
    simp only [node, extend, empty, Option.or_none] at htest
    obtain ⟨fragment, hf, hname⟩ := List.mem_filterMap.mp (List.mem_of_getLast? htest)
    obtain ⟨⟨span, hspells⟩, -⟩ := spells_and_fault_of_mem_compound h hf
    cases hspells with
    | any =>
      cases hname
      exact .inl rfl
    | element hn =>
      cases hname
      exact .inr ⟨_, hn, rfl⟩
    | _ => cases hname

theorem renderStep_node (h : readLevel s = .ok level) :
    ∃ t, (node anchor level).renderStep = anchor.marker ++ t ∧ t ≠ [] ∧ StartsOff isSlash t := by
  have hwritten : (node anchor level).renderStep =
      anchor.marker ++ (renderNodeTest (node anchor level).nodeTest none ++
        renderPredicates (node anchor level).predicates) := by
    simp [renderStep, node, extend, empty, renderAxis]
  rw [hwritten]
  refine ⟨_, rfl, ?_⟩
  rcases nodeTest_node_cases anchor h with htest | htest | ⟨n, hn, htest⟩
  · rw [htest]
    exact ⟨by simp [renderNodeTest], startsOff_cons (by decide) _⟩
  · rw [htest]
    exact ⟨by simp [renderNodeTest], startsOff_cons (by decide) _⟩
  · rw [htest]
    exact ⟨by simp [renderNodeTest, hn.1],
      (startsOff_append hn.1).mpr (startsOff_slash_name hn)⟩

theorem renderChildren_node (hne : level.compound ≠ [])
    (hparents : ∀ fragment ∈ level.compound, fragment = parentFilter) :
    ∃ t, renderChildren (node anchor level).children = "/..".toList ++ t := by
  obtain ⟨first, more, hcompound⟩ := List.exists_cons_of_ne_nil hne
  obtain rfl : first = parentFilter := hparents first (by simp [hcompound])
  have hchildren : (node anchor level).children =
      parentStep :: (more.filter Fragment.isParent).map fun _ => parentStep := by
    rw [node, extend, hcompound, List.filter_cons_of_pos rfl]
    rfl
  rw [hchildren, renderChildren]
  exact ⟨_, rfl⟩

end Steps

section Trees

variable {levels : Nat} {s : Text} {anchor : Anchor} {tree : PathTree}

theorem Builds.first_node (h : Builds levels s anchor tree) :
    ∃ level, readLevel s = .ok level ∧
      (level.compound = [] → tree.children = []) ∧
      tree.hasStep = (node anchor level).hasStep ∧
      tree.renderStep = (node anchor level).renderStep ∧
      ∃ more, tree.children = (node anchor level).children ++ more := by
  cases h with
  | @compound _ _ _ level hread =>
    refine ⟨level, hread, fun hnil => ?_, rfl, rfl, [], (List.append_nil _).symm⟩
    rw [node, hnil, extend_nil]
    rfl
  | @union _ _ _ level _ _ hread hlink =>
    refine ⟨level, hread, fun hnil => ?_, rfl, rfl, [], (List.append_nil _).symm⟩
    rw [(trim_eq_nil_of_compound_eq_nil hread hnil).2] at hlink
    cases hlink
  | @step _ _ _ level _ _ _ child hread hlink =>
    refine ⟨level, hread, fun hnil => ?_, rfl, rfl, [child], rfl⟩
    rw [(trim_eq_nil_of_compound_eq_nil hread hnil).2] at hlink
    cases hlink

theorem Builds.render_marker (h : Builds levels s anchor tree) :
    ∃ level, readLevel s = .ok level ∧
      (¬ OnlyParents level.compound →
        ∃ t, tree.render = anchor.marker ++ t ∧ StartsOff isSlash t) ∧
      (OnlyParents level.compound → ∃ t, tree.render = "/..".toList ++ t) := by
  obtain ⟨level, hread, hblank, hstep, hwritten, more, hchildren⟩ := h.first_node
  refine ⟨level, hread, fun hother => ?_, ?_⟩
  · have howns : (tree.hasStep || tree.children.isEmpty) = true := by
      by_cases hnil : level.compound = []
      · simp [hblank hnil]
      · cases hnode : (node anchor level).hasStep with
        | true => simp [hstep, hnode]
        | false => exact absurd ⟨hnil, (hasStep_node_eq_false_iff anchor hread).mp hnode⟩ hother
    obtain ⟨t, ht, hne, hslash⟩ := renderStep_node anchor hread
    rw [render_eq, if_pos howns, hwritten, ht, List.append_assoc, List.append_assoc]
    exact ⟨_, rfl, (startsOff_append hne).mpr hslash⟩
  · rintro ⟨hne, hparents⟩
    obtain ⟨t, ht⟩ := renderChildren_node anchor hne hparents
    have hnode := (hasStep_node_eq_false_iff anchor hread).mpr hparents
    have hnot : (tree.hasStep || tree.children.isEmpty) = false := by
      rw [hstep, hnode, hchildren]
      cases hnil : (node anchor level).children with
      | nil =>
        rw [hnil] at ht
        cases ht
      | cons => rfl
    rw [render_eq, hnot, hchildren, renderChildren_append, ht]
    exact ⟨t ++ renderChildren more ++ renderAlternatives tree.alternatives, by simp⟩

end Trees

theorem convert_marker {s x : Text} {anchor : Anchor} (h : convert s anchor = .ok x) :
    ∃ fragments, parseSelector s = .ok fragments ∧
      (¬ OnlyParents (compoundOf fragments) →
        ∃ t, x = anchor.marker ++ t ∧ StartsOff isSlash t) ∧
      (OnlyParents (compoundOf fragments) → ∃ t, x = "/..".toList ++ t) := by
  obtain ⟨tree, hbuilds, rfl⟩ := convert_eq_ok_iff.mp h
  obtain ⟨level, hread, hmarker⟩ := hbuilds.render_marker
  obtain ⟨fragments, hparse, -, rfl⟩ := readLevel_ok_iff.mp hread
  exact ⟨fragments, hparse, hmarker⟩

theorem convert_marker_wide :
    convert "é[x]:parent > b, c".toList .anywhere = .ok "//é[@x]/../b | /c".toList ∧
      ∃ t, "//é[@x]/../b | /c".toList = Anchor.anywhere.marker ++ t ∧ StartsOff isSlash t := by
  have hconvert : convert "é[x]:parent > b, c".toList .anywhere =
      .ok "//é[@x]/../b | /c".toList := by
    decide +kernel
  have hparse : parseSelector "é[x]:parent > b, c".toList =
      .ok [.element "é".toList, .attr "x".toList none none, parentFilter,
        .link .child "b, c".toList] := by
    decide +kernel
  refine ⟨hconvert, ?_⟩
  obtain ⟨fragments, hfragments, hmarker, -⟩ := convert_marker hconvert
  cases hparse.symm.trans hfragments
  refine hmarker fun hparents => ?_
  exact absurd (hparents.2 (.element "é".toList) (by decide)) (by decide)

theorem convert_marker_lost :
    ¬ ∀ (s x : Text) (anchor : Anchor), convert s anchor = .ok x →
      ∃ t, x = anchor.marker ++ t ∧ StartsOff isSlash t := by
  intro h
  obtain ⟨t, ht, hslash⟩ := h ":parent".toList "/..".toList .relative (by decide +kernel)
  obtain rfl : "/..".toList = t := ht
  exact absurd hslash (by decide)

end SelectorXPath
