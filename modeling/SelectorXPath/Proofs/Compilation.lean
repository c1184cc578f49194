import SelectorXPath.Proofs.ScanCompleteness
import SelectorXPath.XPath.OfSelector

namespace SelectorXPath

abbrev Name := {n : Text // IsName n}

abbrev BlankRun := {w : Text // Blanks w}

structure QuotedText where
  quote : Quote
  text : Text
  free : quote.mark ∉ text

def QuotedText.spelling (v : QuotedText) : Text := v.quote.around v.text

inductive Part where
  | any
  | element (name : Name)
  | id (name : Name)
  | className (name : Name)
  | has (name : Name)
  | equals (name : Name) (value : QuotedText)
  | differs (name : Name) (value : QuotedText)
  | contains (argument : QuotedText)
  | parent

def quoted (t : Text) : Text := if '\'' ∈ t then doubleQuoted t else singleQuoted t

namespace Part

def fragment : Part → Fragment
  | .any => .element ['*']
  | .element n => .element n.val
  | .id n => .id n.val
  | .className n => .className n.val
  | .has n => .attr n.val none none
  | .equals n v => .attr n.val (some "=".toList) (some v.text)
  | .differs n v => .attr n.val (some "!=".toList) (some v.text)
  | .contains v => .filter "contains".toList (some v.text)
  | .parent => .filter "parent".toList none

def spelling : Part → Text
  | .any => ['*']
  | .element n => n.val
  | .id n => '#' :: n.val
  | .className n => '.' :: n.val
  | .has n => '[' :: n.val ++ [']']
  | .equals n v => '[' :: n.val ++ "=".toList ++ v.spelling ++ [']']
  | .differs n v => '[' :: n.val ++ "!=".toList ++ v.spelling ++ [']']
  | .contains v => ':' :: "contains".toList ++ '(' :: v.spelling ++ [')']
  | .parent => ':' :: "parent".toList

def isParent : Part → Bool
  | .parent => true
  | _ => false

def nodeTest? : Part → Option Text
  | .any => some ['*']
  | .element n => some n.val
  | _ => none

def test? : Part → Option Text
  | .id n => some ("@id='".toList ++ n.val ++ "'".toList)
  | .className n =>
    some ("contains(concat(' ', normalize-space(@class), ' '), ' ".toList ++ n.val ++
      " ')".toList)
  | .has n => some ('@' :: n.val)
  | .equals n v => some ('@' :: n.val ++ "=".toList ++ quoted v.text)
  | .differs n v => some ('@' :: n.val ++ " != ".toList ++ quoted v.text)
  | .contains v => some ("contains(text(), ".toList ++ quoted (replaceAngle v.text) ++ ")".toList)
  | _ => none

def Apart (x y : Part) : Prop := y.fragment.isBareWord = true → EndsOff isNameChar x.spelling

theorem spells (part : Part) : Spells PlainValue part.fragment part.spelling := by
  have hnil : Blanks [] := by simp [Blanks]
  have hwritten (bare : Text → Prop) (v : QuotedText) : Written bare v.text v.spelling :=
    .quoted v.quote v.free
  cases part with
  | any => exact .any
  | element n => exact .element n.property
  | id n => exact .id n.property
  | className n => exact .className n.property
  | has n =>
    have h : Spells PlainValue _ _ := .attr n.property hnil hnil
    simpa [fragment, spelling] using h
  | equals n v =>
    have h := Spells.attrValue n.property (by decide : IsOperator "=".toList)
      (hwritten PlainValue v) (by decide) hnil hnil hnil hnil
    simpa [fragment, spelling] using h
  | differs n v =>
    have h := Spells.attrValue n.property (by decide : IsOperator "!=".toList)
      (hwritten PlainValue v) (by decide) hnil hnil hnil hnil
    simpa [fragment, spelling] using h
  | contains v =>
    have h : Spells PlainValue _ _ := .filterArgument (by decide : IsName "contains".toList)
      (hwritten BareArgument v) hnil hnil
    simpa [fragment, spelling] using h
  | parent => exact .filter (by decide : IsName "parent".toList)

def piece (part : Part) : Piece PlainValue := ⟨part.fragment, part.spelling, part.spells⟩

end Part

structure Compound where
  parts : List Part
  nonempty : parts ≠ []
  apart : parts.IsChain Part.Apart

namespace Compound

def spelling (compound : Compound) : Text := compound.parts.flatMap Part.spelling

def fragments (compound : Compound) : List Fragment := compound.parts.map Part.fragment

def nodeTest (compound : Compound) : Text :=
  (compound.parts.filterMap Part.nodeTest?).getLast?.getD ['*']

def tests (compound : Compound) : Text :=
  match compound.parts.filterMap Part.test? with
  | [] => []
  | tests => "[".toList ++ joinWith " and ".toList tests ++ "]".toList

def xpath (anchor : Anchor) (compound : Compound) : Text :=
  (if compound.parts.all Part.isParent then []
    else anchor.marker ++ compound.nodeTest ++ compound.tests) ++
    (compound.parts.filter Part.isParent).flatMap fun _ => "/..".toList

end Compound

inductive Joint where
  | comma (before after : BlankRun)
  | child (before after : BlankRun)
  | gap (run : BlankRun) (nonempty : run.val ≠ [])

namespace Joint

def kind : Joint → Combinator
  | .comma _ _ => .multiple
  | .child _ _ => .child
  | .gap _ _ => .descendant

def spelling : Joint → Text
  | .comma before after => before.val ++ [','] ++ after.val
  | .child before after => before.val ++ ['>'] ++ after.val
  | .gap run _ => run.val

def anchor (previous : Anchor) : Joint → Anchor
  | .comma _ _ => previous
  | .child _ _ => .root
  | .gap _ _ => .anywhere

def separator : Joint → Text
  | .comma _ _ => " | ".toList
  | _ => []

end Joint

def chainText (first : Compound) : List (Joint × Compound) → Text
  | [] => first.spelling
  | (joint, next) :: more => first.spelling ++ joint.spelling ++ chainText next more

def chainXPath (anchor : Anchor) (first : Compound) : List (Joint × Compound) → Text
  | [] => first.xpath anchor
  | (joint, next) :: more =>
    first.xpath anchor ++ joint.separator ++ chainXPath (joint.anchor anchor) next more

section Reading

def chainFragments (first : Compound) : List (Joint × Compound) → List Fragment
  | [] => first.fragments
  | (joint, next) :: more => first.fragments ++ [.link joint.kind (chainText next more)]

theorem Compound.exists_spelling_eq_cons (compound : Compound) :
    ∃ c s, compound.spelling = c :: s ∧ isBlank c = false ∧ isLinkMark c = false := by
  obtain ⟨part, parts, hparts⟩ := List.exists_cons_of_ne_nil compound.nonempty
  obtain ⟨c, s, hspelling, hblank, hmark, -⟩ := part.spells.starts
  exact ⟨c, s ++ parts.flatMap Part.spelling, by simp [spelling, hparts, hspelling], hblank, hmark⟩

theorem Compound.isChain_piece (compound : Compound) :
    (compound.parts.map Part.piece).IsChain Piece.Apart :=
  List.isChain_map_of_isChain Part.piece (fun _ _ h => h) compound.apart

theorem exists_chainText_eq_cons (first : Compound) (links : List (Joint × Compound)) :
    ∃ c s, chainText first links = c :: s ∧ isBlank c = false ∧ isLinkMark c = false := by
  obtain ⟨c, s, hspelling, hblank, hmark⟩ := first.exists_spelling_eq_cons
  cases links with
  | nil => exact ⟨c, s, hspelling, hblank, hmark⟩
  | cons link more => exact ⟨c, _, by simp [chainText, hspelling]; rfl, hblank, hmark⟩

theorem Joint.spellsLink (joint : Joint) {r : Text} (hr : StartsOff isLinkMark r) :
    SpellsLink joint.kind r (joint.spelling ++ r) := by
  cases joint with
  | comma before after => exact .marked (fun h => nomatch h) before.property after.property
  | child before after => exact .marked (fun h => nomatch h) before.property after.property
  | gap run hne => exact .blank run.property hne hr

theorem exists_chain_layout (first : Compound) (links : List (Joint × Compound)) :
    ∃ layout : Layout PlainValue, layout.text = chainText first links ∧
      layout.fragments = chainFragments first links := by
  have hpieces : first.parts.map Part.piece ≠ [] := by simpa using first.nonempty
  induction links generalizing first with
  | nil =>
    refine ⟨⟨_, none, first.isChain_piece, by simp⟩, ?_, ?_⟩
    · simp [Layout.text, textOf, chainText, Compound.spelling, List.flatMap_map, Part.piece]
    · simp [Layout.fragments, fragmentsOf, chainFragments, Compound.fragments, Part.piece]
  | cons link more ih =>
    obtain ⟨joint, next⟩ := link
    obtain ⟨rest, hrest, -⟩ := ih next (by simpa using next.nonempty)
    obtain ⟨c, s, hstart, -, hmark⟩ := exists_chainText_eq_cons next more
    have hspells := joint.spellsLink (r := chainText next more) (by simpa [hstart, StartsOff])
    refine ⟨⟨_, some ⟨joint.kind, chainText next more, _, hspells, by simp [hstart],
      hrest ▸ rest.trim_text⟩, first.isChain_piece, fun _ => hpieces⟩, ?_, ?_⟩
    · simp [Layout.text, textOf, chainText, Compound.spelling, List.flatMap_map, Part.piece]
    · simp [Layout.fragments, fragmentsOf, chainFragments, Compound.fragments, Part.piece,
        Tail.fragment]

theorem parseSelector_chainText (first : Compound) (links : List (Joint × Compound)) :
    parseSelector (chainText first links) = .ok (chainFragments first links) := by
  obtain ⟨layout, htext, hfragments⟩ := exists_chain_layout first links
  rw [← htext, parseSelector, layout.trim_text, layout.scan_text, hfragments]

end Reading

section Building

open PathTree

def Part.predicate? : Part → Option Predicate
  | .id n => some (.equals "id".toList n.val)
  | .className n => some (.hasClass n.val)
  | .has n => some (.has n.val)
  | .equals n v => some (.equals n.val v.text)
  | .differs n v => some (.differs n.val v.text)
  | .contains v => some (.textContains (replaceAngle v.text))
  | _ => none

def grow (tree : PathTree) (parts : List Part) : PathTree where
  nodeTest := (parts.filterMap Part.nodeTest?).getLast?.or tree.nodeTest
  axis := tree.axis
  predicates := tree.predicates ++ parts.filterMap Part.predicate?
  anchor := tree.anchor
  children := tree.children ++ (parts.filter Part.isParent).map fun _ => parentStep
  alternatives := tree.alternatives

theorem grow_nil (tree : PathTree) : grow tree [] = tree := by
  cases tree
  simp [grow]

theorem grow_append (tree : PathTree) (xs ys : List Part) :
    grow tree (xs ++ ys) = grow (grow tree xs) ys := by
  simp [grow, List.getLast?_append, Option.or_assoc]

theorem refine_part (next : Text → Anchor → Except SelectorError PathTree) (tree : PathTree)
    (part : Part) (more : List Fragment) :
    refine next tree (part.fragment :: more) = refine next (grow tree [part]) more := by
  cases part <;>
    simp [Part.fragment, refine, grow, List.filterMap_cons, List.filter_cons, Part.nodeTest?,
      Part.predicate?, Part.isParent, setNodeTest, addPredicate, addChild, attributeTest, applyFilter]

theorem refine_parts (next : Text → Anchor → Except SelectorError PathTree) (tree : PathTree)
    (parts : List Part) (more : List Fragment) :
    refine next tree (parts.map Part.fragment ++ more) = refine next (grow tree parts) more := by
  induction parts generalizing tree with
  | nil => rw [grow_nil, List.map_nil, List.nil_append]
  | cons part parts ih =>
    rw [List.map_cons, List.cons_append, refine_part, ih, ← grow_append]
    rfl

theorem not_mem_replaceAngle {q : Quote} {t : Text} (h : q.mark ∉ t) :
    q.mark ∉ replaceAngle t := by
  simp only [replaceAngle, List.mem_flatMap, not_exists, not_and]
  intro c hc hmem
  split at hmem
  · cases q <;> revert hmem <;> decide
  · exact h (List.mem_singleton.mp hmem ▸ hc)

theorem literal_eq_quoted {q : Quote} {t : Text} (h : q.mark ∉ t) : literal t = quoted t := by
  by_cases hs : '\'' ∈ t
  · have hd : '"' ∉ t := by
      cases q with
      | single => exact absurd hs h
      | double => exact h
    simp [literal, quoted, hs, hd]
  · simp [literal, quoted, hs]

theorem Part.test?_eq (part : Part) : part.test? = part.predicate?.map Predicate.render := by
  have hname {n : Text} (hn : IsName n) {c : Char} (hc : isNameChar c = false) : c ∉ n := by
    intro hmem
    rw [hn.2 c hmem] at hc
    cases hc
  cases part with
  | id n =>
    have hq : '\'' ∉ n.val := hname n.property (by decide)
    simp [test?, predicate?, literal, hq, singleQuoted]
  | className n =>
    have hq : '\'' ∉ n.val := hname n.property (by decide)
    simp [test?, predicate?, literal, hq, singleQuoted]
  | equals n v => simp [test?, predicate?, literal_eq_quoted v.free]
  | differs n v => simp [test?, predicate?, literal_eq_quoted v.free]
  | contains v =>
    simp [test?, predicate?, literal_eq_quoted (not_mem_replaceAngle v.free)]
  | _ => rfl

theorem Part.isParent_iff (part : Part) :
    part.isParent = true ↔ part.nodeTest? = none ∧ part.predicate? = none := by
  cases part <;> simp [isParent, nodeTest?, predicate?]

theorem all_isParent_iff (parts : List Part) :
    parts.all Part.isParent = true ↔
      parts.filterMap Part.nodeTest? = [] ∧ parts.filterMap Part.predicate? = [] := by
  simp only [List.all_eq_true, List.filterMap_eq_nil_iff, Part.isParent_iff]
  exact forall₂_and

theorem hasStep_grow (anchor : Anchor) (parts : List Part) :
    (grow (empty anchor) parts).hasStep = !parts.all Part.isParent := by
  rw [Bool.eq_iff_iff, Bool.not_eq_true', ← Bool.not_eq_true, all_isParent_iff]
  simp only [grow, hasStep, empty]
  generalize parts.filterMap Part.nodeTest? = tests
  generalize parts.filterMap Part.predicate? = predicates
  cases tests <;> cases predicates <;> simp

theorem renderPredicates_filterMap (compound : Compound) :
    renderPredicates (compound.parts.filterMap Part.predicate?) = compound.tests := by
  have htests : compound.parts.filterMap Part.test? =
      (compound.parts.filterMap Part.predicate?).map Predicate.render := by
    rw [List.map_filterMap]
    exact List.filterMap_congr fun part _ => part.test?_eq
  rw [Compound.tests, htests]
  cases compound.parts.filterMap Part.predicate? with
  | nil => rfl
  | cons p ps => simp [renderPredicates]

theorem renderStep_grow (anchor : Anchor) (compound : Compound) :
    (grow (empty anchor) compound.parts).renderStep =
      anchor.marker ++ compound.nodeTest ++ compound.tests := by
  have htest (test : Option Text) : renderNodeTest test none = test.getD ['*'] := by
    cases test <;> rfl
  simp [renderStep, grow, empty, renderAxis, htest, Compound.nodeTest, renderPredicates_filterMap]

theorem renderChildren_parents (parts : List Part) :
    renderChildren (parts.map fun _ => parentStep) = parts.flatMap fun _ => "/..".toList := by
  have hparent : parentStep.render = "/..".toList := by decide
  induction parts with
  | nil => rfl
  | cons part parts ih => rw [List.map_cons, renderChildren, ih, hparent, List.flatMap_cons]

theorem filter_isParent_ne_nil (compound : Compound)
    (h : compound.parts.all Part.isParent = true) :
    compound.parts.filter Part.isParent ≠ [] := by
  rw [List.filter_eq_self.mpr (List.all_eq_true.mp h)]
  exact compound.nonempty

def attach (tree : PathTree) (children alternatives : List PathTree) : PathTree :=
  { tree with
    children := tree.children ++ children
    alternatives := tree.alternatives ++ alternatives }

theorem attach_nil (tree : PathTree) : attach tree [] [] = tree := by
  cases tree
  simp [attach]

theorem addChild_eq_attach (tree child : PathTree) : tree.addChild child = attach tree [child] [] := by
  simp [addChild, attach]

theorem addAlternative_eq_attach (tree alternative : PathTree) :
    tree.addAlternative alternative = attach tree [] [alternative] := by
  simp [addAlternative, attach]

theorem render_attach_grow (anchor : Anchor) (compound : Compound)
    (children alternatives : List PathTree) :
    (attach (grow (empty anchor) compound.parts) children alternatives).render =
      compound.xpath anchor ++ renderChildren children ++ renderAlternatives alternatives := by
  set tree := attach (grow (empty anchor) compound.parts) children alternatives with htree
  have hstep : tree.hasStep = !compound.parts.all Part.isParent := hasStep_grow anchor compound.parts
  have hwrite : tree.renderStep = anchor.marker ++ compound.nodeTest ++ compound.tests :=
    renderStep_grow anchor compound
  have hchildren : tree.children =
      (compound.parts.filter Part.isParent).map (fun _ => parentStep) ++ children := by
    simp [htree, attach, grow, empty]
  have halternatives : tree.alternatives = alternatives := by
    simp [htree, attach, grow, empty]
  rw [render_eq, hstep, hwrite, hchildren, halternatives, renderChildren_append,
    renderChildren_parents, Compound.xpath]
  cases hall : compound.parts.all Part.isParent with
  | false => simp
  | true => simp [filter_isParent_ne_nil compound hall]

theorem render_grow (anchor : Anchor) (compound : Compound) :
    (grow (empty anchor) compound.parts).render = compound.xpath anchor := by
  have h := render_attach_grow anchor compound [] []
  rw [attach_nil] at h
  simpa [renderChildren, renderAlternatives] using h

theorem applyLink_joint (next : Text → Anchor → Except SelectorError PathTree) (anchor : Anchor)
    (compound : Compound) (joint : Joint) (remainder : Text) :
    (applyLink next (grow (empty anchor) compound.parts) joint.kind remainder).map render =
      ((next remainder (joint.anchor anchor)).map render).map fun t =>
        compound.xpath anchor ++ joint.separator ++ t := by
  have hanchor : (grow (empty anchor) compound.parts).anchor = anchor := rfl
  cases joint with
  | comma before after =>
    simp only [Joint.kind, applyLink, hanchor, Joint.anchor, Joint.separator]
    cases next remainder anchor with
    | error e => rfl
    | ok tree =>
      simp [Except.map, addAlternative_eq_attach, render_attach_grow, renderChildren,
        renderAlternatives]
  | child before after =>
    simp only [Joint.kind, applyLink, Joint.anchor, Joint.separator]
    cases next remainder .root with
    | error e => rfl
    | ok tree =>
      simp [Except.map, addChild_eq_attach, render_attach_grow, renderChildren, renderAlternatives]
  | gap run hne =>
    simp only [Joint.kind, applyLink, Joint.anchor, Joint.separator]
    cases next remainder .anywhere with
    | error e => rfl
    | ok tree =>
      simp [Except.map, addChild_eq_attach, render_attach_grow, renderChildren, renderAlternatives]

theorem render_ofSelectorWithin_chain (levels : Nat) (anchor : Anchor) (first : Compound)
    (links : List (Joint × Compound)) :
    (ofSelectorWithin (levels + 1) (chainText first links) anchor).map render =
      if levels < links.length then .error .tooDeep else .ok (chainXPath anchor first links) := by
  induction links generalizing levels anchor first with
  | nil =>
    have hrefine := refine_parts (ofSelectorWithin levels) (empty anchor) first.parts []
    rw [List.append_nil, refine] at hrefine
    simp only [ofSelectorWithin, parseSelector_chainText, chainFragments, Compound.fragments,
      hrefine, Except.map, render_grow]
    simp [chainXPath]
  | cons link more ih =>
    obtain ⟨joint, next⟩ := link
    simp only [ofSelectorWithin, parseSelector_chainText, chainFragments, Compound.fragments,
      refine_parts, refine, applyLink_joint, chainXPath, List.length_cons]
    cases levels with
    | zero => simp [ofSelectorWithin, Except.map]
    | succ levels =>
      rw [ih]
      by_cases h : levels < more.length
      · simp [h, Except.map]
      · simp [h, Except.map]

end Building

theorem convert_chain (first : Compound) (links : List (Joint × Compound)) (anchor : Anchor) :
    convert (chainText first links) anchor =
      if 256 < links.length then .error .tooDeep else .ok (chainXPath anchor first links) :=
  render_ofSelectorWithin_chain 256 anchor first links

end SelectorXPath
