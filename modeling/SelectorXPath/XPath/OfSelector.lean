import SelectorXPath.Selector.Scan
import SelectorXPath.XPath.PathTree

namespace SelectorXPath

def attributeTest (name : Text) (operator value : Option Text) : Except SelectorError Predicate :=
  let value := value.getD []
  match operator with
  | none => .ok (.has name)
  | some operator =>
    if operator = "=".toList then .ok (.equals name value)
    else if operator = "!=".toList then .ok (.differs name value)
    else .error (.unsupportedOperator name operator)

def replaceAngle (t : Text) : Text := t.flatMap fun c => if c = '<' then "&gt;".toList else [c]

namespace PathTree

def parentStep : PathTree := (empty .root).setNodeTest "..".toList

def applyFilter (tree : PathTree) (name : Text) (argument : Option Text) :
    Except SelectorError PathTree :=
  if name = "contains".toList then
    match argument with
    | some text => .ok (tree.addPredicate (.textContains (replaceAngle text)))
    | none => .error (.filterArgument name .missing)
  else if name = "parent".toList then
    match argument with
    | none => .ok (tree.addChild parentStep)
    | some _ => .error (.filterArgument name .unexpected)
  else .error (.unsupportedFilter name)

def applyLink (next : Text → Anchor → Except SelectorError PathTree) (tree : PathTree)
    (kind : Combinator) (remainder : Text) : Except SelectorError PathTree :=
  match kind with
  | .multiple => (next remainder tree.anchor).map tree.addAlternative
  | .child => (next remainder .root).map tree.addChild
  | .descendant => (next remainder .anywhere).map tree.addChild
  | .adjacent => .error (.unsupportedCombinator kind)
  | .sibling => .error (.unsupportedCombinator kind)

def refine (next : Text → Anchor → Except SelectorError PathTree) (tree : PathTree) :
    List Fragment → Except SelectorError PathTree
  | [] => .ok tree
  | .element name :: more => refine next (tree.setNodeTest name) more
  | .id value :: more => refine next (tree.addPredicate (.equals "id".toList value)) more
  | .className value :: more => refine next (tree.addPredicate (.hasClass value)) more
  | .attr name operator value :: more =>
    match attributeTest name operator value with
    | .ok predicate => refine next (tree.addPredicate predicate) more
    | .error e => .error e
  | .filter name argument :: more =>
    match tree.applyFilter name argument with
    | .ok refined => refine next refined more
    | .error e => .error e
  | .link kind remainder :: _ => applyLink next tree kind remainder

/-- The tree of a selector that may take the given number of levels, one more than its links. -/
def ofSelectorWithin : Nat → Text → Anchor → Except SelectorError PathTree
  | 0, _, _ => .error .tooDeep
  | levels + 1, selector, anchor =>
    match parseSelector selector with
    | .ok fragments => refine (ofSelectorWithin levels) (empty anchor) fragments
    | .error e => .error e

def ofSelector (selector : Text) (anchor : Anchor) : Except SelectorError PathTree :=
  ofSelectorWithin (maxLinks + 1) selector anchor

def ofFragments (fragments : List Fragment) (anchor : Anchor) : Except SelectorError PathTree :=
  refine (ofSelectorWithin maxLinks) (empty anchor) fragments

end PathTree

def convert (selector : Text) (anchor : Anchor) : Except SelectorError Text :=
  (PathTree.ofSelector selector anchor).map PathTree.render

theorem map_eq_ok {α β ε : Type} {x : Except ε α} {f : α → β} {b : β} (h : x.map f = .ok b) :
    ∃ a, x = .ok a ∧ f a = b := by
  cases x with
  | error e => cases h
  | ok a => exact ⟨a, rfl, Except.ok.inj h⟩

theorem PathTree.ofSelector_eq (selector : Text) (anchor : Anchor) :
    PathTree.ofSelector selector anchor =
      match parseSelector selector with
      | .ok fragments => PathTree.ofFragments fragments anchor
      | .error e => .error e := rfl

end SelectorXPath
