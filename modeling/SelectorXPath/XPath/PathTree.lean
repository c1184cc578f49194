import SelectorXPath.XPath.Anchor
import SelectorXPath.XPath.Predicate

namespace SelectorXPath

structure PathTree where
  nodeTest : Option Text
  axis : Option Text
  predicates : List Predicate
  anchor : Anchor
  children : List PathTree
  alternatives : List PathTree
deriving Repr

namespace PathTree

def empty (anchor : Anchor) : PathTree := ⟨none, none, [], anchor, [], []⟩

def setNodeTest (tree : PathTree) (test : Text) : PathTree := { tree with nodeTest := some test }

def setAxis (tree : PathTree) (axis : Text) : PathTree := { tree with axis := some axis }

def addPredicate (tree : PathTree) (predicate : Predicate) : PathTree :=
  { tree with predicates := tree.predicates ++ [predicate] }

def addChild (tree child : PathTree) : PathTree :=
  { tree with children := tree.children ++ [child] }

def addAlternative (tree alternative : PathTree) : PathTree :=
  { tree with alternatives := tree.alternatives ++ [alternative] }

def hasStep (tree : PathTree) : Bool :=
  tree.nodeTest.isSome || tree.axis.isSome || !tree.predicates.isEmpty

def renderAxis : Option Text → Text
  | none => []
  | some axis => axis ++ "::".toList

def renderNodeTest : Option Text → Option Text → Text
  | some test, _ => test
  | none, some _ => "self".toList
  | none, none => ['*']

def renderPredicates : List Predicate → Text
  | [] => []
  | predicates => ['['] ++ joinWith " and ".toList (predicates.map Predicate.render) ++ [']']

def renderStep (tree : PathTree) : Text :=
  tree.anchor.marker ++ renderAxis tree.axis ++ renderNodeTest tree.nodeTest tree.axis ++
    renderPredicates tree.predicates

mutual

def render : PathTree → Text
  | ⟨nodeTest, axis, predicates, anchor, children, alternatives⟩ =>
    let step : PathTree := ⟨nodeTest, axis, predicates, anchor, [], []⟩
    -- A node that only joins its children has no step to write.
    (if step.hasStep || children.isEmpty then step.renderStep else []) ++
      renderChildren children ++ renderAlternatives alternatives

def renderChildren : List PathTree → Text
  | [] => []
  | child :: more => child.render ++ renderChildren more

def renderAlternatives : List PathTree → Text
  | [] => []
  | alternative :: more => " | ".toList ++ alternative.render ++ renderAlternatives more

end

theorem render_eq (tree : PathTree) :
    tree.render =
      (if tree.hasStep || tree.children.isEmpty then tree.renderStep else []) ++
        renderChildren tree.children ++ renderAlternatives tree.alternatives := by
  cases tree
  rw [render]
  rfl

theorem renderChildren_append (xs ys : List PathTree) :
    renderChildren (xs ++ ys) = renderChildren xs ++ renderChildren ys := by
  induction xs with
  | nil => simp [renderChildren]
  | cons x xs ih => simp [renderChildren, ih]

end PathTree

end SelectorXPath
