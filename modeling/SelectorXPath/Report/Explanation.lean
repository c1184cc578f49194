import SelectorXPath.Json.Value
import SelectorXPath.XPath.OfSelector

namespace SelectorXPath

def Fragment.toJson : Fragment → Json
  | .element name =>
    .obj [("type".toList, .str "element".toList), ("name".toList, .str name)]
  | .id value => .obj [("type".toList, .str "id".toList), ("value".toList, .str value)]
  | .className value =>
    .obj [("type".toList, .str "class_name".toList), ("value".toList, .str value)]
  | .attr name operator value =>
    .obj [("type".toList, .str "attribute".toList), ("name".toList, .str name),
      ("operator".toList, .ofOption operator), ("value".toList, .ofOption value)]
  | .filter name argument =>
    .obj [("type".toList, .str "filter".toList), ("name".toList, .str name),
      ("argument".toList, .ofOption argument)]
  | .link kind remainder =>
    .obj [("type".toList, .str "combinator".toList), ("kind".toList, .str kind.name),
      ("remainder".toList, .str remainder)]

namespace PathTree

mutual

def toJson : PathTree → Json
  | ⟨nodeTest, axis, predicates, anchor, children, alternatives⟩ =>
    .obj [("node_test".toList, .ofOption nodeTest), ("axis".toList, .ofOption axis),
      ("predicates".toList, .arr (predicates.map fun p => .str p.render)),
      ("root_mode".toList, .str anchor.name), ("children".toList, .arr (toJsonList children)),
      ("alternatives".toList, .arr (toJsonList alternatives))]

def toJsonList : List PathTree → List Json
  | [] => []
  | tree :: more => tree.toJson :: toJsonList more

end

end PathTree

structure Explanation where
  selector : Text
  fragments : List Fragment
  tree : PathTree
  xpath : Text
deriving Repr

namespace Explanation

def ofSelector (selector : Text) (anchor : Anchor) : Except SelectorError Explanation :=
  match parseSelector selector with
  | .error e => .error e
  | .ok fragments =>
    match PathTree.ofFragments fragments anchor with
    | .error e => .error e
    | .ok tree => .ok ⟨selector, fragments, tree, tree.render⟩

def toJson (explanation : Explanation) : Json :=
  .obj [("selector".toList, .str explanation.selector),
    ("fragments".toList, .arr (explanation.fragments.map Fragment.toJson)),
    ("tree".toList, explanation.tree.toJson), ("xpath".toList, .str explanation.xpath)]

end Explanation

end SelectorXPath
