import SelectorXPath.Selector.Combinator

namespace SelectorXPath

inductive Fragment where
  | element (name : Text)
  | id (value : Text)
  | className (value : Text)
  | attr (name : Text) (operator value : Option Text)
  | filter (name : Text) (argument : Option Text)
  | link (kind : Combinator) (remainder : Text)
deriving DecidableEq, Repr

def Fragment.isLink : Fragment → Bool
  | .link _ _ => true
  | _ => false

end SelectorXPath
