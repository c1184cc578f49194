import SelectorXPath.XPath.Literal

namespace SelectorXPath

inductive Predicate where
  | has (name : Text)
  | equals (name value : Text)
  | differs (name value : Text)
  | hasClass (name : Text)
  | textContains (text : Text)
  | verbatim (expression : Text)
deriving DecidableEq, Repr

namespace Predicate

def render : Predicate → Text
  | .has name => '@' :: name
  | .equals name value => '@' :: name ++ ['='] ++ literal value
  | .differs name value => '@' :: name ++ " != ".toList ++ literal value
  | .hasClass name =>
    "contains(concat(' ', normalize-space(@class), ' '), ".toList ++
      literal ([' '] ++ name ++ [' ']) ++ [')']
  | .textContains text => "contains(text(), ".toList ++ literal text ++ [')']
  | .verbatim expression => expression

section

variable (name value : Text)

@[simp] theorem render_has : (has name).render = '@' :: name := rfl

@[simp] theorem render_equals :
    (equals name value).render = '@' :: name ++ ['='] ++ literal value := rfl

@[simp] theorem render_differs :
    (differs name value).render = '@' :: name ++ " != ".toList ++ literal value := rfl

@[simp] theorem render_hasClass :
    (hasClass name).render =
      "contains(concat(' ', normalize-space(@class), ' '), ".toList ++
        literal ([' '] ++ name ++ [' ']) ++ [')'] := rfl

@[simp] theorem render_textContains :
    (textContains value).render = "contains(text(), ".toList ++ literal value ++ [')'] := rfl

end

end Predicate

end SelectorXPath
