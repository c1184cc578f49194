import SelectorXPath.Text.Basic

namespace SelectorXPath

inductive Anchor where
  | relative
  | root
  | anywhere
deriving DecidableEq, Repr

namespace Anchor

def all : List Anchor := [.relative, .root, .anywhere]

def name : Anchor → Text
  | .relative => "relative".toList
  | .root => "root".toList
  | .anywhere => "anywhere".toList

def marker : Anchor → Text
  | .relative => []
  | .root => ['/']
  | .anywhere => ['/', '/']

def ofName? (t : Text) : Option Anchor := all.find? fun anchor => anchor.name == t

instance : Inhabited Anchor := ⟨.root⟩

theorem ofName?_name (anchor : Anchor) : ofName? anchor.name = some anchor := by
  cases anchor <;> decide

end Anchor

end SelectorXPath
