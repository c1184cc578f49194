import SelectorXPath.Text.Basic

namespace SelectorXPath

inductive Combinator where
  | multiple
  | child
  | adjacent
  | sibling
  | descendant
deriving DecidableEq, Repr

namespace Combinator

def all : List Combinator := [.multiple, .child, .adjacent, .sibling, .descendant]

def name : Combinator → Text
  | .multiple => "multiple".toList
  | .child => "child".toList
  | .adjacent => "adjacent".toList
  | .sibling => "sibling".toList
  | .descendant => "descendant".toList

def symbol : Combinator → Char
  | .multiple => ','
  | .child => '>'
  | .adjacent => '+'
  | .sibling => '~'
  | .descendant => ' '

def display : Combinator → Text
  | .descendant => "descendant (whitespace)".toList
  | kind => ['\'', kind.symbol, '\'']

def ofName? (t : Text) : Option Combinator := all.find? fun kind => kind.name == t

theorem ofName?_name (kind : Combinator) : ofName? kind.name = some kind := by
  cases kind <;> decide

end Combinator

end SelectorXPath
