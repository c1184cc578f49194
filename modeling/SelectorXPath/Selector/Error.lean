import SelectorXPath.Selector.Combinator

namespace SelectorXPath

def maxLinks : Nat := 256

inductive ArgumentFault where
  | missing
  | unexpected
deriving DecidableEq, Repr

def ArgumentFault.message : ArgumentFault → Text
  | .missing => "expected text to search for".toList
  | .unexpected => "takes no argument".toList

inductive SelectorError where
  | grammar (input : Text) (position : Nat) (residue : Text)
  | unsupportedOperator (name operator : Text)
  | unsupportedFilter (name : Text)
  | unsupportedCombinator (kind : Combinator)
  | danglingCombinator (kind : Combinator)
  | leadingCombinator (kind : Combinator)
  | tooDeep
  | filterArgument (name : Text) (fault : ArgumentFault)
deriving DecidableEq, Repr

namespace SelectorError

def message : SelectorError → Text
  | .grammar input position residue =>
    "Unexpected '".toList ++ residue ++ "' at position ".toList ++ decimal position ++
      " in '".toList ++ input ++ "'".toList
  | .unsupportedOperator name operator =>
    "Unsupported attribute operator '".toList ++ operator ++ "' on [".toList ++ name ++
      "]".toList
  | .unsupportedFilter name => "Unsupported filter ':".toList ++ name ++ "'".toList
  | .unsupportedCombinator kind => "Unsupported combinator ".toList ++ kind.display
  | .danglingCombinator kind => "Expected a selector after combinator ".toList ++ kind.display
  | .leadingCombinator kind => "Expected a selector before combinator ".toList ++ kind.display
  | .tooDeep => "Selector nests more than ".toList ++ decimal maxLinks ++ " combinators".toList
  | .filterArgument name fault =>
    "Invalid argument for ':".toList ++ name ++ "': ".toList ++ fault.message

section

variable (name operator input residue : Text) (position : Nat) (kind : Combinator)
  (fault : ArgumentFault)

@[simp] theorem message_grammar :
    (grammar input position residue).message =
      "Unexpected '".toList ++ residue ++ "' at position ".toList ++ decimal position ++
        " in '".toList ++ input ++ "'".toList := rfl

@[simp] theorem message_unsupportedOperator :
    (unsupportedOperator name operator).message =
      "Unsupported attribute operator '".toList ++ operator ++ "' on [".toList ++ name ++
        "]".toList := rfl

@[simp] theorem message_unsupportedFilter :
    (unsupportedFilter name).message = "Unsupported filter ':".toList ++ name ++ "'".toList := rfl

@[simp] theorem message_unsupportedCombinator :
    (unsupportedCombinator kind).message = "Unsupported combinator ".toList ++ kind.display := rfl

@[simp] theorem message_danglingCombinator :
    (danglingCombinator kind).message =
      "Expected a selector after combinator ".toList ++ kind.display := rfl

@[simp] theorem message_leadingCombinator :
    (leadingCombinator kind).message =
      "Expected a selector before combinator ".toList ++ kind.display := rfl

@[simp] theorem message_tooDeep :
    tooDeep.message =
      "Selector nests more than ".toList ++ decimal maxLinks ++ " combinators".toList := rfl

@[simp] theorem message_filterArgument :
    (filterArgument name fault).message =
      "Invalid argument for ':".toList ++ name ++ "': ".toList ++ fault.message := rfl

end

end SelectorError

end SelectorXPath
