import SelectorXPath.Selector.Error
import SelectorXPath.Selector.Grammar

namespace SelectorXPath

open Grammar

inductive Halt where
  | unreadable (rest : Text)
  | dangling (kind : Combinator)
  | leading (kind : Combinator)
deriving DecidableEq, Repr

def scan (started : Bool) (t : Text) : Except Halt (List Fragment) :=
  match _h : firstMatch t with
  | none => if t = [] then .ok [] else .error (.unreadable t)
  | some (.link kind remainder, _) =>
    -- That nothing follows a link counts before that nothing stands in front of it.
    if remainder = [] then .error (.dangling kind)
    else if started then .ok [.link kind remainder]
    else .error (.leading kind)
  | some (fragment, rest) =>
    match scan true rest with
    | .ok more => .ok (fragment :: more)
    | .error halt => .error halt
termination_by t.length
decreasing_by exact firstMatch_length_lt (by assumption)

def residue : Text → Text
  | [] => []
  | c :: rest => c :: (if (firstMatch rest).isSome then [] else residue rest)

def parseSelector (selector : Text) : Except SelectorError (List Fragment) :=
  match scan false (trim selector) with
  | .ok fragments => .ok fragments
  | .error (.dangling kind) => .error (.danglingCombinator kind)
  | .error (.leading kind) => .error (.leadingCombinator kind)
  | .error (.unreadable rest) =>
    let position :=
      byteSize (leadingBlanks selector) + (byteSize (trim selector) - byteSize rest)
    .error (.grammar selector position (residue rest))

end SelectorXPath
