import SelectorXPath.Text.Basic

namespace SelectorXPath

def isComment : Text → Bool
  | ['#'] => true
  | '#' :: c :: _ => isBlank c
  | _ => false

def selectorsOf (content : Text) : List Text :=
  ((splitOnChar '\n' content).map trim).filter fun line => !line.isEmpty && !isComment line

end SelectorXPath
