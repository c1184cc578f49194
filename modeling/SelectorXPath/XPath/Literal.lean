import SelectorXPath.Text.Basic

namespace SelectorXPath

def singleQuoted (t : Text) : Text := ['\''] ++ t ++ ['\'']

def doubleQuoted (t : Text) : Text := ['"'] ++ t ++ ['"']

def literal (t : Text) : Text :=
  if !t.contains '\'' then singleQuoted t
  else if !t.contains '"' then doubleQuoted t
  else
    "concat(".toList ++
      joinWith (", \"'\", ".toList) ((splitOnChar '\'' t).map singleQuoted) ++ [')']

end SelectorXPath
