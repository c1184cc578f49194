import SelectorXPath.Text.Basic

namespace SelectorXPath

inductive Json where
  | null
  | str (value : Text)
  | arr (items : List Json)
  | obj (members : List (Text × Json))
deriving Repr

namespace Json

def ofOption : Option Text → Json
  | some t => .str t
  | none => .null

def escapeChar (c : Char) : Text :=
  if c = '"' then ['\\', '"']
  else if c = '\\' then ['\\', '\\']
  else if c = '\n' then ['\\', 'n']
  else if c = '\r' then ['\\', 'r']
  else if c = '\t' then ['\\', 't']
  else if c.toNat = 0x08 then ['\\', 'b']
  else if c.toNat = 0x0C then ['\\', 'f']
  else if c.toNat < 0x20 then
    ['\\', 'u', '0', '0', Nat.digitChar (c.toNat / 16), Nat.digitChar (c.toNat % 16)]
  else [c]

def quote (t : Text) : Text := ['"'] ++ t.flatMap escapeChar ++ ['"']

def newline (level : Nat) : Text := '\n' :: List.replicate (2 * level) ' '

mutual

def render (level : Nat) : Json → Text
  | .null => "null".toList
  | .str t => quote t
  | .arr [] => "[]".toList
  | .arr (item :: more) =>
    ['['] ++ newline (level + 1) ++ render (level + 1) item ++ renderItems (level + 1) more ++
      newline level ++ [']']
  | .obj [] => "\x7b\x7d".toList
  | .obj ((key, value) :: more) =>
    ['\x7b'] ++ newline (level + 1) ++ quote key ++ ": ".toList ++ render (level + 1) value ++
      renderMembers (level + 1) more ++ newline level ++ ['\x7d']

def renderItems (level : Nat) : List Json → Text
  | [] => []
  | item :: more => [','] ++ newline level ++ render level item ++ renderItems level more

def renderMembers (level : Nat) : List (Text × Json) → Text
  | [] => []
  | (key, value) :: more =>
    [','] ++ newline level ++ quote key ++ ": ".toList ++ render level value ++
      renderMembers level more

end

def pretty (json : Json) : Text := json.render 0

end Json

end SelectorXPath
