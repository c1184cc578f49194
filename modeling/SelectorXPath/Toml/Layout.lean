import SelectorXPath.Text.Basic

namespace SelectorXPath

namespace Toml

def isSpace (c : Char) : Bool := c == ' ' || c == '\t'

def skipSpaces (t : Text) : Text := t.dropWhile isSpace

def isPlain (c : Char) : Bool :=
  c == '\t' || (0x20 ≤ c.toNat && c.toNat ≤ 0x7E) || 0x80 ≤ c.toNat

def readNewline : Text → Option Text
  | '\n' :: rest => some rest
  | '\r' :: '\n' :: rest => some rest
  | _ => none

def skipComment : Text → Text
  | '#' :: rest => rest.dropWhile isPlain
  | t => t

def readLineEnd (t : Text) : Option Text :=
  match skipComment (skipSpaces t) with
  | [] => some []
  | rest => readNewline rest

def skipFiller : Bool → Text → Text
  | _, [] => []
  | _, '\r' :: '\n' :: rest => skipFiller false rest
  | inComment, c :: rest =>
    if c = '\n' then skipFiller false rest
    else if inComment then
      if isPlain c then skipFiller true rest else c :: rest
    else if isSpace c then skipFiller false rest
    else if c = '#' then skipFiller true rest
    else c :: rest

theorem length_skipSpaces_le (t : Text) : (skipSpaces t).length ≤ t.length :=
  (List.dropWhile_suffix isSpace).length_le

theorem length_skipFiller_le (inComment : Bool) (t : Text) :
    (skipFiller inComment t).length ≤ t.length := by
  fun_induction skipFiller inComment t <;> simp only [List.length_cons, List.length_nil] at * <;>
    omega

end Toml

end SelectorXPath
