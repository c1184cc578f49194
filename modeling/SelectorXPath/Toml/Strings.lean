import SelectorXPath.Toml.Layout

namespace SelectorXPath

namespace Toml

def hexValue (c : Char) : Option Nat :=
  if '0' ≤ c && c ≤ '9' then some (c.toNat - 48)
  else if 'a' ≤ c && c ≤ 'f' then some (c.toNat - 87)
  else if 'A' ≤ c && c ≤ 'F' then some (c.toNat - 55)
  else none

def hexNumber (digits : Text) : Option Nat :=
  digits.foldl (fun n c => n.bind fun n => (hexValue c).map fun d => 16 * n + d) (some 0)

def scalarOf (digits : Text) : Option Char :=
  match hexNumber digits with
  | none => none
  | some n => if n.isValidChar then some (Char.ofNat n) else none

def escaped (c : Char) : Option Char :=
  if c = '"' then some '"'
  else if c = '\\' then some '\\'
  else if c = 'b' then some (Char.ofNat 8)
  else if c = 't' then some '\t'
  else if c = 'n' then some '\n'
  else if c = 'f' then some (Char.ofNat 12)
  else if c = 'r' then some '\r'
  else none

def readEscape : Text → Option (Char × Text)
  | 'u' :: a :: b :: c :: d :: rest => (scalarOf [a, b, c, d]).map fun x => (x, rest)
  | 'U' :: a :: b :: c :: d :: e :: f :: g :: h :: rest =>
    (scalarOf [a, b, c, d, e, f, g, h]).map fun x => (x, rest)
  | c :: rest => (escaped c).map fun x => (x, rest)
  | [] => none

theorem readEscape_length_lt {t rest : Text} {c : Char} (h : readEscape t = some (c, rest)) :
    rest.length < t.length := by
  unfold readEscape at h
  split at h
  · obtain ⟨x, -, he⟩ := Option.map_eq_some_iff.mp h
    cases he; simp only [List.length_cons]; omega
  · obtain ⟨x, -, he⟩ := Option.map_eq_some_iff.mp h
    cases he; simp only [List.length_cons]; omega
  · obtain ⟨x, -, he⟩ := Option.map_eq_some_iff.mp h
    cases he; simp only [List.length_cons]; omega
  · cases h

def readBasic (t : Text) : Option (Text × Text) :=
  match t with
  | [] => none
  | c :: rest =>
    if c = '"' then some ([], rest)
    else if c = '\\' then
      match _h : readEscape rest with
      | none => none
      | some (x, rest') => (readBasic rest').map fun r => (x :: r.1, r.2)
    else if isPlain c then (readBasic rest).map fun r => (c :: r.1, r.2)
    else none
termination_by t.length
decreasing_by
  · exact Nat.lt_succ_of_lt (readEscape_length_lt _h)
  · exact Nat.lt_succ_self _

def readLiteral : Text → Option (Text × Text)
  | [] => none
  | c :: rest =>
    if c = '\'' then some ([], rest)
    else if isPlain c then (readLiteral rest).map fun r => (c :: r.1, r.2)
    else none

def closeMulti (quote : Char) : Text → Text × Text
  | a :: b :: rest =>
    if a = quote then
      if b = quote then ([quote, quote], rest) else ([quote], b :: rest)
    else ([], a :: b :: rest)
  | [a] => if a = quote then ([quote], []) else ([], [a])
  | [] => ([], [])

def startsWithTwo (quote : Char) : Text → Bool
  | a :: b :: _ => a == quote && b == quote
  | _ => false

def skipFold : Text → Text
  | '\r' :: '\n' :: rest => skipFold rest
  | c :: rest => if isSpace c || c == '\n' then skipFold rest else c :: rest
  | [] => []

theorem length_skipFold_le (t : Text) : (skipFold t).length ≤ t.length := by
  fun_induction skipFold t <;> simp only [List.length_cons, List.length_nil] at * <;> omega

def readFold (t : Text) : Option (Text × Text) :=
  match readNewline (skipSpaces t) with
  | some rest => some ([], skipFold rest)
  | none => (readEscape t).map fun r => ([r.1], r.2)

theorem readNewline_length_lt {t rest : Text} (h : readNewline t = some rest) :
    rest.length < t.length := by
  unfold readNewline at h
  split at h
  · cases h; simp
  · cases h; simp only [List.length_cons]; omega
  · cases h

theorem readFold_length_lt {t kept rest : Text} (h : readFold t = some (kept, rest)) :
    rest.length < t.length := by
  unfold readFold at h
  split at h
  · next tail hline =>
    cases h
    have h1 := readNewline_length_lt hline
    have h2 := length_skipSpaces_le t
    have h3 := length_skipFold_le tail
    omega
  · obtain ⟨r, hr, he⟩ := Option.map_eq_some_iff.mp h
    cases he
    exact readEscape_length_lt hr

def readMultiBasic (t : Text) : Option (Text × Text) :=
  match t with
  | [] => none
  | '\r' :: '\n' :: rest => (readMultiBasic rest).map fun r => ('\n' :: r.1, r.2)
  | c :: rest =>
    if c = '"' then
      if startsWithTwo '"' rest then some (closeMulti '"' (rest.drop 2))
      else (readMultiBasic rest).map fun r => ('"' :: r.1, r.2)
    else if c = '\\' then
      match _h : readFold rest with
      | none => none
      | some (kept, rest') => (readMultiBasic rest').map fun r => (kept ++ r.1, r.2)
    else if isPlain c || c == '\n' then (readMultiBasic rest).map fun r => (c :: r.1, r.2)
    else none
termination_by t.length
decreasing_by
  · exact Nat.lt_succ_of_lt (Nat.lt_succ_self _)
  · exact Nat.lt_succ_self _
  · exact Nat.lt_succ_of_lt (readFold_length_lt _h)
  · exact Nat.lt_succ_self _

def readMultiLiteral : Text → Option (Text × Text)
  | [] => none
  | '\r' :: '\n' :: rest => (readMultiLiteral rest).map fun r => ('\n' :: r.1, r.2)
  | c :: rest =>
    if c = '\'' then
      if startsWithTwo '\'' rest then some (closeMulti '\'' (rest.drop 2))
      else (readMultiLiteral rest).map fun r => ('\'' :: r.1, r.2)
    else if isPlain c || c == '\n' then (readMultiLiteral rest).map fun r => (c :: r.1, r.2)
    else none

def dropFirstNewline (t : Text) : Text := (readNewline t).getD t

def readString : Text → Option (Text × Text)
  | '"' :: '"' :: '"' :: rest => readMultiBasic (dropFirstNewline rest)
  | '"' :: rest => readBasic rest
  | '\'' :: '\'' :: '\'' :: rest => readMultiLiteral (dropFirstNewline rest)
  | '\'' :: rest => readLiteral rest
  | _ => none

def isBareKeyChar (c : Char) : Bool := c.isAlphanum || c == '_' || c == '-'

def readKey : Text → Option (Text × Text)
  | '"' :: rest => readBasic rest
  | '\'' :: rest => readLiteral rest
  | t =>
    match t.takeWhile isBareKeyChar with
    | [] => none
    | key => some (key, t.dropWhile isBareKeyChar)

def maxKeys : Nat := 79

def readKeyPath : Nat → Text → Option (List Text × Text)
  | 0, _ => none
  | room + 1, t =>
    match readKey t with
    | none => none
    | some (key, rest) =>
      match skipSpaces rest with
      | '.' :: more => (readKeyPath room (skipSpaces more)).map fun r => (key :: r.1, r.2)
      | rest' => some ([key], rest')

end Toml

end SelectorXPath
