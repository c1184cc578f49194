import SelectorXPath.Text.Blank

namespace SelectorXPath

abbrev Text := List Char

abbrev Bytes := List UInt8

def skipBlanks (t : Text) : Text := t.dropWhile isBlank

def leadingBlanks (t : Text) : Text := t.takeWhile isBlank

def trimEnd (t : Text) : Text := (t.reverse.dropWhile isBlank).reverse

def trim (t : Text) : Text := trimEnd (skipBlanks t)

def byteSize : Text → Nat
  | [] => 0
  | c :: rest => c.utf8Size + byteSize rest

def decimal (n : Nat) : Text := Nat.toDigits 10 n

def joinWith (separator : Text) : List Text → Text
  | [] => []
  | [t] => t
  | t :: more => t ++ separator ++ joinWith separator more

def splitOnChar (mark : Char) : Text → List Text
  | [] => [[]]
  | c :: rest =>
    if c = mark then [] :: splitOnChar mark rest
    else match splitOnChar mark rest with
      | piece :: more => (c :: piece) :: more
      | [] => [[c]]

theorem leadingBlanks_append_skipBlanks (t : Text) : leadingBlanks t ++ skipBlanks t = t :=
  List.takeWhile_append_dropWhile

theorem length_skipBlanks_le (t : Text) : (skipBlanks t).length ≤ t.length :=
  (List.dropWhile_suffix isBlank).length_le

theorem byteSize_append (s t : Text) : byteSize (s ++ t) = byteSize s + byteSize t := by
  induction s with
  | nil => simp [byteSize]
  | cons c rest ih => simp [byteSize, ih, Nat.add_assoc]

theorem splitOnChar_ne_nil (mark : Char) (t : Text) : splitOnChar mark t ≠ [] := by
  cases t with
  | nil => simp [splitOnChar]
  | cons c rest =>
    rw [splitOnChar]
    split
    · simp
    · split <;> simp

theorem joinWith_splitOnChar (mark : Char) (t : Text) :
    joinWith [mark] (splitOnChar mark t) = t := by
  induction t with
  | nil => rfl
  | cons c rest ih =>
    rw [splitOnChar]
    have hne := splitOnChar_ne_nil mark rest
    cases hs : splitOnChar mark rest with
    | nil => exact absurd hs hne
    | cons piece more =>
      rw [hs] at ih
      by_cases hc : c = mark
      · simp [hc, joinWith, ih]
      · cases more with
        | nil => simpa [hc, joinWith] using ih
        | cons next more => simpa [hc, joinWith] using ih

end SelectorXPath
