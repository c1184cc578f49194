import SelectorXPath.Text.Word
import SelectorXPath.Selector.Fragment

namespace SelectorXPath

namespace Grammar

abbrev Rule := Text → Option (Fragment × Text)

def readName (t : Text) : Option (Text × Text) :=
  match t.takeWhile isNameChar with
  | [] => none
  | name => some (name, t.dropWhile isNameChar)

def markedLink (kind : Combinator) : Rule := fun t =>
  match skipBlanks t with
  | [] => none
  | c :: rest => if c = kind.symbol then some (.link kind (skipBlanks rest), []) else none

def blankLink : Rule := fun t =>
  match leadingBlanks t, skipBlanks t with
  | _ :: _, c :: rest => some (.link .descendant (c :: rest), [])
  | _, _ => none

def cutAfterLast (mark : Char) : Text → Option (Text × Text)
  | [] => none
  | c :: rest =>
    match cutAfterLast mark rest with
    | some (before, after) => some (c :: before, after)
    | none => if c = mark then some ([c], rest) else none

def isOperatorChar (c : Char) : Bool :=
  !(isWordChar c || isBlank c || c == ']' || c == '\'' || c == '"')

def readOperator (t : Text) : Option (Text × Text) :=
  match cutAfterLast '=' (t.takeWhile isOperatorChar) with
  | some (operator, excess) => some (operator, excess ++ t.dropWhile isOperatorChar)
  | none => none

def readQuoted (quote close : Char) : Text → Option (Text × Text)
  | [] => none
  | c :: t =>
    if c = quote then
      match t.dropWhile (· != quote) with
      | [] => none
      | _ :: after =>
        match skipBlanks after with
        | [] => none
        | d :: rest => if d = close then some (t.takeWhile (· != quote), rest) else none
    else none

def readBare (stop : Char → Bool) (close : Char) (t : Text) : Option (Text × Text) :=
  match t.dropWhile (fun c => !stop c) with
  | [] => none
  | c :: rest => if c = close then some (trim (t.takeWhile (fun c => !stop c)), rest) else none

def readValue (t : Text) : Option (Text × Text) :=
  readQuoted '"' ']' t <|> readQuoted '\'' ']' t <|> readBare (· == ']') ']' t

def attributeRule : Rule := fun t =>
  match t with
  | '[' :: afterBracket =>
    match readName (skipBlanks afterBracket) with
    | none => none
    | some (name, afterName) =>
      match skipBlanks afterName with
      | ']' :: rest => some (.attr name none none, rest)
      | body =>
        match readOperator body with
        | none => none
        | some (operator, afterOperator) =>
          match readValue (skipBlanks afterOperator) with
          | none => none
          | some (value, rest) => some (.attr name (some operator) (some value), rest)
  | _ => none

def nonemptyArgument : Text × Text → Option Text × Text
  | ([], rest) => (none, rest)
  | (argument, rest) => (some argument, rest)

def readArgument (t : Text) : Option (Option Text × Text) :=
  ((readQuoted '"' ')' t).map fun r => (some r.1, r.2)) <|>
  ((readQuoted '\'' ')' t).map fun r => (some r.1, r.2)) <|>
  ((readBare (fun c => c == ')' || c == '\'' || c == '"') ')' t).map nonemptyArgument)

def filterRule : Rule := fun t =>
  match t with
  | ':' :: afterColon =>
    match readName afterColon with
    | none => none
    | some (name, '(' :: body) =>
      match readArgument (skipBlanks body) with
      | some (argument, rest) => some (.filter name argument, rest)
      | none => some (.filter name none, '(' :: body)
    | some (name, rest) => some (.filter name none, rest)
  | _ => none

def idRule : Rule := fun t =>
  match t with
  | '#' :: afterMark => (readName afterMark).map fun r => (.id r.1, r.2)
  | _ => none

def classRule : Rule := fun t =>
  match t with
  | '.' :: afterMark => (readName afterMark).map fun r => (.className r.1, r.2)
  | _ => none

def elementRule : Rule := fun t =>
  match t with
  | '*' :: rest => some (.element ['*'], rest)
  | _ => (readName t).map fun r => (.element r.1, r.2)

def rules : List Rule :=
  [markedLink .multiple, markedLink .child, markedLink .adjacent, markedLink .sibling,
    attributeRule, filterRule, idRule, classRule, elementRule, blankLink]

def firstMatch (t : Text) : Option (Fragment × Text) := rules.findSome? fun rule => rule t

theorem length_dropWhile_le (p : Char → Bool) (t : Text) :
    (t.dropWhile p).length ≤ t.length :=
  (List.dropWhile_suffix p).length_le

theorem readName_length_lt {t name rest : Text} (h : readName t = some (name, rest)) :
    rest.length < t.length := by
  unfold readName at h
  split at h
  · cases h
  · next hne =>
    cases h
    have happ := congrArg List.length (List.takeWhile_append_dropWhile (p := isNameChar) (l := t))
    have hpos : 0 < (t.takeWhile isNameChar).length := List.length_pos_iff.mpr hne
    simp only [List.length_append] at happ
    omega

theorem cutAfterLast_append {mark : Char} {t before after : Text}
    (h : cutAfterLast mark t = some (before, after)) : before ++ after = t := by
  induction t generalizing before with
  | nil => cases h
  | cons c rest ih =>
    simp only [cutAfterLast] at h
    split at h
    · next b a hcut =>
      cases h
      simp [ih hcut]
    · split at h
      · cases h; rfl
      · cases h

theorem readOperator_length_le {t operator rest : Text}
    (h : readOperator t = some (operator, rest)) : rest.length ≤ t.length := by
  unfold readOperator at h
  split at h
  · next op excess hcut =>
    cases h
    have hrun := congrArg List.length (cutAfterLast_append hcut)
    have happ :=
      congrArg List.length (List.takeWhile_append_dropWhile (p := isOperatorChar) (l := t))
    simp only [List.length_append] at hrun happ ⊢
    omega
  · cases h

theorem readQuoted_length_lt {quote close : Char} {t body rest : Text}
    (h : readQuoted quote close t = some (body, rest)) : rest.length < t.length := by
  cases t with
  | nil => cases h
  | cons c t =>
    simp only [readQuoted] at h
    split at h
    · split at h
      · cases h
      · next q after hdrop =>
        split at h
        · cases h
        · next d tail hskip =>
          split at h
          · cases h
            have h1 := length_dropWhile_le (· != quote) t
            have h2 := length_skipBlanks_le after
            rw [hdrop] at h1
            rw [hskip] at h2
            simp only [List.length_cons] at h1 h2 ⊢
            omega
          · cases h
    · cases h

theorem readBare_length_lt {stop : Char → Bool} {close : Char} {t body rest : Text}
    (h : readBare stop close t = some (body, rest)) : rest.length < t.length := by
  unfold readBare at h
  split at h
  · cases h
  · next c tail hdrop =>
    split at h
    · cases h
      have h1 := length_dropWhile_le (fun c => !stop c) t
      rw [hdrop] at h1
      simp only [List.length_cons] at h1
      omega
    · cases h

theorem readValue_length_lt {t value rest : Text} (h : readValue t = some (value, rest)) :
    rest.length < t.length := by
  simp only [readValue, Option.orElse_eq_orElse, Option.orElse_eq_or, Option.or_eq_some_iff] at h
  rcases h with h | ⟨-, h | ⟨-, h⟩⟩
  · exact readQuoted_length_lt h
  · exact readQuoted_length_lt h
  · exact readBare_length_lt h

theorem readArgument_length_lt {t rest : Text} {argument : Option Text}
    (h : readArgument t = some (argument, rest)) : rest.length < t.length := by
  simp only [readArgument, Option.orElse_eq_orElse, Option.orElse_eq_or, Option.or_eq_some_iff,
    Option.map_eq_some_iff] at h
  rcases h with ⟨r, h, he⟩ | ⟨-, ⟨r, h, he⟩ | ⟨-, r, h, he⟩⟩
  · cases he; exact readQuoted_length_lt h
  · cases he; exact readQuoted_length_lt h
  · have hrest : r.2 = rest := by
      obtain ⟨body, tail⟩ := r
      cases body <;> simp_all [nonemptyArgument]
    exact hrest ▸ readBare_length_lt h

theorem attributeRule_length_lt {t rest : Text} {fragment : Fragment}
    (h : attributeRule t = some (fragment, rest)) : rest.length < t.length := by
  unfold attributeRule at h
  split at h
  · next afterBracket =>
    split at h
    · cases h
    · next name afterName hname =>
      have h1 := readName_length_lt hname
      have h2 := length_skipBlanks_le afterBracket
      have h3 := length_skipBlanks_le afterName
      split at h
      · next tail hclose =>
        cases h
        rw [hclose] at h3
        simp only [List.length_cons] at h3 ⊢
        omega
      · split at h
        · cases h
        · next operator afterOperator hop =>
          have h4 := readOperator_length_le hop
          have h5 := length_skipBlanks_le afterOperator
          split at h
          · cases h
          · next value tail hvalue =>
            cases h
            have h6 := readValue_length_lt hvalue
            simp only [List.length_cons]
            omega
  · cases h

theorem filterRule_length_lt {t rest : Text} {fragment : Fragment}
    (h : filterRule t = some (fragment, rest)) : rest.length < t.length := by
  unfold filterRule at h
  split at h
  · next afterColon =>
    split at h
    · cases h
    · next name body hname =>
      have h1 := readName_length_lt hname
      have h2 := length_skipBlanks_le body
      simp only [List.length_cons] at h1 ⊢
      split at h
      · next argument tail harg =>
        cases h
        have h3 := readArgument_length_lt harg
        omega
      · cases h
        simp only [List.length_cons]
        omega
    · next name tail _ hname =>
      cases h
      have h1 := readName_length_lt hname
      simp only [List.length_cons]
      omega
  · cases h

theorem idRule_length_lt {t rest : Text} {fragment : Fragment}
    (h : idRule t = some (fragment, rest)) : rest.length < t.length := by
  unfold idRule at h
  split at h
  · obtain ⟨r, hname, he⟩ := Option.map_eq_some_iff.mp h
    cases he
    exact Nat.lt_succ_of_lt (readName_length_lt hname)
  · cases h

theorem classRule_length_lt {t rest : Text} {fragment : Fragment}
    (h : classRule t = some (fragment, rest)) : rest.length < t.length := by
  unfold classRule at h
  split at h
  · obtain ⟨r, hname, he⟩ := Option.map_eq_some_iff.mp h
    cases he
    exact Nat.lt_succ_of_lt (readName_length_lt hname)
  · cases h

theorem elementRule_length_lt {t rest : Text} {fragment : Fragment}
    (h : elementRule t = some (fragment, rest)) : rest.length < t.length := by
  unfold elementRule at h
  split at h
  · cases h
    simp
  · obtain ⟨r, hname, he⟩ := Option.map_eq_some_iff.mp h
    cases he
    exact readName_length_lt hname

theorem markedLink_length_lt {kind : Combinator} {t rest : Text} {fragment : Fragment}
    (h : markedLink kind t = some (fragment, rest)) : rest.length < t.length := by
  unfold markedLink at h
  split at h
  · cases h
  · next c tail hskip =>
    split at h
    · cases h
      have h1 := length_skipBlanks_le t
      rw [hskip] at h1
      simp only [List.length_cons, List.length_nil] at h1 ⊢
      omega
    · cases h

theorem blankLink_length_lt {t rest : Text} {fragment : Fragment}
    (h : blankLink t = some (fragment, rest)) : rest.length < t.length := by
  unfold blankLink at h
  split at h
  · next c tail _ hskip =>
    cases h
    have h1 := length_skipBlanks_le t
    rw [hskip] at h1
    simp only [List.length_cons, List.length_nil] at h1 ⊢
    omega
  · cases h

theorem firstMatch_length_lt {t rest : Text} {fragment : Fragment}
    (h : firstMatch t = some (fragment, rest)) : rest.length < t.length := by
  obtain ⟨rule, hmem, hrule⟩ := List.exists_of_findSome?_eq_some h
  simp only [rules, List.mem_cons, List.not_mem_nil, or_false] at hmem
  rcases hmem with rfl | rfl | rfl | rfl | rfl | rfl | rfl | rfl | rfl | rfl
  · exact markedLink_length_lt hrule
  · exact markedLink_length_lt hrule
  · exact markedLink_length_lt hrule
  · exact markedLink_length_lt hrule
  · exact attributeRule_length_lt hrule
  · exact filterRule_length_lt hrule
  · exact idRule_length_lt hrule
  · exact classRule_length_lt hrule
  · exact elementRule_length_lt hrule
  · exact blankLink_length_lt hrule

end Grammar

end SelectorXPath
