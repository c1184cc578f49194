import SelectorXPath.Proofs.UniqueReading

namespace SelectorXPath

inductive JsonValue where
  | null
  | bool (truth : Bool)
  | number (lexeme : Text)
  | str (value : Text)
  | arr (items : List JsonValue)
  | obj (members : List (Text × JsonValue))

namespace JsonGrammar

def isSpace (c : Char) : Bool := c == ' ' || c == '\t' || c == '\n' || c == '\r'

def Spaces (w : Text) : Prop := ∀ c ∈ w, isSpace c = true

instance (w : Text) : Decidable (Spaces w) := List.decidableBAll _ w

def hexDigit? (c : Char) : Option Nat :=
  if '0' ≤ c ∧ c ≤ '9' then some (c.toNat - 48)
  else if 'a' ≤ c ∧ c ≤ 'f' then some (c.toNat - 87)
  else if 'A' ≤ c ∧ c ≤ 'F' then some (c.toNat - 55)
  else none

inductive SpellsUnit : Nat → Text → Prop
  | mk {a b c d : Char} {w x y z : Nat} : hexDigit? a = some w → hexDigit? b = some x →
      hexDigit? c = some y → hexDigit? d = some z →
      SpellsUnit (((w * 16 + x) * 16 + y) * 16 + z) ['\\', 'u', a, b, c, d]

def isHigh (unit : Nat) : Bool := 0xD800 ≤ unit && unit < 0xDC00

def isLow (unit : Nat) : Bool := 0xDC00 ≤ unit && unit < 0xE000

inductive SpellsCode : Nat → Text → Prop
  | unit {n t} : SpellsUnit n t → isHigh n = false → isLow n = false → SpellsCode n t
  | pair {m n t u} : SpellsUnit m t → SpellsUnit n u → isHigh m = true → isLow n = true →
      SpellsCode (0x10000 + (m - 0xD800) * 0x400 + (n - 0xDC00)) (t ++ u)

def shortEscapes : List (Char × Char) :=
  [('"', '"'), ('\\', '\\'), ('/', '/'), ('b', '\x08'), ('f', '\x0C'), ('n', '\n'), ('r', '\r'),
    ('t', '\t')]

inductive SpellsChar : Char → Text → Prop
  | plain {c} : 0x20 ≤ c.toNat → c ≠ '"' → c ≠ '\\' → SpellsChar c [c]
  | escape {mark c} : (mark, c) ∈ shortEscapes → SpellsChar c ['\\', mark]
  | code {c t} : SpellsCode c.toNat t → SpellsChar c t

inductive SpellsChars : Text → Text → Prop
  | nil : SpellsChars [] []
  | cons {c s t u} : SpellsChar c t → SpellsChars s u → SpellsChars (c :: s) (t ++ u)

inductive SpellsString : Text → Text → Prop
  | mk {s body} : SpellsChars s body → SpellsString s ('"' :: (body ++ ['"']))

def Digits (t : Text) : Prop := t ≠ [] ∧ ∀ c ∈ t, c.isDigit = true

inductive IsInteger : Text → Prop
  | zero : IsInteger ['0']
  | digits {c t} : c ≠ '0' → Digits (c :: t) → IsInteger (c :: t)

inductive IsFraction : Text → Prop
  | none : IsFraction []
  | digits {t} : Digits t → IsFraction ('.' :: t)

inductive IsExponent : Text → Prop
  | none : IsExponent []
  | digits {mark sign t} : mark = 'e' ∨ mark = 'E' → sign ∈ [[], ['+'], ['-']] → Digits t →
      IsExponent (mark :: (sign ++ t))

inductive IsNumber : Text → Prop
  | mk {sign int fraction exponent} : sign ∈ [[], ['-']] → IsInteger int → IsFraction fraction →
      IsExponent exponent → IsNumber (sign ++ (int ++ (fraction ++ exponent)))

def truthWord : Bool → Text
  | true => "true".toList
  | false => "false".toList

section Productions

variable {α : Type}

inductive Padded (entry : α → Text → Prop) : α → Text → Prop
  | mk {w₁ w₂ a t} : Spaces w₁ → entry a t → Spaces w₂ → Padded entry a (w₁ ++ (t ++ w₂))

inductive Row (entry : α → Text → Prop) : List α → Text → Prop
  | empty {w} : Spaces w → Row entry [] w
  | last {a t} : Padded entry a t → Row entry [a] t
  | more {a b rest t u} : Padded entry a t → Row entry (b :: rest) u →
      Row entry (a :: b :: rest) (t ++ ',' :: u)

inductive Member (entry : α → Text → Prop) : Text × α → Text → Prop
  | mk {key a s t w₁ w₂} : SpellsString key s → Spaces w₁ → Spaces w₂ → entry a t →
      Member entry (key, a) (s ++ (w₁ ++ ':' :: (w₂ ++ t)))

end Productions

inductive Denotes : JsonValue → Text → Prop
  | null : Denotes .null "null".toList
  | bool {truth} : Denotes (.bool truth) (truthWord truth)
  | number {t} : IsNumber t → Denotes (.number t) t
  | str {s t} : SpellsString s t → Denotes (.str s) t
  | arr {items t} : Row Denotes items t → Denotes (.arr items) ('[' :: (t ++ [']']))
  | obj {members t} : Row (Member Denotes) members t →
      Denotes (.obj members) ('\x7b' :: (t ++ ['\x7d']))

def Document : JsonValue → Text → Prop := Padded Denotes

def Unambiguous {α : Type} (denotes : α → Text → Prop) (follows : Text → Prop) : Prop :=
  ∀ ⦃a b t u r s⦄, denotes a t → denotes b u → follows r → follows s → t ++ r = u ++ s →
    a = b ∧ r = s

section Strings

theorem spellsUnit_unambiguous : Unambiguous SpellsUnit fun _ => True := by
  rintro m n _ _ r s ⟨ha, hb, hc, hd⟩ ⟨ha', hb', hc', hd'⟩ - - h
  simp only [List.cons_append, List.nil_append, List.cons.injEq, true_and] at h
  obtain ⟨rfl, rfl, rfl, rfl, rfl⟩ := h
  rw [ha] at ha'
  rw [hb] at hb'
  rw [hc] at hc'
  rw [hd] at hd'
  cases ha'
  cases hb'
  cases hc'
  cases hd'
  exact ⟨rfl, rfl⟩

theorem SpellsUnit.exists_eq {n : Nat} {t : Text} (h : SpellsUnit n t) :
    ∃ u, t = '\\' :: 'u' :: u := by
  cases h with
  | mk => exact ⟨_, rfl⟩

theorem spellsCode_unambiguous : Unambiguous SpellsCode fun _ => True := by
  intro m n t u r s ht hu _ _ h
  cases ht with
  | unit ht hhigh hlow =>
    cases hu with
    | unit hu => exact spellsUnit_unambiguous ht hu trivial trivial h
    | pair hu hv hhigh' =>
      rw [List.append_assoc] at h
      obtain ⟨rfl, -⟩ := spellsUnit_unambiguous ht hu trivial trivial h
      rw [hhigh] at hhigh'
      cases hhigh'
  | pair ht hv hhigh hlow =>
    rw [List.append_assoc] at h
    cases hu with
    | unit hu hhigh' =>
      obtain ⟨rfl, -⟩ := spellsUnit_unambiguous ht hu trivial trivial h
      rw [hhigh] at hhigh'
      cases hhigh'
    | pair hu hw =>
      rw [List.append_assoc] at h
      obtain ⟨rfl, h⟩ := spellsUnit_unambiguous ht hu trivial trivial h
      obtain ⟨rfl, rfl⟩ := spellsUnit_unambiguous hv hw trivial trivial h
      exact ⟨rfl, rfl⟩

theorem SpellsCode.exists_eq {n : Nat} {t : Text} (h : SpellsCode n t) :
    ∃ u, t = '\\' :: 'u' :: u := by
  cases h with
  | unit h => exact h.exists_eq
  | pair h =>
    obtain ⟨u, rfl⟩ := h.exists_eq
    exact ⟨_, rfl⟩

theorem shortEscapes_unambiguous :
    ∀ p ∈ shortEscapes, p.1 ≠ 'u' ∧ ∀ q ∈ shortEscapes, p.1 = q.1 → p.2 = q.2 := by
  decide

theorem spellsChar_unambiguous : Unambiguous SpellsChar fun _ => True := by
  intro c d t u r s ht hu _ _ h
  cases ht with
  | plain _ _ hc =>
    cases hu with
    | plain => exact List.cons.inj h
    | escape => exact absurd (List.cons.inj h).1 hc
    | code hu =>
      obtain ⟨u, rfl⟩ := hu.exists_eq
      exact absurd (List.cons.inj h).1 hc
  | escape hmem =>
    obtain ⟨hmark, hescape⟩ := shortEscapes_unambiguous _ hmem
    cases hu with
    | plain _ _ hd => exact absurd (List.cons.inj h).1.symm hd
    | escape hmem' =>
      obtain ⟨hmarks, hrs⟩ := List.cons.inj (List.cons.inj h).2
      exact ⟨hescape _ hmem' hmarks, hrs⟩
    | code hu =>
      obtain ⟨u, rfl⟩ := hu.exists_eq
      exact absurd (List.cons.inj (List.cons.inj h).2).1 hmark
  | code ht =>
    cases hu with
    | plain _ _ hd =>
      obtain ⟨t, rfl⟩ := ht.exists_eq
      exact absurd (List.cons.inj h).1.symm hd
    | escape hmem =>
      obtain ⟨t, rfl⟩ := ht.exists_eq
      exact absurd (List.cons.inj (List.cons.inj h).2).1.symm (shortEscapes_unambiguous _ hmem).1
    | code hu =>
      obtain ⟨hcd, hrs⟩ := spellsCode_unambiguous ht hu trivial trivial h
      exact ⟨Char.toNat_inj.mp hcd, hrs⟩

theorem SpellsChar.ne_quote {c : Char} {t : Text} (h : SpellsChar c t) (r s : Text) :
    t ++ r ≠ '"' :: s := by
  cases h with
  | plain _ hc => exact fun heq => hc (List.cons.inj heq).1
  | escape => simp
  | code h =>
    obtain ⟨u, rfl⟩ := h.exists_eq
    simp

theorem spellsChars_unambiguous : Unambiguous SpellsChars fun r => ∃ s, r = '"' :: s := by
  intro a b t u r s ht hu hr hs h
  obtain ⟨r, rfl⟩ := hr
  obtain ⟨s, rfl⟩ := hs
  induction ht generalizing b u with
  | nil =>
    cases hu with
    | nil => exact ⟨rfl, h⟩
    | cons hd =>
      rw [List.append_assoc] at h
      exact absurd h.symm (hd.ne_quote _ _)
  | cons hc _ ih =>
    rw [List.append_assoc] at h
    cases hu with
    | nil => exact absurd h (hc.ne_quote _ _)
    | cons hd hu =>
      rw [List.append_assoc] at h
      obtain ⟨rfl, hmore⟩ := spellsChar_unambiguous hc hd trivial trivial h
      obtain ⟨rfl, hrs⟩ := ih hu hmore
      exact ⟨rfl, hrs⟩

theorem spellsString_unambiguous : Unambiguous SpellsString fun _ => True := by
  rintro a b _ _ r s ⟨ht⟩ ⟨hu⟩ - - h
  simp only [List.cons_append, List.append_assoc, List.cons.injEq, true_and] at h
  obtain ⟨hab, hrs⟩ := spellsChars_unambiguous ht hu ⟨r, rfl⟩ ⟨s, rfl⟩ h
  exact ⟨hab, (List.cons.inj hrs).2⟩

end Strings

section Starts

inductive Form where
  | null
  | bool
  | number
  | str
  | arr
  | obj

def isNumberChar (c : Char) : Bool := c.isDigit || ['-', '+', '.', 'e', 'E'].contains c

def formAt (c : Char) : Option Form :=
  if c = '"' then some .str
  else if c = '[' then some .arr
  else if c = '\x7b' then some .obj
  else if c = 'n' then some .null
  else if c = 't' ∨ c = 'f' then some .bool
  else if isNumberChar c then some .number
  else none

def form : JsonValue → Form
  | .null => .null
  | .bool _ => .bool
  | .number _ => .number
  | .str _ => .str
  | .arr _ => .arr
  | .obj _ => .obj

def Opens (f : Form) (t : Text) : Prop := ∃ c u, t = c :: u ∧ formAt c = some f

theorem Opens.eq {f g : Form} {t u r s : Text} (ht : Opens f t) (hu : Opens g u)
    (h : t ++ r = u ++ s) : f = g := by
  obtain ⟨c, t, rfl, hf⟩ := ht
  obtain ⟨d, u, rfl, hg⟩ := hu
  obtain rfl := (List.cons.inj h).1
  rw [hf] at hg
  exact Option.some.inj hg

theorem Opens.ne_cons {f : Form} {t : Text} (ht : Opens f t) {c : Char} (hc : formAt c = none)
    (r s : Text) : t ++ r ≠ c :: s := by
  obtain ⟨d, t, rfl, hd⟩ := ht
  intro h
  rw [(List.cons.inj h).1, hc] at hd
  cases hd

theorem formAt_of_isSpace {c : Char} (h : isSpace c = true) :
    formAt c = none ∧ isNumberChar c = false := by
  simp only [isSpace, Bool.or_eq_true, beq_iff_eq] at h
  rcases h with ((rfl | rfl) | rfl) | rfl <;> decide

theorem Opens.startsOff {f : Form} {t : Text} (ht : Opens f t) (r : Text) :
    StartsOff isSpace (t ++ r) := by
  obtain ⟨c, t, rfl, hc⟩ := ht
  refine startsOff_cons (Bool.eq_false_iff.mpr fun hspace => ?_) _
  rw [(formAt_of_isSpace hspace).1] at hc
  cases hc

theorem formAt_of_isNumberChar {c : Char} (h : isNumberChar c = true) :
    formAt c = some .number := by
  have hne {d : Char} (hd : isNumberChar d = false) : c ≠ d := by
    rintro rfl
    rw [hd] at h
    cases h
  have hquote : c ≠ '"' := hne (by decide)
  have hbracket : c ≠ '[' := hne (by decide)
  have hbrace : c ≠ '\x7b' := hne (by decide)
  have hn : c ≠ 'n' := hne (by decide)
  have ht : c ≠ 't' := hne (by decide)
  have hf : c ≠ 'f' := hne (by decide)
  simp [formAt, h, hquote, hbracket, hbrace, hn, ht, hf]

end Starts

section Numbers

theorem Digits.chars {t : Text} (h : Digits t) : ∀ c ∈ t, isNumberChar c = true :=
  fun c hc => by simp [isNumberChar, h.2 c hc]

theorem IsInteger.chars {t : Text} (h : IsInteger t) :
    t ≠ [] ∧ ∀ c ∈ t, isNumberChar c = true := by
  cases h with
  | zero => exact ⟨by simp, List.forall_mem_singleton.mpr (by decide)⟩
  | digits _ h => exact ⟨by simp, h.chars⟩

theorem IsFraction.chars {t : Text} (h : IsFraction t) :
    ∀ c ∈ t, isNumberChar c = true := by
  cases h with
  | none => exact fun _ hc => absurd hc List.not_mem_nil
  | digits h => exact List.forall_mem_cons.mpr ⟨by decide, h.chars⟩

theorem sign_chars {sign : Text} (h : sign ∈ [[], ['+'], ['-']]) :
    ∀ c ∈ sign, isNumberChar c = true := by
  simp only [List.mem_cons, List.not_mem_nil, or_false] at h
  rcases h with rfl | rfl | rfl
  · exact fun _ hc => absurd hc List.not_mem_nil
  · exact List.forall_mem_singleton.mpr (by decide)
  · exact List.forall_mem_singleton.mpr (by decide)

theorem IsExponent.chars {t : Text} (h : IsExponent t) :
    ∀ c ∈ t, isNumberChar c = true := by
  cases h with
  | none => exact fun _ hc => absurd hc List.not_mem_nil
  | @digits mark _ _ hmark hsign h =>
    have hletter : isNumberChar mark = true := by rcases hmark with rfl | rfl <;> decide
    exact List.forall_mem_cons.mpr
      ⟨hletter, List.forall_mem_append.mpr ⟨sign_chars hsign, h.chars⟩⟩

theorem IsNumber.chars {t : Text} (h : IsNumber t) :
    t ≠ [] ∧ ∀ c ∈ t, isNumberChar c = true := by
  cases h with
  | mk hsign hint hfraction hexponent =>
    have hsigns : [[], ['-']] ⊆ [[], ['+'], ['-']] := by simp
    obtain ⟨hne, hint⟩ := hint.chars
    refine ⟨by simp [hne], ?_⟩
    simp only [List.forall_mem_append]
    exact ⟨sign_chars (hsigns hsign), hint, hfraction.chars, hexponent.chars⟩

theorem isNumber_unambiguous :
    Unambiguous (fun t u => t = u ∧ IsNumber u) (StartsOff isNumberChar) := by
  rintro a b _ _ r s ⟨rfl, ha⟩ ⟨rfl, hb⟩ hr hs h
  exact readsUniquely_run isNumberChar a b r s ha.chars.2 hb.chars.2 hr hs h

theorem IsNumber.opens {t : Text} (h : IsNumber t) : Opens .number t := by
  obtain ⟨hne, hchars⟩ := h.chars
  obtain ⟨c, u, rfl⟩ := List.exists_cons_of_ne_nil hne
  exact ⟨c, u, rfl, formAt_of_isNumberChar (hchars c List.mem_cons_self)⟩

end Numbers

section Rows

def marks : List Char := [',', ':', ']', '\x7d']

def Closes (r : Text) : Prop := StartsOff isSpace r ∧ StartsOff isNumberChar r

theorem marks_apart :
    ∀ c ∈ marks, isSpace c = false ∧ isNumberChar c = false ∧ formAt c = none := by
  simp only [marks, List.mem_cons, List.not_mem_nil, or_false, forall_eq_or_imp, forall_eq]
  decide

theorem closes_mark {c : Char} (hc : c ∈ marks) (r : Text) : Closes (c :: r) := by
  obtain ⟨hspace, hnumber, -⟩ := marks_apart c hc
  exact ⟨startsOff_cons hspace r, startsOff_cons hnumber r⟩

theorem Spaces.startsOff_append {w r : Text} (hw : Spaces w) (hr : StartsOff isNumberChar r) :
    StartsOff isNumberChar (w ++ r) := by
  cases w with
  | nil => exact hr
  | cons c w =>
    have hc : isSpace c = true := hw c List.mem_cons_self
    exact startsOff_cons (formAt_of_isSpace hc).2 _

variable {α : Type} {entry : α → Text → Prop}

theorem padded_unambiguous (hentry : Unambiguous entry (StartsOff isNumberChar))
    (hopens : ∀ a t, entry a t → ∃ f, Opens f t) : Unambiguous (Padded entry) Closes := by
  rintro a b _ _ r s ⟨hv, ha, hw⟩ ⟨hv', hb, hw'⟩ hr hs h
  simp only [List.append_assoc] at h
  obtain ⟨f, hf⟩ := hopens _ _ ha
  obtain ⟨g, hg⟩ := hopens _ _ hb
  obtain ⟨-, h⟩ := readsUniquely_run isSpace _ _ _ _ hv hv' (hf.startsOff _) (hg.startsOff _) h
  obtain ⟨hab, h⟩ := hentry ha hb (hw.startsOff_append hr.2) (hw'.startsOff_append hs.2) h
  exact ⟨hab, (readsUniquely_run isSpace _ _ _ _ hw hw' hr.1 hs.1 h).2⟩

theorem Padded.ne_spaces (hopens : ∀ a t, entry a t → ∃ f, Opens f t) {a : α} {t w : Text}
    (h : Padded entry a t) (hw : Spaces w) {c : Char} (hc : c ∈ marks) (r s : Text) :
    t ++ r ≠ w ++ c :: s := by
  obtain ⟨hv, ha, -⟩ := h
  obtain ⟨f, hf⟩ := hopens _ _ ha
  intro heq
  rw [List.append_assoc, List.append_assoc] at heq
  obtain ⟨-, heq⟩ :=
    readsUniquely_run isSpace _ _ _ _ hv hw (hf.startsOff _) (closes_mark hc s).1 heq
  exact hf.ne_cons (marks_apart c hc).2.2 _ _ heq

theorem row_unambiguous (hentry : Unambiguous entry (StartsOff isNumberChar))
    (hopens : ∀ a t, entry a t → ∃ f, Opens f t) {close : Char} (hclose : close ∈ marks)
    (hcomma : close ≠ ',') : Unambiguous (Row entry) fun r => ∃ s, r = close :: s := by
  have hpadded := padded_unambiguous hentry hopens
  have hmark : ',' ∈ marks := by decide
  intro as bs t u r s ht hu hr hs h
  obtain ⟨r, rfl⟩ := hr
  obtain ⟨s, rfl⟩ := hs
  have hr := closes_mark hclose r
  have hs := closes_mark hclose s
  induction ht generalizing bs u with
  | empty hw =>
    cases hu with
    | empty hw' => exact ⟨rfl, (readsUniquely_run isSpace _ _ _ _ hw hw' hr.1 hs.1 h).2⟩
    | last hb => exact absurd h.symm (hb.ne_spaces hopens hw hclose _ _)
    | more hb =>
      rw [List.append_assoc] at h
      exact absurd h.symm (hb.ne_spaces hopens hw hclose _ _)
  | last ha =>
    cases hu with
    | empty hw => exact absurd h (ha.ne_spaces hopens hw hclose _ _)
    | last hb =>
      obtain ⟨rfl, hrs⟩ := hpadded ha hb hr hs h
      exact ⟨rfl, hrs⟩
    | more hb =>
      rw [List.append_assoc] at h
      obtain ⟨-, hmarks⟩ := hpadded ha hb hr (closes_mark hmark _) h
      exact absurd (List.cons.inj hmarks).1 hcomma
  | more ha _ ih =>
    rw [List.append_assoc] at h
    cases hu with
    | empty hw => exact absurd h (ha.ne_spaces hopens hw hclose _ _)
    | last hb =>
      obtain ⟨-, hmarks⟩ := hpadded ha hb (closes_mark hmark _) hs h
      exact absurd (List.cons.inj hmarks).1.symm hcomma
    | more hb hu =>
      rw [List.append_assoc] at h
      obtain ⟨rfl, hmarks⟩ := hpadded ha hb (closes_mark hmark _) (closes_mark hmark _) h
      obtain ⟨hmore, hrs⟩ := ih hu (List.cons.inj hmarks).2
      exact ⟨congrArg _ hmore, hrs⟩

theorem enclosed_unambiguous {c close : Char} {as bs : List α} {t u r s : Text}
    (hentry : Unambiguous entry (StartsOff isNumberChar))
    (hopens : ∀ a t, entry a t → ∃ f, Opens f t) (hclose : close ∈ marks) (hcomma : close ≠ ',')
    (ht : Row entry as t) (hu : Row entry bs u)
    (h : c :: (t ++ [close]) ++ r = c :: (u ++ [close]) ++ s) : as = bs ∧ r = s := by
  simp only [List.cons_append, List.append_assoc, List.nil_append, List.cons.injEq, true_and] at h
  obtain ⟨hrow, hrs⟩ := row_unambiguous hentry hopens hclose hcomma ht hu ⟨r, rfl⟩ ⟨s, rfl⟩ h
  exact ⟨hrow, (List.cons.inj hrs).2⟩

theorem SpellsString.opens {s t : Text} (h : SpellsString s t) : Opens .str t := by
  obtain ⟨-⟩ := h
  exact ⟨'"', _, rfl, rfl⟩

theorem Member.opens {m : Text × α} {t : Text} (h : Member entry m t) : ∃ f, Opens f t := by
  obtain ⟨hkey, -, -, -⟩ := h
  obtain ⟨c, u, rfl, hc⟩ := hkey.opens
  exact ⟨.str, c, _, rfl, hc⟩

theorem member_unambiguous (hentry : Unambiguous entry (StartsOff isNumberChar))
    (hopens : ∀ a t, entry a t → ∃ f, Opens f t) :
    Unambiguous (Member entry) (StartsOff isNumberChar) := by
  have hcolon (r : Text) : StartsOff isSpace (':' :: r) := startsOff_cons rfl r
  rintro _ _ _ _ r s ⟨hkey, hv, hw, ha⟩ ⟨hkey', hv', hw', hb⟩ hr hs h
  simp only [List.append_assoc, List.cons_append] at h
  obtain ⟨f, hf⟩ := hopens _ _ ha
  obtain ⟨g, hg⟩ := hopens _ _ hb
  obtain ⟨rfl, h⟩ := spellsString_unambiguous hkey hkey' trivial trivial h
  obtain ⟨-, h⟩ := readsUniquely_run isSpace _ _ _ _ hv hv' (hcolon _) (hcolon _) h
  obtain ⟨-, h⟩ := readsUniquely_run isSpace _ _ _ _ hw hw' (hf.startsOff _) (hg.startsOff _)
    (List.cons.inj h).2
  obtain ⟨rfl, hrs⟩ := hentry ha hb hr hs h
  exact ⟨rfl, hrs⟩

variable {entry' : α → Text → Prop}

theorem Padded.imp {a : α} {t : Text} (h : Padded entry a t)
    (himp : ∀ a u, u.length ≤ t.length → entry a u → entry' a u) : Padded entry' a t := by
  obtain ⟨hv, ha, hw⟩ := h
  refine ⟨hv, himp _ _ ?_ ha, hw⟩
  simp only [List.length_append]
  omega

theorem Row.imp {as : List α} {t : Text} (h : Row entry as t)
    (himp : ∀ a u, u.length ≤ t.length → entry a u → entry' a u) : Row entry' as t := by
  induction h with
  | empty hw => exact .empty hw
  | last ha => exact .last (ha.imp himp)
  | more ha _ ih =>
    refine .more (ha.imp fun a u hu => himp a u ?_) (ih fun a u hu => himp a u ?_)
    · simp only [List.length_append]
      omega
    · simp only [List.length_append, List.length_cons]
      omega

theorem Member.imp {m : Text × α} {t : Text} (h : Member entry m t)
    (himp : ∀ a u, u.length ≤ t.length → entry a u → entry' a u) : Member entry' m t := by
  obtain ⟨hkey, hv, hw, ha⟩ := h
  refine ⟨hkey, hv, hw, himp _ _ ?_ ha⟩
  simp only [List.length_append, List.length_cons]
  omega

end Rows

section Values

theorem Denotes.opens {v : JsonValue} {t : Text} (h : Denotes v t) : Opens (form v) t := by
  cases h with
  | null => exact ⟨'n', _, rfl, rfl⟩
  | @bool truth =>
    cases truth with
    | true => exact ⟨'t', _, rfl, rfl⟩
    | false => exact ⟨'f', _, rfl, rfl⟩
  | number h => exact h.opens
  | str h => exact h.opens
  | arr => exact ⟨'[', _, rfl, rfl⟩
  | obj => exact ⟨'\x7b', _, rfl, rfl⟩

def DenotesWithin (n : Nat) (v : JsonValue) (t : Text) : Prop := Denotes v t ∧ t.length ≤ n

theorem DenotesWithin.opens {n : Nat} (v : JsonValue) (t : Text) (h : DenotesWithin n v t) :
    ∃ f, Opens f t :=
  ⟨form v, h.1.opens⟩

section Within

variable {n : Nat} {c close : Char} {t : Text}

theorem length_le_of_enclosed (h : (c :: (t ++ [close])).length ≤ n + 1) : t.length ≤ n := by
  simp only [List.length_cons, List.length_append, List.length_nil] at h
  omega

theorem row_within {items : List JsonValue} (hrow : Row Denotes items t)
    (h : (c :: (t ++ [close])).length ≤ n + 1) : Row (DenotesWithin n) items t :=
  hrow.imp fun _ _ hu hv => ⟨hv, hu.trans (length_le_of_enclosed h)⟩

theorem row_member_within {members : List (Text × JsonValue)}
    (hrow : Row (Member Denotes) members t) (h : (c :: (t ++ [close])).length ≤ n + 1) :
    Row (Member (DenotesWithin n)) members t :=
  hrow.imp fun _ _ hu hm =>
    hm.imp fun _ _ hw hv => ⟨hv, hw.trans (hu.trans (length_le_of_enclosed h))⟩

end Within

theorem truthWord_unambiguous {truth truth' : Bool} {r s : Text}
    (h : truthWord truth ++ r = truthWord truth' ++ s) : truth = truth' ∧ r = s := by
  cases truth <;> cases truth' <;> simp_all [truthWord]

-- The first character tells the form of a value, and the entries of a row are shorter than it.
theorem denotesWithin_unambiguous (n : Nat) :
    Unambiguous (DenotesWithin n) (StartsOff isNumberChar) := by
  induction n with
  | zero =>
    rintro v v' t u r s ⟨ht, hlength⟩ - - - -
    obtain ⟨c, t, rfl, -⟩ := ht.opens
    exact absurd hlength (Nat.not_succ_le_zero _)
  | succ n ih =>
    have hmember := member_unambiguous ih DenotesWithin.opens
    rintro v v' t u r s ⟨ht, hlength⟩ ⟨hu, hlength'⟩ hr hs h
    have hform := ht.opens.eq hu.opens h
    cases ht with
    | null =>
      cases hu with
      | null => exact ⟨rfl, List.append_cancel_left h⟩
      | _ => cases hform
    | bool =>
      cases hu with
      | bool =>
        obtain ⟨rfl, hrs⟩ := truthWord_unambiguous h
        exact ⟨rfl, hrs⟩
      | _ => cases hform
    | number ht =>
      cases hu with
      | number hu =>
        obtain ⟨rfl, hrs⟩ := isNumber_unambiguous ⟨rfl, ht⟩ ⟨rfl, hu⟩ hr hs h
        exact ⟨rfl, hrs⟩
      | _ => cases hform
    | str ht =>
      cases hu with
      | str hu =>
        obtain ⟨rfl, hrs⟩ := spellsString_unambiguous ht hu trivial trivial h
        exact ⟨rfl, hrs⟩
      | _ => cases hform
    | arr ht =>
      cases hu with
      | arr hu =>
        obtain ⟨rfl, hrs⟩ := enclosed_unambiguous ih DenotesWithin.opens (by decide) (by decide)
          (row_within ht hlength) (row_within hu hlength') h
        exact ⟨rfl, hrs⟩
      | _ => cases hform
    | obj ht =>
      cases hu with
      | obj hu =>
        obtain ⟨rfl, hrs⟩ := enclosed_unambiguous hmember (fun _ _ hm => hm.opens) (by decide)
          (by decide) (row_member_within ht hlength) (row_member_within hu hlength') h
        exact ⟨rfl, hrs⟩
      | _ => cases hform

theorem denotes_unambiguous : Unambiguous Denotes (StartsOff isNumberChar) := by
  intro v v' t u r s ht hu hr hs h
  exact denotesWithin_unambiguous (max t.length u.length) ⟨ht, le_max_left _ _⟩
    ⟨hu, le_max_right _ _⟩ hr hs h

theorem Document.eq {v v' : JsonValue} {t : Text} (h : Document v t) (h' : Document v' t) :
    v = v' := by
  have hnil : Closes [] := ⟨by decide, by decide⟩
  exact (padded_unambiguous denotes_unambiguous (fun _ _ hv => ⟨_, hv.opens⟩) h h' hnil hnil rfl).1

end Values

end JsonGrammar

end SelectorXPath
