import Mathlib.Data.List.Chain
import SelectorXPath.Proofs.Characters
import SelectorXPath.Selector.Grammar

namespace SelectorXPath

open Grammar

inductive Quote where
  | single
  | double
deriving DecidableEq, Repr

namespace Quote

def mark : Quote → Char
  | .single => '\''
  | .double => '"'

def around (q : Quote) (t : Text) : Text := q.mark :: t ++ [q.mark]

end Quote

def isQuoteMark (c : Char) : Bool := c == '\'' || c == '"'

def isLinkMark (c : Char) : Bool := c == ',' || c == '>' || c == '+' || c == '~'

def IsOperator (operator : Text) : Prop :=
  (∀ c ∈ operator, isOperatorChar c = true) ∧ operator.getLast? = some '='

instance (operator : Text) : Decidable (IsOperator operator) :=
  @instDecidableAnd _ _ (List.decidableBAll _ operator) _

def BareValue (v : Text) : Prop := trim v = v ∧ ']' ∉ v

def PlainValue (v : Text) : Prop := BareValue v ∧ '=' ∉ v ∧ StartsOff isQuoteMark v

def BareArgument (a : Text) : Prop :=
  a ≠ [] ∧ trim a = a ∧ ')' ∉ a ∧ ∀ c ∈ a, isQuoteMark c = false

inductive Written (bare : Text → Prop) (t : Text) : Text → Prop
  | quoted (q : Quote) : q.mark ∉ t → Written bare t (q.around t)
  | bare : bare t → Written bare t t

inductive Spells (bare : Text → Prop) : Fragment → Text → Prop
  | any : Spells bare (.element ['*']) ['*']
  | element {n} : IsName n → Spells bare (.element n) n
  | id {n} : IsName n → Spells bare (.id n) ('#' :: n)
  | className {n} : IsName n → Spells bare (.className n) ('.' :: n)
  | attr {n w₁ w₂} : IsName n → Blanks w₁ → Blanks w₂ →
      Spells bare (.attr n none none) ('[' :: w₁ ++ n ++ w₂ ++ [']'])
  | attrValue {n op v body w₁ w₂ w₃ w₄} : IsName n → IsOperator op → Written bare v body →
      (op.head? = some '-' → w₂ ≠ []) → Blanks w₁ → Blanks w₂ → Blanks w₃ → Blanks w₄ →
      Spells bare (.attr n (some op) (some v))
        ('[' :: w₁ ++ n ++ w₂ ++ op ++ w₃ ++ body ++ w₄ ++ [']'])
  | filter {n} : IsName n → Spells bare (.filter n none) (':' :: n)
  | filterBlank {n w} : IsName n → Blanks w →
      Spells bare (.filter n none) (':' :: n ++ '(' :: w ++ [')'])
  | filterArgument {n a body w₁ w₂} : IsName n → Written BareArgument a body →
      Blanks w₁ → Blanks w₂ →
      Spells bare (.filter n (some a)) (':' :: n ++ '(' :: w₁ ++ body ++ w₂ ++ [')'])

inductive SpellsHead (n op : Text) : Text → Prop
  | intro {w₁ w₂ : Text} : IsName n → IsOperator op → (op.head? = some '-' → w₂ ≠ []) →
      Blanks w₁ → Blanks w₂ → SpellsHead n op ('[' :: w₁ ++ n ++ w₂ ++ op)

inductive SpellsLink : Combinator → Text → Text → Prop
  | marked {kind r w₁ w₂} : kind ≠ .descendant → Blanks w₁ → Blanks w₂ →
      SpellsLink kind r (w₁ ++ [kind.symbol] ++ w₂ ++ r)
  | blank {r w} : Blanks w → w ≠ [] → StartsOff isLinkMark r →
      SpellsLink .descendant r (w ++ r)

structure Piece (bare : Text → Prop) where
  fragment : Fragment
  span : Text
  spells : Spells bare fragment span

structure Tail where
  kind : Combinator
  remainder : Text
  span : Text
  spells : SpellsLink kind remainder span
  nonempty : remainder ≠ []
  trimmed : trim remainder = remainder

def Fragment.isBareWord : Fragment → Bool
  | .element name => name != ['*']
  | _ => false

def Tail.fragment (tail : Tail) : Fragment := .link tail.kind tail.remainder

section

variable {bare : Text → Prop}

def Piece.Apart (x y : Piece bare) : Prop :=
  y.fragment.isBareWord = true → EndsOff isNameChar x.span

def textOf (pieces : List (Piece bare)) (tail : Option Tail) : Text :=
  pieces.flatMap Piece.span ++ tail.elim [] Tail.span

def fragmentsOf (pieces : List (Piece bare)) (tail : Option Tail) : List Fragment :=
  pieces.map Piece.fragment ++ tail.toList.map Tail.fragment

end

structure Layout (bare : Text → Prop) where
  pieces : List (Piece bare)
  tail : Option Tail
  apart : pieces.IsChain Piece.Apart
  started : tail.isSome = true → pieces ≠ []

namespace Layout

variable {bare : Text → Prop}

def text (layout : Layout bare) : Text := textOf layout.pieces layout.tail

def fragments (layout : Layout bare) : List Fragment := fragmentsOf layout.pieces layout.tail

def spans (layout : Layout bare) : List Text :=
  layout.pieces.map Piece.span ++ layout.tail.toList.map Tail.span

end Layout

section Edges

variable {n r span : Text} {bare : Text → Prop} {fragment : Fragment} {kind : Combinator}

def Stops (r : Text) : Prop := StartsOff (fun c => isNameChar c || c == '(') r

theorem Stops.startsOff_name (h : Stops r) : StartsOff isNameChar r := by
  intro c hc
  have := h c hc
  simp only [Bool.or_eq_false_iff] at this
  exact this.1

theorem not_endsOff_name (hn : IsName n) (a : Text) : ¬ EndsOff isNameChar (a ++ n) := by
  intro h
  rw [endsOff_append hn.1] at h
  have hlast := h _ (List.getLast?_eq_some_getLast hn.1)
  rw [hn.2 _ (List.getLast_mem hn.1)] at hlast
  cases hlast

theorem endsOff_name {p : Char → Bool} (hp : ∀ c, isNameChar c = true → p c = false)
    (hn : IsName n) (a : Text) : EndsOff p (a ++ n) := by
  rw [endsOff_append hn.1]
  intro c hc
  exact hp c (hn.2 c (List.mem_of_mem_getLast? hc))

theorem isLinkMark_eq_false_of_isNameChar {c : Char} (h : isNameChar c = true) :
    isLinkMark c = false := by
  cases hm : isLinkMark c with
  | false => rfl
  | true =>
    simp only [isLinkMark, Bool.or_eq_true, beq_iff_eq] at hm
    rcases hm with ((rfl | rfl) | rfl) | rfl <;> exact absurd h (by decide)

theorem isQuoteMark_eq_false_of_isNameChar {c : Char} (h : isNameChar c = true) :
    isQuoteMark c = false := by
  cases hq : isQuoteMark c with
  | false => rfl
  | true =>
    simp only [isQuoteMark, Bool.or_eq_true, beq_iff_eq] at hq
    rcases hq with rfl | rfl <;> exact absurd h (by decide)

theorem Quote.mark_ne {q : Quote} {c : Char} (hc : isQuoteMark c = false) : q.mark ≠ c := by
  rintro rfl
  cases q <;> cases hc

theorem Spells.isLink_eq_false (h : Spells bare fragment span) : fragment.isLink = false := by
  cases h <;> rfl

theorem Spells.starts (h : Spells bare fragment span) :
    ∃ c s, span = c :: s ∧ isBlank c = false ∧ isLinkMark c = false ∧
      (fragment.isBareWord = false → (isNameChar c || c == '(') = false) := by
  cases h with
  | any => exact ⟨'*', [], rfl, by decide, by decide, by decide⟩
  | element hn =>
    obtain ⟨c, n, rfl⟩ := List.exists_cons_of_ne_nil hn.1
    have hc : isNameChar c = true := hn.2 c (by simp)
    refine ⟨c, n, rfl, isBlank_eq_false_of_isNameChar hc, isLinkMark_eq_false_of_isNameChar hc, ?_⟩
    intro hword
    simp only [Fragment.isBareWord, bne_eq_false_iff_eq, List.cons.injEq] at hword
    rw [hword.1] at hc
    exact absurd hc (by decide)
  | id => exact ⟨'#', _, rfl, by decide, by decide, fun _ => by decide⟩
  | className => exact ⟨'.', _, rfl, by decide, by decide, fun _ => by decide⟩
  | attr => exact ⟨'[', _, by simp; rfl, by decide, by decide, fun _ => by decide⟩
  | attrValue => exact ⟨'[', _, by simp; rfl, by decide, by decide, fun _ => by decide⟩
  | filter => exact ⟨':', _, rfl, by decide, by decide, fun _ => by decide⟩
  | filterBlank => exact ⟨':', _, by simp; rfl, by decide, by decide, fun _ => by decide⟩
  | filterArgument => exact ⟨':', _, by simp; rfl, by decide, by decide, fun _ => by decide⟩

theorem Spells.starts_name (h : Spells bare fragment span) (hword : fragment.isBareWord = true) :
    ∃ c s, span = c :: s ∧ isNameChar c = true := by
  cases h with
  | element hn =>
    obtain ⟨c, n, rfl⟩ := List.exists_cons_of_ne_nil hn.1
    exact ⟨c, n, rfl, hn.2 c (by simp)⟩
  | _ => cases hword

theorem Spells.ne_nil (h : Spells bare fragment span) : span ≠ [] := by
  obtain ⟨c, s, rfl, -⟩ := h.starts
  simp

theorem endsOff_close {p : Char → Bool} {c : Char} (hc : p c = false) (a : Text) :
    EndsOff p (a ++ [c]) := by
  simpa [EndsOff] using hc

theorem Spells.endsOff {p : Char → Bool} (hp : ∀ c, isNameChar c = true → p c = false)
    (hclose : p '*' = false ∧ p ']' = false ∧ p ')' = false) (h : Spells bare fragment span) :
    EndsOff p span := by
  cases h with
  | any => exact endsOff_close hclose.1 []
  | element hn => exact endsOff_name hp hn []
  | id hn => exact endsOff_name hp hn ['#']
  | className hn => exact endsOff_name hp hn ['.']
  | filter hn => exact endsOff_name hp hn [':']
  | attr => exact endsOff_close hclose.2.1 _
  | attrValue => exact endsOff_close hclose.2.1 _
  | filterBlank => exact endsOff_close hclose.2.2 _
  | filterArgument => exact endsOff_close hclose.2.2 _

theorem Spells.endsOff_blank (h : Spells bare fragment span) : EndsOff isBlank span :=
  h.endsOff (fun _ => isBlank_eq_false_of_isNameChar) (by decide)

theorem Spells.endsOff_linkMark (h : Spells bare fragment span) : EndsOff isLinkMark span :=
  h.endsOff (fun _ => isLinkMark_eq_false_of_isNameChar) (by decide)

theorem SpellsLink.stops (h : SpellsLink kind r span) : Stops span := by
  have hblank (c : Char) (hc : isBlank c = true) : (isNameChar c || c == '(') = false := by
    have hne : c ≠ '(' := by
      rintro rfl
      exact absurd hc (by decide)
    simp [isNameChar_eq_false_of_isBlank hc, hne]
  cases h with
  | marked hk h₁ h₂ =>
    rw [List.append_assoc, List.append_assoc]
    refine startsOff_blanks_append h₁ hblank fun c hc => ?_
    obtain rfl : kind.symbol = c := by simpa using hc
    revert hk
    cases kind <;> decide
  | blank hw hne hm =>
    rw [Stops, startsOff_append hne]
    exact fun c hc => hblank c (hw c (List.mem_of_mem_head? hc))

theorem SpellsLink.exists_append (h : SpellsLink kind r span) : ∃ a, a ≠ [] ∧ span = a ++ r := by
  cases h with
  | marked => exact ⟨_, by simp, rfl⟩
  | blank _ hne _ => exact ⟨_, hne, rfl⟩

theorem SpellsLink.endsOff_blank (h : SpellsLink kind r span) (hne : r ≠ []) (ht : trim r = r) :
    EndsOff isBlank span := by
  obtain ⟨a, -, rfl⟩ := h.exists_append
  exact (endsOff_append hne).mpr (trim_eq_self_iff.mp ht).2

theorem SpellsLink.startsOff_linkMark (h : SpellsLink kind r span) (hk : kind = .descendant) :
    StartsOff isLinkMark r := by
  cases h with
  | marked hne => exact absurd hk hne
  | blank _ _ hm => exact hm

theorem SpellsLink.ne_nil (h : SpellsLink kind r span) : span ≠ [] := by
  obtain ⟨a, ha, rfl⟩ := h.exists_append
  simp [ha]

theorem endsOff_flatMap_span {p : Char → Bool} {pieces : List (Piece bare)}
    (h : ∀ x ∈ pieces, EndsOff p x.span) : EndsOff p (pieces.flatMap Piece.span) := by
  induction pieces with
  | nil => simp [EndsOff]
  | cons x xs ih =>
    obtain ⟨hx, hxs⟩ := List.forall_mem_cons.mp h
    rw [List.flatMap_cons]
    cases hspans : xs.flatMap Piece.span with
    | nil => simpa using hx
    | cons c s =>
      rw [endsOff_append (by simp), ← hspans]
      exact ih hxs

theorem Layout.trim_text (layout : Layout bare) : trim layout.text = layout.text := by
  obtain ⟨pieces, tail, -, hstarted⟩ := layout
  refine trim_eq_self_iff.mpr ⟨?_, ?_⟩
  · cases pieces with
    | nil =>
      cases tail with
      | none => simp [Layout.text, textOf, StartsOff]
      | some tail => exact absurd rfl (hstarted rfl)
    | cons x xs =>
      obtain ⟨c, s, hspan, hblank, -⟩ := x.spells.starts
      simpa [Layout.text, textOf, hspan, StartsOff] using hblank
  · cases tail with
    | none =>
      have hend := endsOff_flatMap_span fun x (_ : x ∈ pieces) => x.spells.endsOff_blank
      simpa [Layout.text, textOf] using hend
    | some tail =>
      have hend := tail.spells.endsOff_blank tail.nonempty tail.trimmed
      exact (endsOff_append tail.spells.ne_nil).mpr hend

end Edges

end SelectorXPath
