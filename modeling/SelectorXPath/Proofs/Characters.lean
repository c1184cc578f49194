import Mathlib.Data.List.DropRight
import SelectorXPath.Text.Basic
import SelectorXPath.Text.Word

namespace SelectorXPath

def Blanks (w : Text) : Prop := ∀ c ∈ w, isBlank c = true

def IsName (n : Text) : Prop := n ≠ [] ∧ ∀ c ∈ n, isNameChar c = true

def StartsOff (p : Char → Bool) (t : Text) : Prop := ∀ c ∈ t.head?, p c = false

def EndsOff (p : Char → Bool) (t : Text) : Prop := ∀ c ∈ t.getLast?, p c = false

-- The instances name the decision over the list: one over all characters may be found first.
instance (w : Text) : Decidable (Blanks w) := List.decidableBAll _ w

instance (n : Text) : Decidable (IsName n) := @instDecidableAnd _ _ _ (List.decidableBAll _ n)

instance (p : Char → Bool) (t : Text) : Decidable (StartsOff p t) := Option.decidableForallMem _

instance (p : Char → Bool) (t : Text) : Decidable (EndsOff p t) := Option.decidableForallMem _

def blankCodes : List Nat :=
  [0x09, 0x0A, 0x0B, 0x0C, 0x0D, 0x20, 0x85, 0xA0, 0x1680, 0x2000, 0x2001, 0x2002, 0x2003, 0x2004,
    0x2005, 0x2006, 0x2007, 0x2008, 0x2009, 0x200A, 0x2028, 0x2029, 0x202F, 0x205F, 0x3000]

theorem toNat_mem_blankCodes {c : Char} (h : isBlank c = true) : c.toNat ∈ blankCodes := by
  simp only [isBlank, Bool.or_eq_true, Bool.and_eq_true, decide_eq_true_eq, beq_iff_eq] at h
  simp only [blankCodes, List.mem_cons, List.not_mem_nil, or_false]
  omega

theorem inRanges_blankCodes : ∀ n ∈ blankCodes, inRanges n wordRanges = false := by
  decide +kernel

theorem isNameChar_eq_false_of_isBlank {c : Char} (h : isBlank c = true) :
    isNameChar c = false := by
  have hword : isWordChar c = false := inRanges_blankCodes _ (toNat_mem_blankCodes h)
  have hdash : c ≠ '-' := by
    rintro rfl
    exact absurd h (by decide)
  simp [isNameChar, hword, hdash]

theorem isBlank_eq_false_of_isNameChar {c : Char} (h : isNameChar c = true) :
    isBlank c = false := by
  cases hb : isBlank c with
  | false => rfl
  | true => rw [isNameChar_eq_false_of_isBlank hb] at h; cases h

section Runs

variable {p : Char → Bool} {a r t : Text}

theorem takeWhile_run (ha : ∀ c ∈ a, p c = true) (hr : StartsOff p r) :
    (a ++ r).takeWhile p = a := by
  rw [List.takeWhile_append_of_pos ha]
  cases r with
  | nil => simp
  | cons c r => simp [hr c rfl]

theorem dropWhile_run (ha : ∀ c ∈ a, p c = true) (hr : StartsOff p r) :
    (a ++ r).dropWhile p = r := by
  rw [List.dropWhile_append_of_pos ha]
  cases r with
  | nil => simp
  | cons c r => simp [hr c rfl]

theorem startsOff_dropWhile : StartsOff p (t.dropWhile p) := by
  intro c hc
  have h := List.head?_dropWhile_not p t
  rw [Option.mem_def.mp hc] at h
  exact h

theorem startsOff_cons {c : Char} (hc : p c = false) (t : Text) : StartsOff p (c :: t) := by
  simpa [StartsOff] using hc

theorem startsOff_append (ha : a ≠ []) : StartsOff p (a ++ r) ↔ StartsOff p a := by
  cases a with
  | nil => exact absurd rfl ha
  | cons c a => simp [StartsOff]

theorem endsOff_append (hr : r ≠ []) : EndsOff p (a ++ r) ↔ EndsOff p r := by
  simp [EndsOff, List.getLast?_append_of_ne_nil a hr]

theorem startsOff_blanks_append (ha : Blanks a) (hp : ∀ c, isBlank c = true → p c = false)
    (hr : StartsOff p r) : StartsOff p (a ++ r) := by
  cases a with
  | nil => exact hr
  | cons b a => simpa [StartsOff] using hp b (ha b (by simp))

theorem skipBlanks_run (ha : Blanks a) (hr : StartsOff isBlank r) :
    skipBlanks (a ++ r) = r :=
  dropWhile_run ha hr

theorem leadingBlanks_run (ha : Blanks a) (hr : StartsOff isBlank r) :
    leadingBlanks (a ++ r) = a :=
  takeWhile_run ha hr

theorem blanks_leadingBlanks (t : Text) : Blanks (leadingBlanks t) :=
  fun _ hc => List.mem_takeWhile_imp hc

theorem Blanks.append {b : Text} (ha : Blanks a) (hb : Blanks b) : Blanks (a ++ b) :=
  fun c hc => (List.mem_append.mp hc).elim (ha c) (hb c)

theorem exists_blanks_skipBlanks (t : Text) : ∃ w, Blanks w ∧ t = w ++ skipBlanks t :=
  ⟨leadingBlanks t, blanks_leadingBlanks t, (leadingBlanks_append_skipBlanks t).symm⟩

end Runs

section Trimming

variable {a b t : Text}

theorem skipBlanks_eq_self_iff : skipBlanks t = t ↔ StartsOff isBlank t := by
  cases t with
  | nil => simp [skipBlanks, StartsOff]
  | cons c t => simp [skipBlanks, List.dropWhile_eq_self_iff, StartsOff]

theorem trimEnd_eq_self_iff : trimEnd t = t ↔ EndsOff isBlank t := by
  rw [show trimEnd t = t.rdropWhile isBlank from rfl, List.rdropWhile_eq_self_iff]
  cases t with
  | nil => simp [EndsOff]
  | cons c t => simp [EndsOff, List.getLast?_eq_some_getLast]

theorem endsOff_trimEnd (t : Text) : EndsOff isBlank (trimEnd t) :=
  trimEnd_eq_self_iff.mp (List.rdropWhile_idempotent isBlank t)

theorem trimEnd_initial (t : Text) : trimEnd t <+: t := List.rdropWhile_prefix isBlank t

theorem startsOff_of_initial {p : Char → Bool} (h : a <+: b) (hb : StartsOff p b) :
    StartsOff p a := by
  obtain ⟨r, rfl⟩ := h
  cases a with
  | nil => simp [StartsOff]
  | cons c a => simpa [StartsOff] using hb

theorem trim_eq_self_iff : trim t = t ↔ StartsOff isBlank t ∧ EndsOff isBlank t := by
  constructor
  · intro h
    refine ⟨?_, h ▸ endsOff_trimEnd (skipBlanks t)⟩
    have hs := startsOff_of_initial (trimEnd_initial (skipBlanks t))
      (startsOff_dropWhile (p := isBlank) (t := t))
    exact h ▸ hs
  · rintro ⟨hs, he⟩
    rw [trim, skipBlanks_eq_self_iff.mpr hs, trimEnd_eq_self_iff.mpr he]

theorem trim_trim (t : Text) : trim (trim t) = trim t := by
  refine trim_eq_self_iff.mpr ⟨?_, endsOff_trimEnd _⟩
  exact startsOff_of_initial (trimEnd_initial _) (startsOff_dropWhile (p := isBlank) (t := t))

theorem trimEnd_append_blanks (hb : Blanks b) : trimEnd (t ++ b) = trimEnd t := by
  have hrev : ∀ c ∈ b.reverse, isBlank c = true := fun c hc => hb c (List.mem_reverse.mp hc)
  rw [trimEnd, trimEnd, List.reverse_append, List.dropWhile_append_of_pos hrev]

theorem Blanks.eq_nil_of_endsOff (ha : Blanks a) (hend : EndsOff isBlank a) : a = [] := by
  by_contra hne
  have hlast := hend _ (List.getLast?_eq_some_getLast hne)
  rw [ha _ (List.getLast_mem hne)] at hlast
  cases hlast

theorem trim_blanks (hb : Blanks b) : trim b = [] := by
  rw [trim, skipBlanks, List.dropWhile_eq_nil_iff.mpr hb]
  rfl

theorem trim_blanks_append (ha : Blanks a) (hb : Blanks b) (ht : trim t = t) :
    trim (a ++ t ++ b) = t := by
  cases t with
  | nil =>
    rw [List.append_nil]
    exact trim_blanks (ha.append hb)
  | cons c t =>
    obtain ⟨hs, he⟩ := trim_eq_self_iff.mp ht
    have hstart : StartsOff isBlank (c :: t ++ b) := by simpa [StartsOff] using hs
    rw [trim, List.append_assoc, skipBlanks_run ha hstart, trimEnd_append_blanks hb,
      trimEnd_eq_self_iff.mpr he]

theorem eq_leadingBlanks_append_trim (t : Text) :
    ∃ b, Blanks b ∧ t = leadingBlanks t ++ trim t ++ b := by
  refine ⟨(skipBlanks t).rtakeWhile isBlank, fun c hc => List.mem_rtakeWhile_imp hc, ?_⟩
  have hend : trim t ++ (skipBlanks t).rtakeWhile isBlank = skipBlanks t :=
    List.rdropWhile_append_rtakeWhile
  rw [List.append_assoc, hend, leadingBlanks_append_skipBlanks]

theorem eq_append_trim (t : Text) : ∃ a b, Blanks a ∧ Blanks b ∧ t = a ++ trim t ++ b := by
  obtain ⟨b, hb, ht⟩ := eq_leadingBlanks_append_trim t
  exact ⟨leadingBlanks t, b, blanks_leadingBlanks t, hb, ht⟩

theorem trim_append_blanks (hb : Blanks b) : trim (t ++ b) = trim t := by
  obtain ⟨w, w', hw, hw', ht⟩ := eq_append_trim t
  have hlonger : t ++ b = w ++ trim t ++ (w' ++ b) := by
    rw [← List.append_assoc, ← ht]
  rw [hlonger, trim_blanks_append hw (hw'.append hb) (trim_trim t)]

theorem trim_surrounded (ha : Blanks a) (hb : Blanks b) (t : Text) : trim (a ++ t ++ b) = trim t := by
  rw [trim_append_blanks hb, trim, trim, skipBlanks, List.dropWhile_append_of_pos ha, skipBlanks]

end Trimming

end SelectorXPath
