import SelectorXPath.Proofs.WrittenStrings

namespace SelectorXPath

namespace Toml

inductive SpellsDigits (isDigit : Char → Bool) : Text → Text → Prop
  | last {c} : isDigit c = true → SpellsDigits isDigit [c] [c]
  | next {c digits t} : isDigit c = true → SpellsDigits isDigit digits t →
      SpellsDigits isDigit (c :: digits) (c :: t)
  | apart {c digits t} : isDigit c = true → SpellsDigits isDigit digits t →
      SpellsDigits isDigit (c :: digits) (c :: '_' :: t)

def bases : List (Char × Nat × (Char → Bool)) :=
  [('x', 16, isHexadecimal), ('o', 8, isOctal), ('b', 2, isBinary)]

def signs : List (Text × Bool) := [([], false), (['+'], false), (['-'], true)]

def signed (negative : Bool) (n : Nat) : Int := if negative then -n else n

inductive SpellsInteger : Int → Text → Prop
  | decimal {sign negative digits t} : (sign, negative) ∈ signs → SpellsDigits isDecimal digits t →
      (digits.head? = some '0' → digits = ['0']) →
      SpellsInteger (signed negative (numberOf 10 digits)) (sign ++ t)
  | based {mark base isDigit digits t} : (mark, base, isDigit) ∈ bases →
      SpellsDigits isDigit digits t → SpellsInteger (numberOf base digits) ('0' :: mark :: t)

section Digits

variable {isDigit : Char → Bool} {digits t rest : Text} {c : Char}

theorem readMoreDigits_digit (hmark : isDigit '_' = false) (hc : isDigit c = true) (t : Text) :
    readMoreDigits isDigit (c :: t) =
      (c :: (readMoreDigits isDigit t).1, (readMoreDigits isDigit t).2) := by
  have hne : c ≠ '_' := by
    rintro rfl
    rw [hmark] at hc
    cases hc
  rw [readMoreDigits, if_pos hc]
  exact fun _ _ heq => absurd heq hne

theorem readMoreDigits_stop (hstop : StartsOff isDigit rest) (hapart : rest.head? ≠ some '_') :
    readMoreDigits isDigit rest = ([], rest) := by
  cases rest with
  | nil => rfl
  | cons c rest =>
    rw [readMoreDigits, if_neg (by simp [hstop c rfl])]
    rintro _ _ rfl
    exact absurd rfl hapart

theorem SpellsDigits.exists_cons (h : SpellsDigits isDigit digits t) :
    ∃ c more u, digits = c :: more ∧ t = c :: u ∧ isDigit c = true := by
  cases h with
  | last hc => exact ⟨_, _, _, rfl, rfl, hc⟩
  | next hc _ => exact ⟨_, _, _, rfl, rfl, hc⟩
  | apart hc _ => exact ⟨_, _, _, rfl, rfl, hc⟩

theorem SpellsDigits.eq_singleton (h : SpellsDigits isDigit [c] t) : t = [c] := by
  cases h with
  | last => rfl
  | next _ hmore => cases hmore
  | apart _ hmore => cases hmore

theorem readMoreDigits_apart (hmark : isDigit '_' = false) (h : SpellsDigits isDigit digits t) :
    readMoreDigits isDigit ('_' :: (t ++ rest)) = readMoreDigits isDigit (t ++ rest) := by
  obtain ⟨c, more, u, -, rfl, hc⟩ := h.exists_cons
  rw [List.cons_append, readMoreDigits, if_pos hc, readMoreDigits_digit hmark hc]

theorem SpellsDigits.readMoreDigits_append (h : SpellsDigits isDigit digits t)
    (hmark : isDigit '_' = false) (hstop : StartsOff isDigit rest)
    (hapart : rest.head? ≠ some '_') : readMoreDigits isDigit (t ++ rest) = (digits, rest) := by
  induction h with
  | last hc =>
    rw [List.singleton_append, readMoreDigits_digit hmark hc, readMoreDigits_stop hstop hapart]
  | next hc _ ih => rw [List.cons_append, readMoreDigits_digit hmark hc, ih]
  | apart hc hmore ih =>
    rw [List.cons_append, List.cons_append, readMoreDigits_digit hmark hc,
      readMoreDigits_apart hmark hmore, ih]

theorem SpellsDigits.readDigits_append (h : SpellsDigits isDigit digits t)
    (hmark : isDigit '_' = false) (hstop : StartsOff isDigit rest)
    (hapart : rest.head? ≠ some '_') : readDigits isDigit (t ++ rest) = some (digits, rest) := by
  have hread := h.readMoreDigits_append hmark hstop hapart
  obtain ⟨c, more, u, rfl, rfl, hc⟩ := h.exists_cons
  rw [List.cons_append, readMoreDigits_digit hmark hc] at hread
  rw [List.cons_append, readDigits, if_pos hc]
  exact congrArg some hread

theorem SpellsDigits.mem_cases (h : SpellsDigits isDigit digits t) {d : Char} (hd : d ∈ t) :
    isDigit d = true ∨ d = '_' := by
  induction h with
  | last hc =>
    obtain rfl := List.mem_singleton.mp hd
    exact .inl hc
  | next hc _ ih =>
    rcases List.mem_cons.mp hd with rfl | hd
    · exact .inl hc
    · exact ih hd
  | apart hc _ ih =>
    rcases List.mem_cons.mp hd with rfl | hd
    · exact .inl hc
    · rcases List.mem_cons.mp hd with rfl | hd
      · exact .inr rfl
      · exact ih hd

end Digits

section Moments

variable {s rest : Text} {c : Char}

theorem readMoment_of_not_decimal (hc : isDecimal c = false) (t : Text) :
    readMoment (c :: t) = none := by
  have hfixed (count : Nat) : readFixed (count + 1) (c :: t) = none := by
    simp [readFixed, hc]
  rw [readMoment, readDate, readTime, readHourMinute, hfixed, hfixed]
  rfl

theorem readFixed_run {count n : Nat} {after : Text} (hrest : StartsOff isDecimal rest)
    (h : readFixed count (s ++ rest) = some (n, after)) : after = s.drop count ++ rest := by
  simp only [readFixed] at h
  split at h
  · next hdigits =>
    cases h
    simp only [Bool.and_eq_true, decide_eq_true_eq, List.all_eq_true] at hdigits
    obtain ⟨hlength, hall⟩ := hdigits
    -- The character behind the run is no digit, so the digits lie inside the run.
    have hle : count ≤ s.length := by
      by_contra hlt
      rw [List.take_append, List.take_of_length_le (by omega)] at hlength hall
      cases rest with
      | nil => simp at hlength; omega
      | cons c rest =>
        obtain ⟨k, hk⟩ : ∃ k, count - s.length = k + 1 := ⟨count - s.length - 1, by omega⟩
        have hc := hall c (by simp [hk])
        rw [hrest c rfl] at hc
        cases hc
    exact List.drop_append_of_le_length hle
  · cases h

theorem readMark_run {mark : Char} (hs : mark ∉ s) (hrest : rest.head? ≠ some mark) :
    readMark mark (s ++ rest) = none := by
  cases s with
  | nil =>
    cases rest with
    | nil => rfl
    | cons c rest => simp_all [readMark]
  | cons c s =>
    rw [List.cons_append, readMark, if_neg (List.ne_of_not_mem_cons hs).symm]

theorem readFixed_then_mark (count : Nat) {mark : Char} (hs : mark ∉ s)
    (hmark : mark ∉ valueEnds) (hrest : EndsValue rest) :
    readFixed count (s ++ rest) = none ∨
      ∃ n after, readFixed count (s ++ rest) = some (n, after) ∧ readMark mark after = none := by
  cases hread : readFixed count (s ++ rest) with
  | none => exact .inl rfl
  | some found =>
    obtain ⟨n, after⟩ := found
    refine .inr ⟨n, after, rfl, ?_⟩
    rw [readFixed_run (hrest.startsOff (by decide)) hread]
    exact readMark_run (fun hmem => hs (List.mem_of_mem_drop hmem))
      fun hhead => hmark (hrest mark hhead)

theorem readMoment_run (hdash : '-' ∉ s) (hcolon : ':' ∉ s) (hrest : EndsValue rest) :
    readMoment (s ++ rest) = none := by
  have hdate : readDate (s ++ rest) = none := by
    rcases readFixed_then_mark 4 hdash (by decide) hrest with hnone | ⟨n, after, hsome, hmark⟩
    · simp [readDate, hnone]
    · simp [readDate, hsome, hmark]
  have htime : readHourMinute (s ++ rest) = none := by
    rcases readFixed_then_mark 2 hcolon (by decide) hrest with hnone | ⟨n, after, hsome, hmark⟩
    · simp [readHourMinute, hnone]
    · simp [readHourMinute, hsome, hmark]
  rw [readMoment, hdate, readTime, htime]
  rfl

end Moments

section Integers

variable {rest : Text}

theorem readScalar_number {c : Char} (hc : c ∉ ['t', 'f', '"', '\'']) (t : Text) :
    readScalar (c :: t) = (readMoment (c :: t) <|> readNumber (c :: t)) := by
  simp only [List.mem_cons, List.not_mem_nil, or_false, not_or] at hc
  simp [readScalar, hc]

theorem ne_of_isDecimal {c d : Char} (hc : isDecimal c = true) (hd : isDecimal d = false) :
    c ≠ d := by
  rintro rfl
  rw [hd] at hc
  cases hc

theorem readNumber_signed {sign : Text} {negative : Bool} {c : Char} {t : Text}
    (hsign : (sign, negative) ∈ signs) (hc : isDecimal c = true)
    (hbase : c = '0' → ∀ d ∈ t.head?, d ∉ ['x', 'o', 'b']) :
    readNumber (sign ++ c :: t) = readDecimal negative (c :: t) := by
  have hplus : c ≠ '+' := ne_of_isDecimal hc (by decide)
  have hminus : c ≠ '-' := ne_of_isDecimal hc (by decide)
  have hinf : c ≠ 'i' := ne_of_isDecimal hc (by decide)
  have hnan : c ≠ 'n' := ne_of_isDecimal hc (by decide)
  simp only [signs, List.mem_cons, Prod.mk.injEq, List.not_mem_nil, or_false] at hsign
  rcases hsign with ⟨rfl, rfl⟩ | ⟨rfl, rfl⟩ | ⟨rfl, rfl⟩
  · unfold readNumber
    split
    · next heq => cases heq; exact absurd (by simp) (hbase rfl 'x' rfl)
    · next heq => cases heq; exact absurd (by simp) (hbase rfl 'o' rfl)
    · next heq => cases heq; exact absurd (by simp) (hbase rfl 'b' rfl)
    · simp [readSign, hplus, hminus, hinf, hnan]
  · simp [readNumber, readSign, hinf, hnan]
  · simp [readNumber, readSign, hinf, hnan]

theorem readDecimal_integer (negative : Bool) {digits t : Text}
    (h : readWhole t = some (digits, rest)) (hrest : EndsValue rest) :
    readDecimal negative t =
      (integerValue (signed negative (numberOf 10 digits))).map fun v => (v, rest) := by
  have hfraction : readFraction rest = some (none, rest) := by
    cases rest with
    | nil => rfl
    | cons c rest =>
      have hc : c ≠ '.' := by
        rintro rfl
        exact absurd (hrest '.' rfl) (by decide)
      simp [readFraction, hc]
  have hexponent : readExponent rest = some (none, rest) := by
    cases rest with
    | nil => rfl
    | cons c rest =>
      have hc : ¬ (c = 'e' ∨ c = 'E') := by
        rintro (rfl | rfl)
        · exact absurd (hrest 'e' rfl) (by decide)
        · exact absurd (hrest 'E' rfl) (by decide)
      rw [readExponent, if_neg hc]
  simp only [readDecimal, h, hfraction, hexponent]
  rfl

theorem SpellsDigits.readWhole_append {digits t : Text} (h : SpellsDigits isDecimal digits t)
    (hzero : digits.head? = some '0' → digits = ['0']) (hrest : EndsValue rest) :
    readWhole (t ++ rest) = some (digits, rest) := by
  have hread := h.readDigits_append (by decide) (hrest.startsOff (by decide))
    (fun hhead => absurd (hrest '_' hhead) (by decide))
  obtain ⟨c, more, u, rfl, rfl, hc⟩ := h.exists_cons
  by_cases hc0 : c = '0'
  · subst hc0
    obtain rfl : more = [] := by simpa using hzero rfl
    cases h.eq_singleton
    rfl
  · rw [List.cons_append, readWhole, ← List.cons_append, hread]
    exact fun _ heq => hc0 (List.cons.inj heq).1

theorem integerValue_eq {n : Int} (h : fitsWord n = true) : integerValue n = some (.integer n) := by
  rw [integerValue, if_pos h]

theorem marks_of_mem_bases {mark : Char} {base : Nat} {isDigit : Char → Bool}
    (h : (mark, base, isDigit) ∈ bases) :
    isDigit '_' = false ∧ isDigit '-' = false ∧ isDigit ':' = false ∧
      valueEnds.any isDigit = false := by
  simp only [bases, List.mem_cons, Prod.mk.injEq, List.not_mem_nil, or_false] at h
  rcases h with ⟨-, -, rfl⟩ | ⟨-, -, rfl⟩ | ⟨-, -, rfl⟩ <;> decide

theorem readNumber_based {mark : Char} {base : Nat} {isDigit : Char → Bool} {digits t : Text}
    (hbase : (mark, base, isDigit) ∈ bases) (h : SpellsDigits isDigit digits t)
    (hrest : EndsValue rest) :
    readNumber ('0' :: mark :: (t ++ rest)) =
      (integerValue (numberOf base digits)).map fun v => (v, rest) := by
  obtain ⟨hapart, -, -, hends⟩ := marks_of_mem_bases hbase
  have hread : readDigits isDigit (t ++ rest) = some (digits, rest) :=
    h.readDigits_append hapart (hrest.startsOff hends)
      fun hhead => absurd (hrest '_' hhead) (by decide)
  simp only [bases, List.mem_cons, Prod.mk.injEq, List.not_mem_nil, or_false] at hbase
  rcases hbase with ⟨rfl, rfl, rfl⟩ | ⟨rfl, rfl, rfl⟩ | ⟨rfl, rfl, rfl⟩ <;>
    simp only [readNumber, readBased, hread]

theorem SpellsInteger.readNumber_append {n : Int} {t : Text} (h : SpellsInteger n t)
    (hfits : fitsWord n = true) (hrest : EndsValue rest) :
    readNumber (t ++ rest) = some (.integer n, rest) := by
  cases h with
  | @decimal sign negative digits t hsign hdigits hzero =>
    have hwhole := hdigits.readWhole_append hzero hrest
    have hread := readDecimal_integer negative hwhole hrest
    obtain ⟨c, more, u, rfl, rfl, hc⟩ := hdigits.exists_cons
    -- A zero in front stands alone, so what follows it is what follows the number.
    have hbase : c = '0' → ∀ d ∈ (u ++ rest).head?, d ∉ ['x', 'o', 'b'] := by
      rintro rfl d hd hmem
      obtain rfl : more = [] := by simpa using hzero rfl
      cases hdigits.eq_singleton
      have hend := hrest d hd
      simp only [List.mem_cons, List.not_mem_nil, or_false] at hmem
      rcases hmem with rfl | rfl | rfl <;> exact absurd hend (by decide)
    rw [List.append_assoc, List.cons_append, readNumber_signed hsign hc hbase,
      ← List.cons_append, hread, integerValue_eq hfits, Option.map_some]
  | based hbase hdigits =>
    rw [List.cons_append, List.cons_append, readNumber_based hbase hdigits hrest,
      integerValue_eq hfits, Option.map_some]

theorem SpellsDigits.not_mem {isDigit : Char → Bool} {digits t : Text}
    (h : SpellsDigits isDigit digits t) {d : Char} (hd : isDigit d = false) (hmark : d ≠ '_') :
    d ∉ t := by
  intro hmem
  rcases h.mem_cases hmem with hdigit | rfl
  · rw [hd] at hdigit
    cases hdigit
  · exact hmark rfl

theorem SpellsInteger.readMoment_append {n : Int} {t : Text} (h : SpellsInteger n t)
    (hrest : EndsValue rest) : readMoment (t ++ rest) = none := by
  cases h with
  | @decimal sign negative digits t hsign hdigits hzero =>
    simp only [signs, List.mem_cons, Prod.mk.injEq, List.not_mem_nil, or_false] at hsign
    rcases hsign with ⟨rfl, -⟩ | ⟨rfl, -⟩ | ⟨rfl, -⟩
    · exact readMoment_run (hdigits.not_mem (by decide) (by decide))
        (hdigits.not_mem (by decide) (by decide)) hrest
    · exact readMoment_of_not_decimal (by decide) _
    · exact readMoment_of_not_decimal (by decide) _
  | @based mark base isDigit digits t hbase hdigits =>
    obtain ⟨-, hnoDash, hnoColon, -⟩ := marks_of_mem_bases hbase
    have hdash := hdigits.not_mem hnoDash (by decide)
    have hcolon := hdigits.not_mem hnoColon (by decide)
    have hmark : mark ≠ '-' ∧ mark ≠ ':' := by
      simp only [bases, List.mem_cons, Prod.mk.injEq, List.not_mem_nil, or_false] at hbase
      rcases hbase with ⟨rfl, -⟩ | ⟨rfl, -⟩ | ⟨rfl, -⟩ <;> decide
    exact readMoment_run (by simp [hdash, hmark.1.symm]) (by simp [hcolon, hmark.2.symm]) hrest

theorem SpellsInteger.exists_cons {n : Int} {t : Text} (h : SpellsInteger n t) :
    ∃ c u, t = c :: u ∧ (isDecimal c = true ∨ c = '+' ∨ c = '-') := by
  cases h with
  | @decimal sign negative digits t hsign hdigits hzero =>
    obtain ⟨c, more, u, rfl, rfl, hc⟩ := hdigits.exists_cons
    simp only [signs, List.mem_cons, Prod.mk.injEq, List.not_mem_nil, or_false] at hsign
    rcases hsign with ⟨rfl, -⟩ | ⟨rfl, -⟩ | ⟨rfl, -⟩
    · exact ⟨c, u, rfl, .inl hc⟩
    · exact ⟨'+', c :: u, rfl, .inr (.inl rfl)⟩
    · exact ⟨'-', c :: u, rfl, .inr (.inr rfl)⟩
  | based => exact ⟨'0', _, rfl, .inl (by decide)⟩

theorem SpellsInteger.readScalar_append {n : Int} {t : Text} (h : SpellsInteger n t)
    (hfits : fitsWord n = true) (hrest : EndsValue rest) :
    readScalar (t ++ rest) = some (.integer n, rest) := by
  have hmoment := h.readMoment_append hrest
  have hnumber := h.readNumber_append hfits hrest
  obtain ⟨c, u, rfl, hc⟩ := h.exists_cons
  have hother : c ∉ ['t', 'f', '"', '\''] := by
    intro hmem
    simp only [List.mem_cons, List.not_mem_nil, or_false] at hmem
    rcases hmem with rfl | rfl | rfl | rfl <;> exact absurd hc (by decide)
  rw [List.cons_append] at hmoment hnumber ⊢
  rw [readScalar_number hother, hmoment, hnumber]
  rfl

theorem SpellsInteger.startsOff_space {n : Int} {t : Text} (h : SpellsInteger n t) (rest : Text) :
    StartsOff isSpace (t ++ rest) := by
  obtain ⟨c, u, rfl, hc⟩ := h.exists_cons
  refine startsOff_cons ?_ _
  rcases hc with hc | rfl | rfl
  · have hspace : c ≠ ' ' := ne_of_isDecimal hc (by decide)
    have htab : c ≠ '\t' := ne_of_isDecimal hc (by decide)
    simp [isSpace, hspace, htab]
  · decide
  · decide

theorem SpellsInteger.readValue_append {n : Int} {t : Text} (h : SpellsInteger n t) (room : Nat)
    (hfits : fitsWord n = true) (hrest : EndsValue rest) :
    readValue room (t ++ rest) = some (.integer n, rest) := by
  have hread := h.readScalar_append hfits hrest
  obtain ⟨c, u, rfl, hc⟩ := h.exists_cons
  have hother : c ≠ '[' ∧ c ≠ '\x7b' := by
    rcases hc with hc | rfl | rfl
    · exact ⟨ne_of_isDecimal hc (by decide), ne_of_isDecimal hc (by decide)⟩
    · decide
    · decide
  rw [List.cons_append] at hread ⊢
  rw [readValue_scalar _ hother.1 hother.2, hread]

end Integers

end Toml

end SelectorXPath
