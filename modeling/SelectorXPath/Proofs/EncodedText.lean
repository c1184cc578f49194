import SelectorXPath.Text.Utf8

namespace SelectorXPath

namespace Utf8

theorem toNat_tail (n : Nat) : (tail n).toNat = 0x80 + n % 64 := by
  rw [tail, UInt8.toNat_ofNat']
  omega

theorem isTail_iff (b : UInt8) : isTail b = true ↔ 0x80 ≤ b.toNat ∧ b.toNat ≤ 0xBF := by
  simp [isTail, UInt8.le_iff_toNat_le]

theorem isSecond_iff (a b : UInt8) :
    isSecond a b = true ↔
      0x80 ≤ b.toNat ∧ b.toNat ≤ 0xBF ∧ (a.toNat = 0xE0 → 0xA0 ≤ b.toNat) ∧
        (a.toNat = 0xED → b.toNat ≤ 0x9F) ∧ (a.toNat = 0xF0 → 0x90 ≤ b.toNat) ∧
        (a.toNat = 0xF4 → b.toNat ≤ 0x8F) := by
  simp only [isSecond, ← UInt8.toNat_inj, UInt8.le_iff_toNat_le, UInt8.reduceToNat]
  repeat' split
  all_goals simp only [isTail_iff, Bool.and_eq_true, decide_eq_true_eq]
  all_goals omega

inductive Writes (n : Nat) : Bytes → Prop
  | one {a : UInt8} : a.toNat < 0x80 → n = a.toNat → Writes n [a]
  | two {a b : UInt8} : 0xC2 ≤ a.toNat → a.toNat ≤ 0xDF → isTail b = true →
      n = a.toNat % 32 * 64 + b.toNat % 64 → Writes n [a, b]
  | three {a b c : UInt8} : 0xE0 ≤ a.toNat → a.toNat ≤ 0xEF → isSecond a b = true →
      isTail c = true → n = (a.toNat % 16 * 64 + b.toNat % 64) * 64 + c.toNat % 64 →
      Writes n [a, b, c]
  | four {a b c d : UInt8} : 0xF0 ≤ a.toNat → a.toNat ≤ 0xF4 → isSecond a b = true →
      isTail c = true → isTail d = true →
      n = ((a.toNat % 8 * 64 + b.toNat % 64) * 64 + c.toNat % 64) * 64 + d.toNat % 64 →
      Writes n [a, b, c, d]

theorem Writes.isValidChar {n : Nat} {bytes : Bytes} (h : Writes n bytes) : n.isValidChar := by
  simp only [Nat.isValidChar]
  cases h with
  | one => omega
  | two => omega
  | three ha ha' hb _ hn =>
    rw [isSecond_iff] at hb
    omega
  | four ha ha' hb _ _ hn =>
    rw [isSecond_iff] at hb
    omega

theorem Writes.encodeChar_eq {n : Nat} {bytes : Bytes} (h : Writes n bytes) :
    encodeChar (Char.ofNat n) = bytes := by
  have hn : (Char.ofNat n).toNat = n := by
    rw [Char.ofNat, dif_pos h.isValidChar]
    rfl
  simp only [encodeChar, hn]
  cases h with
  | one ha hn => simp [ha, hn]
  | two ha ha' hb hn =>
    rw [isTail_iff] at hb
    rw [if_neg (by omega), if_pos (by omega)]
    simp only [List.cons.injEq, ← UInt8.toNat_inj, UInt8.toNat_ofNat', toNat_tail, and_true]
    omega
  | three ha ha' hb hc hn =>
    rw [isSecond_iff] at hb
    rw [isTail_iff] at hc
    rw [if_neg (by omega), if_neg (by omega), if_pos (by omega)]
    simp only [List.cons.injEq, ← UInt8.toNat_inj, UInt8.toNat_ofNat', toNat_tail, and_true]
    omega
  | four ha ha' hb hc hd hn =>
    rw [isSecond_iff] at hb
    rw [isTail_iff] at hc hd
    rw [if_neg (by omega), if_neg (by omega), if_neg (by omega)]
    simp only [List.cons.injEq, ← UInt8.toNat_inj, UInt8.toNat_ofNat', toNat_tail, and_true]
    omega

theorem writes_encodeChar (c : Char) : Writes c.toNat (encodeChar c) := by
  have hvalid : c.toNat < 0xD800 ∨ (0xDFFF < c.toNat ∧ c.toNat < 0x110000) := c.valid
  rw [encodeChar]
  generalize c.toNat = n at hvalid
  have hfirst {k : Nat} (hk : k < 256) : (UInt8.ofNat k).toNat = k := by
    rw [UInt8.toNat_ofNat']
    omega
  have htail (k : Nat) : isTail (tail k) = true := by
    rw [isTail_iff, toNat_tail]
    omega
  split
  · next hone =>
    have ha := hfirst (Nat.lt_trans hone (by decide))
    exact .one (by omega) ha.symm
  · split
    · next htwo =>
      have ha := hfirst (k := 0xC0 + n / 64) (by omega)
      have hb := toNat_tail n
      exact .two (by omega) (by omega) (htail n) (by omega)
    · split
      · next hthree =>
        have ha := hfirst (k := 0xE0 + n / 4096) (by omega)
        have hb := toNat_tail (n / 64)
        have hc := toNat_tail n
        refine .three (by omega) (by omega) ?_ (htail n) (by omega)
        rw [isSecond_iff]
        omega
      · have ha := hfirst (k := 0xF0 + n / 262144) (by omega)
        have hb := toNat_tail (n / 4096)
        have hc := toNat_tail (n / 64)
        have hd := toNat_tail n
        refine .four (by omega) (by omega) ?_ (htail _) (htail n) (by omega)
        rw [isSecond_iff]
        omega

theorem Writes.readChar_append {n : Nat} {bytes : Bytes} (h : Writes n bytes) (rest : Bytes) :
    readChar (bytes ++ rest) = .ok (Char.ofNat n, rest) := by
  cases h with
  | one ha hn => simp [readChar, UInt8.lt_iff_toNat_lt, ha, hn]
  | @two a b ha ha' hb hn =>
    have hone : ¬ a.toNat < 0x80 := by omega
    simp [readChar, UInt8.lt_iff_toNat_lt, UInt8.le_iff_toNat_le, hone, ha, ha', hb, hn, join]
  | @three a b c ha ha' hb hc hn =>
    have hone : ¬ a.toNat < 0x80 := by omega
    have htwo : ¬ a.toNat ≤ 0xDF := by omega
    simp [readChar, UInt8.lt_iff_toNat_lt, UInt8.le_iff_toNat_le, hone, htwo, ha, ha', hb, hc, hn,
      join]
  | @four a b c d ha ha' hb hc hd hn =>
    have hone : ¬ a.toNat < 0x80 := by omega
    have htwo : ¬ a.toNat ≤ 0xDF := by omega
    have hthree : ¬ a.toNat ≤ 0xEF := by omega
    simp [readChar, UInt8.lt_iff_toNat_lt, UInt8.le_iff_toNat_le, hone, htwo, hthree, ha, ha', hb,
      hc, hd, hn, join]

theorem writes_of_readChar {bytes rest : Bytes} {c : Char} (h : readChar bytes = .ok (c, rest)) :
    ∃ n front, bytes = front ++ rest ∧ Writes n front ∧ c = Char.ofNat n := by
  unfold readChar at h
  simp only [UInt8.lt_iff_toNat_lt, UInt8.le_iff_toNat_le, UInt8.reduceToNat, Bool.and_eq_true,
    decide_eq_true_eq] at h
  repeat' split at h
  all_goals cases h
  · next _ a ha => exact ⟨_, [a], rfl, .one ha rfl, rfl⟩
  · next _ a _ ha _ b hb => exact ⟨_, [a, b], rfl, .two ha.1 ha.2 hb rfl, rfl⟩
  · next _ a _ _ ha _ b hb _ c hc =>
    exact ⟨_, [a, b, c], rfl, .three ha.1 ha.2 hb hc rfl, rfl⟩
  · next _ a _ _ _ ha _ b hb _ c hc _ d hd =>
    exact ⟨_, [a, b, c, d], rfl, .four ha.1 ha.2 hb hc hd rfl, rfl⟩

theorem readChar_encodeChar (c : Char) (rest : Bytes) :
    readChar (encodeChar c ++ rest) = .ok (c, rest) := by
  rw [(writes_encodeChar c).readChar_append, Char.ofNat_toNat]

theorem eq_encodeChar_of_readChar {bytes rest : Bytes} {c : Char}
    (h : readChar bytes = .ok (c, rest)) : bytes = encodeChar c ++ rest := by
  obtain ⟨n, front, rfl, hfront, rfl⟩ := writes_of_readChar h
  rw [hfront.encodeChar_eq]

theorem decodeFrom_of_readChar {index : Nat} {bytes rest : Bytes} {c : Char}
    (h : readChar bytes = .ok (c, rest)) :
    decodeFrom index bytes = (decodeFrom (index + c.utf8Size) rest).map (c :: ·) := by
  cases bytes with
  | nil => cases h
  | cons a more =>
    rw [decodeFrom, h]
    dsimp only
    cases decodeFrom (index + c.utf8Size) rest <;> rfl

theorem encode_cons (c : Char) (t : Text) : encode (c :: t) = encodeChar c ++ encode t := rfl

theorem decodeFrom_encode (index : Nat) (t : Text) : decodeFrom index (encode t) = .ok t := by
  induction t generalizing index with
  | nil => rw [encode, List.flatMap_nil, decodeFrom]
  | cons c t ih =>
    rw [encode_cons, decodeFrom_of_readChar (readChar_encodeChar c (encode t)), ih]
    rfl

theorem encode_of_decodeFrom {index : Nat} {bytes : Bytes} {t : Text}
    (h : decodeFrom index bytes = .ok t) : encode t = bytes := by
  fun_induction decodeFrom index bytes generalizing t with
  | case1 => cases h; rfl
  | case2 => cases h
  | case3 => cases h
  | case4 index a more c rest hread t' hrest ih =>
    cases h
    rw [encode_cons, ih hrest, eq_encodeChar_of_readChar hread]

theorem decode_eq_ok_iff {bytes : Bytes} {t : Text} : decode bytes = .ok t ↔ bytes = encode t := by
  constructor
  · exact fun h => (encode_of_decodeFrom h).symm
  · rintro rfl
    exact decodeFrom_encode 0 t

end Utf8

end SelectorXPath
