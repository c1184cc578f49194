import SelectorXPath.Gzip.Member
import SelectorXPath.Proofs.BitLocality

namespace SelectorXPath

namespace Gzip

theorem bitsOf_append (xs ys : Bytes) : bitsOf (xs ++ ys) = bitsOf xs ++ bitsOf ys := by
  simp [bitsOf]

theorem length_bitsOf (bytes : Bytes) : (bitsOf bytes).length = 8 * bytes.length := by
  induction bytes with
  | nil => rfl
  | cons b bytes ih =>
    rw [bitsOf, List.flatMap_cons, List.length_append, length_lowBits, ← bitsOf, ih,
      List.length_cons]
    omega

theorem bitsOf_take (count : Nat) (bytes : Bytes) :
    bitsOf (bytes.take count) = (bitsOf bytes).take (8 * count) := by
  induction bytes generalizing count with
  | nil => simp [bitsOf]
  | cons b bytes ih =>
    cases count with
    | zero => rfl
    | succ count =>
      have hbits : 8 * (count + 1) = (lowBits 8 b.toNat).length + 8 * count := by
        rw [length_lowBits]
        omega
      rw [List.take_succ_cons, bitsOf, List.flatMap_cons, ← bitsOf, ih, hbits]
      exact (List.take_length_add_append _).symm

section Header

def Skips (skip : Bytes → Except GzipError Bytes) (front : Bytes) : Prop :=
  ∀ other, skip (front ++ other) = .ok other

def SkipsLocally (skip : Bytes → Except GzipError Bytes) : Prop :=
  ∀ ⦃bytes rest : Bytes⦄, skip bytes = .ok rest → ∃ front, bytes = front ++ rest ∧ Skips skip front

theorem Skips.append_inj {skip : Bytes → Except GzipError Bytes} {x y r s : Bytes}
    (hx : Skips skip x) (hy : Skips skip y) (h : x ++ r = y ++ s) : x = y ∧ r = s := by
  have hrest := hx r
  rw [h, hy s] at hrest
  cases hrest
  exact ⟨List.append_cancel_right h, rfl⟩

theorem takeBytes_append {count : Nat} {front : Bytes} (h : front.length = count) (rest : Bytes) :
    takeBytes count (front ++ rest) = .ok (front, rest) := by
  simp [takeBytes, ← h]

theorem takeBytes_eq_ok {count : Nat} {bytes front rest : Bytes}
    (h : takeBytes count bytes = .ok (front, rest)) :
    front.length = count ∧ bytes = front ++ rest := by
  rw [takeBytes] at h
  split at h
  · next hle =>
    cases h
    exact ⟨by rw [List.length_take]; omega, (List.take_append_drop count bytes).symm⟩
  · cases h

theorem skipZeroEnded_local (room : Nat) : SkipsLocally (skipZeroEnded room) := by
  intro bytes rest h
  induction bytes generalizing room with
  | nil => cases room <;> cases h
  | cons b bytes ih =>
    rw [skipZeroEnded.eq_def] at h
    dsimp only at h
    split at h
    · next hzero =>
      cases h
      refine ⟨[b], rfl, fun other => ?_⟩
      rw [List.singleton_append, skipZeroEnded.eq_def]
      simp [hzero]
    · next hzero =>
      split at h
      · cases h
      · next room =>
        obtain ⟨front, rfl, hfront⟩ := ih room h
        exact ⟨b :: front, rfl, fun other => by simp [skipZeroEnded, hzero, hfront other]⟩

theorem skipSized_local : SkipsLocally skipSized := by
  intro bytes rest h
  rw [skipSized] at h
  split at h
  · cases h
  · next size afterSize hsize =>
    split at h
    · cases h
    · next field tail hfield =>
      cases h
      obtain ⟨htwo, rfl⟩ := takeBytes_eq_ok hsize
      obtain ⟨hlength, rfl⟩ := takeBytes_eq_ok hfield
      refine ⟨size ++ field, by simp, fun other => ?_⟩
      simp [skipSized, takeBytes_append htwo, takeBytes_append hlength]

theorem skipIf_local (announced : Bool) {skip : Bytes → Except GzipError Bytes}
    (h : SkipsLocally skip) : SkipsLocally (skipIf announced skip) := by
  cases announced with
  | true => exact h
  | false =>
    intro bytes rest hskip
    cases hskip
    exact ⟨[], rfl, fun _ => rfl⟩

theorem skipHeaderChecksum_local {before bytes rest : Bytes}
    (h : skipHeaderChecksum (before ++ bytes) bytes = .ok rest) :
    ∃ sum, bytes = sum ++ rest ∧
      ∀ other, skipHeaderChecksum (before ++ (sum ++ other)) (sum ++ other) = .ok other := by
  have hbefore (tail : Bytes) :
      (before ++ tail).take ((before ++ tail).length - tail.length) = before := by
    simp
  rw [skipHeaderChecksum, hbefore] at h
  split at h
  · cases h
  · next sum tail htake =>
    split at h
    · next hsum =>
      cases h
      obtain ⟨hlength, rfl⟩ := takeBytes_eq_ok htake
      refine ⟨sum, rfl, fun other => ?_⟩
      simp only [skipHeaderChecksum, hbefore, takeBytes_append hlength, hsum, if_true]
    · cases h

theorem skipIf_skipHeaderChecksum_local {announced : Bool} {before bytes rest : Bytes}
    (h : skipIf announced (skipHeaderChecksum (before ++ bytes)) bytes = .ok rest) :
    ∃ sum, bytes = sum ++ rest ∧ ∀ other,
      skipIf announced (skipHeaderChecksum (before ++ (sum ++ other))) (sum ++ other) =
        .ok other := by
  cases announced with
  | true => exact skipHeaderChecksum_local h
  | false =>
    cases h
    exact ⟨[], rfl, fun _ => rfl⟩

theorem skipParts_local {before bytes rest : Bytes} {flags : HeaderFlags}
    (h : skipParts (before ++ bytes) flags bytes = .ok rest) :
    ∃ parts, bytes = parts ++ rest ∧
      ∀ other, skipParts (before ++ (parts ++ other)) flags (parts ++ other) = .ok other := by
  rw [skipParts] at h
  split at h
  · cases h
  · next afterExtra hextra =>
    split at h
    · cases h
    · next afterName hname =>
      split at h
      · cases h
      · next afterComment hcomment =>
        obtain ⟨extra, rfl, hskipExtra⟩ := skipIf_local _ skipSized_local hextra
        obtain ⟨name, rfl, hskipName⟩ := skipIf_local _ (skipZeroEnded_local _) hname
        obtain ⟨comment, rfl, hskipComment⟩ := skipIf_local _ (skipZeroEnded_local _) hcomment
        simp only [← List.append_assoc] at h
        obtain ⟨sum, rfl, hskipSum⟩ := skipIf_skipHeaderChecksum_local h
        refine ⟨extra ++ (name ++ (comment ++ sum)), by simp, fun other => ?_⟩
        simp only [List.append_assoc] at hskipSum ⊢
        simp only [skipParts, hskipExtra _, hskipName _, hskipComment _, hskipSum]

theorem skipHeader_local : SkipsLocally skipHeader := by
  intro bytes rest h
  rw [skipHeader] at h
  split at h
  · cases h
  · next start afterStart hstart =>
    obtain ⟨hlength, rfl⟩ := takeBytes_eq_ok hstart
    split at h
    · next flags more =>
      split at h
      · next hflags =>
        obtain ⟨parts, rfl, hparts⟩ := skipParts_local h
        refine ⟨0x1F :: 0x8B :: 0x08 :: flags :: more ++ parts, by simp, fun other => ?_⟩
        rw [List.append_assoc, skipHeader, takeBytes_append hlength]
        simp only [hflags, if_true, hparts]
      · cases h
    · cases h

theorem Skips.ten_le {header : Bytes} (h : Skips skipHeader header) : 10 ≤ header.length := by
  have hskip := h []
  rw [List.append_nil, skipHeader, takeBytes] at hskip
  split at hskip
  · cases hskip
  · next htake =>
    split at htake
    · next hle => exact hle
    · cases htake

end Header

section Body

def inflateFront (bytes : Bytes) : Except GzipError (Bytes × Bytes) :=
  match inflate (bitsOf bytes) with
  | .error e => .error e
  | .ok (out, bits) => .ok (out.toList, bytes.drop (bytes.length - bits.length / 8))

def Inflates (body contents : Bytes) : Prop :=
  ∀ other, inflateFront (body ++ other) = .ok (contents, other)

theorem Inflates.append_inj {x y c d r s : Bytes} (hx : Inflates x c) (hy : Inflates y d)
    (h : x ++ r = y ++ s) : x = y ∧ c = d ∧ r = s := by
  have hrest := hx r
  rw [h, hy s] at hrest
  cases hrest
  exact ⟨List.append_cancel_right h, rfl, rfl⟩

theorem inflateFront_local {bytes contents rest : Bytes}
    (h : inflateFront bytes = .ok (contents, rest)) :
    ∃ body, bytes = body ++ rest ∧ Inflates body contents := by
  rw [inflateFront] at h
  split at h
  · cases h
  · next out bits hinflate =>
    cases h
    obtain ⟨used, hbits, hused⟩ := inflate_local hinflate
    have hlength := congrArg List.length hbits
    rw [length_bitsOf, List.length_append] at hlength
    -- The last byte of the body may hold bits that the reader has left over.
    obtain ⟨size, hsize⟩ : ∃ size, size = bytes.length - bits.length / 8 := ⟨_, rfl⟩
    have hbody : bitsOf (bytes.take size) = used ++ bits.take (bits.length % 8) := by
      rw [bitsOf_take, hbits, ← List.take_length_add_append]
      congr 1
      omega
    rw [← hsize]
    refine ⟨bytes.take size, by simp, fun other => ?_⟩
    have hover : (bits.take (bits.length % 8)).length = bits.length % 8 := by
      rw [List.length_take]
      omega
    have hrest : (bits.take (bits.length % 8) ++ bitsOf other).length =
        bits.length % 8 + 8 * other.length := by
      rw [List.length_append, hover, length_bitsOf]
    have haligned : Aligned (bits.take (bits.length % 8) ++ bitsOf other) bits := by
      rw [Aligned, hrest]
      omega
    have hdrop : (bytes.take size ++ other).length -
        (bits.length % 8 + 8 * other.length) / 8 = (bytes.take size).length := by
      rw [List.length_append]
      omega
    rw [inflateFront, bitsOf_append, hbody, List.append_assoc, hused _ haligned]
    simp only [hrest, hdrop, List.drop_left]

end Body

section Trailer

def IsTrailer (contents trailer : Bytes) : Prop :=
  trailer.length = 8 ∧ littleEndian (trailer.take 4) = (crc32 contents).toNat ∧
    littleEndian (trailer.drop 4) = contents.length % 4294967296

theorem littleEndian_inj {xs ys : Bytes} (hlength : xs.length = ys.length)
    (h : littleEndian xs = littleEndian ys) : xs = ys := by
  induction xs generalizing ys with
  | nil => exact (List.eq_nil_of_length_eq_zero hlength.symm).symm
  | cons x xs ih =>
    cases ys with
    | nil => cases hlength
    | cons y ys =>
      have hsum : x.toNat + 256 * littleEndian xs = y.toNat + 256 * littleEndian ys := h
      have hx := x.toNat_lt
      have hy := y.toNat_lt
      rw [UInt8.toNat_inj.mp (show x.toNat = y.toNat by omega),
        ih (Nat.succ.inj hlength) (by omega)]

theorem IsTrailer.eq {contents t₁ t₂ : Bytes} (h₁ : IsTrailer contents t₁)
    (h₂ : IsTrailer contents t₂) : t₁ = t₂ := by
  obtain ⟨hlength₁, hsum₁, hsize₁⟩ := h₁
  obtain ⟨hlength₂, hsum₂, hsize₂⟩ := h₂
  have htake : t₁.take 4 = t₂.take 4 :=
    littleEndian_inj (by simp [hlength₁, hlength₂]) (hsum₁.trans hsum₂.symm)
  have hdrop : t₁.drop 4 = t₂.drop 4 :=
    littleEndian_inj (by simp [hlength₁, hlength₂]) (hsize₁.trans hsize₂.symm)
  rw [← List.take_append_drop 4 t₁, htake, hdrop, List.take_append_drop]

theorem IsTrailer.contents_alike {trailer c₁ c₂ : Bytes} (h₁ : IsTrailer c₁ trailer)
    (h₂ : IsTrailer c₂ trailer) :
    crc32 c₁ = crc32 c₂ ∧ c₁.length % 4294967296 = c₂.length % 4294967296 :=
  ⟨UInt32.toNat_inj.mp (h₁.2.1.symm.trans h₂.2.1), h₁.2.2.symm.trans h₂.2.2⟩

theorem checkTrailer_eq_ok_iff {contents bytes : Bytes} :
    checkTrailer contents bytes = .ok () ↔
      ∃ trailer rest, bytes = trailer ++ rest ∧ IsTrailer contents trailer := by
  constructor
  · intro h
    rw [checkTrailer] at h
    split at h
    · cases h
    · next fields rest htake =>
      obtain ⟨hlength, rfl⟩ := takeBytes_eq_ok htake
      split at h
      · next hfields => exact ⟨fields, rest, rfl, hlength, hfields⟩
      · cases h
  · rintro ⟨trailer, rest, rfl, hlength, hfields⟩
    rw [checkTrailer, takeBytes_append hlength]
    exact if_pos hfields

end Trailer

inductive IsMember : Bytes → Bytes → Prop
  | mk {header body trailer contents : Bytes} : Skips skipHeader header → Inflates body contents →
      IsTrailer contents trailer → IsMember (header ++ (body ++ trailer)) contents

theorem decompress_eq (bytes : Bytes) :
    decompress bytes =
      match skipHeader bytes with
      | .error e => .error e
      | .ok body =>
        match inflateFront body with
        | .error e => .error e
        | .ok (contents, rest) => (checkTrailer contents rest).map fun _ => contents := by
  rw [decompress]
  cases skipHeader bytes with
  | error e => rfl
  | ok body =>
    dsimp only
    rw [inflateFront]
    cases inflate (bitsOf body) with
    | error e => rfl
    | ok result =>
      dsimp only
      cases checkTrailer result.1.toList (body.drop (body.length - result.2.length / 8)) <;> rfl

theorem IsMember.decompress_append {member contents : Bytes} (h : IsMember member contents)
    (rest : Bytes) : decompress (member ++ rest) = .ok contents := by
  obtain ⟨hheader, hbody, htrailer⟩ := h
  rw [decompress_eq, List.append_assoc, hheader, List.append_assoc]
  dsimp only
  rw [hbody]
  dsimp only
  rw [checkTrailer_eq_ok_iff.mpr ⟨_, rest, rfl, htrailer⟩]
  rfl

theorem decompress_eq_ok_iff {bytes contents : Bytes} :
    decompress bytes = .ok contents ↔
      ∃ member rest, bytes = member ++ rest ∧ IsMember member contents := by
  constructor
  · intro h
    rw [decompress_eq] at h
    split at h
    · cases h
    · next body hskip =>
      split at h
      · cases h
      · next out rest hinflate =>
        cases hcheck : checkTrailer out rest with
        | error e =>
          rw [hcheck] at h
          cases h
        | ok =>
          rw [hcheck] at h
          cases h
          obtain ⟨header, rfl, hheader⟩ := skipHeader_local hskip
          obtain ⟨front, rfl, hfront⟩ := inflateFront_local hinflate
          obtain ⟨trailer, rest, rfl, htrailer⟩ := checkTrailer_eq_ok_iff.mp hcheck
          exact ⟨header ++ (front ++ trailer), rest, by simp, .mk hheader hfront htrailer⟩
  · rintro ⟨member, rest, rfl, hmember⟩
    exact hmember.decompress_append rest

theorem IsMember.eq_of_append_eq {m₁ m₂ c₁ c₂ r₁ r₂ : Bytes} (h₁ : IsMember m₁ c₁)
    (h₂ : IsMember m₂ c₂) (h : m₁ ++ r₁ = m₂ ++ r₂) : m₁ = m₂ := by
  obtain ⟨hheader₁, hbody₁, htrailer₁⟩ := h₁
  obtain ⟨hheader₂, hbody₂, htrailer₂⟩ := h₂
  simp only [List.append_assoc] at h
  obtain ⟨rfl, hafter⟩ := hheader₁.append_inj hheader₂ h
  obtain ⟨rfl, -, hrest⟩ := hbody₁.append_inj hbody₂ hafter
  have hlength := htrailer₁.1.trans htrailer₂.1.symm
  rw [(List.append_inj hrest hlength).1]

theorem IsMember.exists_front {member contents : Bytes} (h : IsMember member contents) :
    ∃ front trailer, member = front ++ trailer ∧ 10 ≤ front.length ∧ IsTrailer contents trailer ∧
      ∀ other contents', decompress (front ++ other) = .ok contents' → trailer <+: other := by
  obtain @⟨header, body, trailer, contents, hheader, hbody, htrailer⟩ := h
  refine ⟨header ++ body, trailer, by simp, ?_, htrailer, fun other contents' hother => ?_⟩
  · have := hheader.ten_le
    rw [List.length_append]
    omega
  · obtain ⟨_, rest, heq, hmember⟩ := decompress_eq_ok_iff.mp hother
    obtain ⟨hheader', hbody', htrailer'⟩ := hmember
    simp only [List.append_assoc] at heq
    obtain ⟨rfl, hafter⟩ := hheader.append_inj hheader' heq
    obtain ⟨rfl, rfl, hrest⟩ := hbody.append_inj hbody' hafter
    rw [hrest, htrailer'.eq htrailer]
    exact List.prefix_append _ _

theorem IsMember.decompress_take {member contents : Bytes} (h : IsMember member contents)
    (rest : Bytes) {k : Nat} (hk : k < member.length) :
    ∃ e, decompress ((member ++ rest).take k) = .error e := by
  cases hfront : decompress ((member ++ rest).take k) with
  | error e => exact ⟨e, rfl⟩
  | ok other =>
    obtain ⟨member', rest', heq, hmember'⟩ := decompress_eq_ok_iff.mp hfront
    have hstart : member' ++ (rest' ++ (member ++ rest).drop k) = member ++ rest := by
      rw [← List.append_assoc, ← heq, List.take_append_drop]
    have hlength := congrArg List.length heq
    rw [hmember'.eq_of_append_eq h hstart] at hlength
    simp only [List.length_take, List.length_append] at hlength
    omega

end Gzip

end SelectorXPath
