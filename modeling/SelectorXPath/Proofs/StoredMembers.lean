import Mathlib.Algebra.Group.Nat.Defs
import SelectorXPath.Proofs.CompressedLists
import SelectorXPath.Proofs.PlainLists

namespace SelectorXPath

namespace Gzip

section Numbers

def toLittleEndian : Nat → Nat → Bytes
  | 0, _ => []
  | count + 1, n => UInt8.ofNat (n % 256) :: toLittleEndian count (n / 256)

@[simp] theorem length_toLittleEndian (count n : Nat) :
    (toLittleEndian count n).length = count := by
  induction count generalizing n with
  | zero => rfl
  | succ count ih => simp [toLittleEndian, ih]

theorem toNat_ofNat_mod (n : Nat) : (UInt8.ofNat (n % 256)).toNat = n % 256 := by
  rw [UInt8.toNat_ofNat']
  omega

theorem littleEndian_toLittleEndian {count n : Nat} (h : n < 256 ^ count) :
    littleEndian (toLittleEndian count n) = n := by
  induction count generalizing n with
  | zero =>
    have hzero : n = 0 := by simpa using h
    simp [hzero, toLittleEndian, littleEndian]
  | succ count ih =>
    have hdiv : n / 256 < 256 ^ count := by
      rw [Nat.div_lt_iff_lt_mul (by decide)]
      exact h
    have hcons : littleEndian (toLittleEndian (count + 1) n) =
        (UInt8.ofNat (n % 256)).toNat + 256 * littleEndian (toLittleEndian count (n / 256)) := rfl
    rw [hcons, ih hdiv, toNat_ofNat_mod]
    omega

theorem lowBits_mod (count n : Nat) : lowBits count (n % 2 ^ count) = lowBits count n := by
  induction count generalizing n with
  | zero => rfl
  | succ count ih =>
    have hhalf : n % 2 ^ (count + 1) / 2 = n / 2 % 2 ^ count := by
      rw [Nat.pow_succ, Nat.mul_comm, Nat.mod_mul_right_div_self]
    have hbit : n % 2 ^ (count + 1) % 2 = n % 2 := Nat.mod_mod_of_dvd n ⟨2 ^ count, Nat.pow_succ'⟩
    rw [lowBits, lowBits, hhalf, hbit, ih]

theorem lowBits_add (count more n : Nat) :
    lowBits (count + more) n = lowBits count n ++ lowBits more (n / 2 ^ count) := by
  induction count generalizing n with
  | zero => simp [lowBits]
  | succ count ih =>
    rw [Nat.add_right_comm, lowBits, ih, lowBits, Nat.div_div_eq_div_mul, Nat.pow_succ,
      Nat.mul_comm 2]
    rfl

theorem bitsOf_cons (b : UInt8) (bytes : Bytes) :
    bitsOf (b :: bytes) = lowBits 8 b.toNat ++ bitsOf bytes := rfl

theorem bitsOf_toLittleEndian (count n : Nat) :
    bitsOf (toLittleEndian count n) = lowBits (8 * count) n := by
  induction count generalizing n with
  | zero => rfl
  | succ count ih =>
    rw [toLittleEndian, bitsOf_cons, ih, toNat_ofNat_mod, Nat.mul_succ, Nat.add_comm, lowBits_add]
    exact congrArg (· ++ _) (lowBits_mod 8 n)

theorem readNat_lowBits {width n : Nat} (h : n < 2 ^ width) (rest : Bits) :
    readNat width (lowBits width n ++ rest) = .ok (n, rest) := by
  induction width generalizing n with
  | zero =>
    have hzero : n = 0 := by simpa using h
    simp [hzero, readNat, lowBits]
  | succ width ih =>
    have hdiv : n / 2 < 2 ^ width := by
      rw [Nat.div_lt_iff_lt_mul (by decide)]
      exact h
    rw [lowBits, List.cons_append, readNat, ih hdiv]
    have hbit : (n % 2 == 1).toNat = n % 2 := by
      rcases Nat.mod_two_eq_zero_or_one n with h0 | h1
      · simp [h0]
      · simp [h1]
    simp only [hbit]
    rw [Nat.mod_add_div]

theorem readNat_toLittleEndian (count : Nat) {n : Nat} (h : n < 2 ^ (8 * count)) (rest : Bits) :
    readNat (8 * count) (bitsOf (toLittleEndian count n) ++ rest) = .ok (n, rest) := by
  rw [bitsOf_toLittleEndian, readNat_lowBits h]

theorem readBytes_bitsOf (out : Array UInt8) (bytes : Bytes) (rest : Bits) :
    readBytes out bytes.length (bitsOf bytes ++ rest) = .ok (out ++ bytes.toArray, rest) := by
  induction bytes generalizing out with
  | nil => simp [readBytes, bitsOf]
  | cons b bytes ih =>
    rw [List.length_cons, readBytes, bitsOf_cons, List.append_assoc,
      readNat_lowBits (show b.toNat < 2 ^ 8 from b.toNat_lt)]
    simp [ih]

end Numbers

structure StoredBlock where
  padding : Fin 32
  bytes : Bytes
  fits : bytes.length ≤ 65535

namespace StoredBlock

def write (last : Bool) (block : StoredBlock) : Bytes :=
  UInt8.ofNat (last.toNat + 8 * block.padding) ::
    (toLittleEndian 2 block.bytes.length ++
      (toLittleEndian 2 (65535 - block.bytes.length) ++ block.bytes))

theorem lowBits_first (last : Bool) (padding : Fin 32) :
    lowBits 8 (UInt8.ofNat (last.toNat + 8 * padding)).toNat =
      lowBits 1 last.toNat ++ (lowBits 2 0 ++ lowBits 5 padding) := by
  revert last padding
  decide

theorem readStored_write (block : StoredBlock) (out : Array UInt8) (other : Bytes) :
    readStored out (lowBits 5 block.padding ++
      (bitsOf (toLittleEndian 2 block.bytes.length) ++
        (bitsOf (toLittleEndian 2 (65535 - block.bytes.length)) ++
          (bitsOf block.bytes ++ bitsOf other)))) =
      .ok (out ++ block.bytes.toArray, bitsOf other) := by
  have hfits := block.fits
  have halign (bytes : Bytes) :
      alignToByte (lowBits 5 block.padding ++ bitsOf bytes) = bitsOf bytes := by
    have hlength : (lowBits 5 block.padding ++ bitsOf bytes).length % 8 =
        (lowBits 5 block.padding).length := by
      rw [List.length_append, length_lowBits, length_bitsOf]
      omega
    rw [alignToByte, hlength, List.drop_left]
  simp only [← bitsOf_append]
  rw [readStored, halign]
  simp only [bitsOf_append]
  rw [readNat_toLittleEndian 2 (by omega)]
  dsimp only
  rw [readNat_toLittleEndian 2 (by omega)]
  dsimp only
  rw [if_pos (by omega), readBytes_bitsOf]

theorem readBlocks_write (block : StoredBlock) (last : Bool) (out : Array UInt8) (other : Bytes) :
    readBlocks out (bitsOf (block.write last ++ other)) =
      if last then .ok (out ++ block.bytes.toArray, bitsOf other)
      else readBlocks (out ++ block.bytes.toArray) (bitsOf other) := by
  have hlast : last.toNat < 2 ^ 1 := by cases last <;> decide
  have hbits : bitsOf (block.write last ++ other) =
      lowBits 1 last.toNat ++ (lowBits 2 0 ++ (lowBits 5 block.padding ++
        (bitsOf (toLittleEndian 2 block.bytes.length) ++
          (bitsOf (toLittleEndian 2 (65535 - block.bytes.length)) ++
            (bitsOf block.bytes ++ bitsOf other))))) := by
    simp only [write, List.cons_append, bitsOf_cons, lowBits_first, bitsOf_append,
      List.append_assoc]
  rw [hbits, readBlocks, readNat_lowBits hlast]
  dsimp only
  rw [readNat_lowBits (by decide)]
  dsimp only
  rw [readBlock, readStored_write]
  cases last <;> rfl

end StoredBlock

structure StoredBody where
  front : List StoredBlock
  last : StoredBlock

namespace StoredBody

def contents (body : StoredBody) : Bytes := (body.front ++ [body.last]).flatMap StoredBlock.bytes

def write (body : StoredBody) : Bytes :=
  body.front.flatMap (StoredBlock.write false) ++ body.last.write true

theorem readBlocks_front (front : List StoredBlock) (out : Array UInt8) (other : Bytes) :
    readBlocks out (bitsOf (front.flatMap (StoredBlock.write false) ++ other)) =
      readBlocks (out ++ (front.flatMap StoredBlock.bytes).toArray) (bitsOf other) := by
  induction front generalizing out with
  | nil => simp
  | cons block front ih =>
    rw [List.flatMap_cons, List.append_assoc, block.readBlocks_write]
    simp [ih]

theorem inflates (body : StoredBody) : Inflates body.write body.contents := by
  intro other
  have hinflate : inflate (bitsOf (body.write ++ other)) =
      .ok (body.contents.toArray, bitsOf other) := by
    rw [inflate, write, List.append_assoc, readBlocks_front, body.last.readBlocks_write]
    simp [contents]
  have hdrop : (body.write ++ other).length - (bitsOf other).length / 8 = body.write.length := by
    rw [length_bitsOf, List.length_append]
    omega
  rw [inflateFront, hinflate]
  simp only [hdrop, List.drop_left]

end StoredBody

structure MemberHeader where
  isText : Bool
  hasChecksum : Bool
  extra : Option Bytes
  name : Option Bytes
  comment : Option Bytes
  time : UInt32
  hints : UInt8
  system : UInt8
  extra_fits : ∀ field ∈ extra, field.length ≤ 65535
  name_fits : ∀ field ∈ name, 0 ∉ field ∧ field.length ≤ maxFieldLength
  comment_fits : ∀ field ∈ comment, 0 ∉ field ∧ field.length ≤ maxFieldLength

def flagByte (text checksum extra name comment : Bool) : UInt8 :=
  UInt8.ofNat (text.toNat + 2 * checksum.toNat + 4 * extra.toNat + 8 * name.toNat +
    16 * comment.toNat)

theorem ofByte_flagByte (text checksum extra name comment : Bool) :
    flagByte text checksum extra name comment &&& 0xE0 = 0 ∧
      HeaderFlags.ofByte (flagByte text checksum extra name comment) =
        ⟨checksum, extra, name, comment⟩ := by
  revert text checksum extra name comment
  decide

def sizedField (field : Bytes) : Bytes := toLittleEndian 2 field.length ++ field

def zeroEndedField (field : Bytes) : Bytes := field ++ [0]

namespace MemberHeader

def start (header : MemberHeader) : Bytes :=
  0x1F :: 0x8B :: 0x08 ::
    flagByte header.isText header.hasChecksum header.extra.isSome header.name.isSome
      header.comment.isSome ::
    (toLittleEndian 4 header.time.toNat ++ [header.hints, header.system])

def parts (header : MemberHeader) : Bytes :=
  header.extra.elim [] sizedField ++
    (header.name.elim [] zeroEndedField ++ header.comment.elim [] zeroEndedField)

def checksum (header : MemberHeader) : Bytes :=
  if header.hasChecksum then
    toLittleEndian 2 ((crc32 (header.start ++ header.parts)).toNat % 65536)
  else []

def write (header : MemberHeader) : Bytes := header.start ++ (header.parts ++ header.checksum)

end MemberHeader

section Skipping

theorem skips_sizedField {field : Bytes} (h : field.length ≤ 65535) :
    Skips skipSized (sizedField field) := by
  intro other
  have hsize : littleEndian (toLittleEndian 2 field.length) = field.length :=
    littleEndian_toLittleEndian (by omega)
  rw [sizedField, List.append_assoc, skipSized, takeBytes_append (length_toLittleEndian 2 _)]
  simp only [hsize, takeBytes_append rfl]

theorem skips_zeroEndedField {field : Bytes} {room : Nat} (hzero : 0 ∉ field)
    (h : field.length ≤ room) : Skips (skipZeroEnded room) (zeroEndedField field) := by
  intro other
  induction field generalizing room with
  | nil =>
    rw [zeroEndedField, List.nil_append, List.singleton_append, skipZeroEnded.eq_def]
    rfl
  | cons b field ih =>
    have hb : b ≠ 0 := (List.ne_of_not_mem_cons hzero).symm
    cases room with
    | zero => simp at h
    | succ room =>
      have hmore := ih (List.not_mem_of_not_mem_cons hzero) (Nat.le_of_succ_le_succ h)
      simpa [zeroEndedField, skipZeroEnded, hb] using hmore

theorem skips_optional {skip : Bytes → Except GzipError Bytes} {write : Bytes → Bytes}
    {field : Option Bytes} (h : ∀ bytes ∈ field, Skips skip (write bytes)) :
    Skips (skipIf field.isSome skip) (field.elim [] write) := by
  cases field with
  | none => exact fun _ => rfl
  | some bytes => exact h bytes rfl

theorem skipHeaderChecksum_append (before other : Bytes) :
    skipHeaderChecksum (before ++ (toLittleEndian 2 ((crc32 before).toNat % 65536) ++ other))
      (toLittleEndian 2 ((crc32 before).toNat % 65536) ++ other) = .ok other := by
  have hsum : littleEndian (toLittleEndian 2 ((crc32 before).toNat % 65536)) =
      (crc32 before).toNat % 65536 :=
    littleEndian_toLittleEndian (by omega)
  rw [skipHeaderChecksum, takeBytes_append (length_toLittleEndian 2 _)]
  simp [hsum]

theorem MemberHeader.skipParts_parts (header : MemberHeader) (other : Bytes) :
    skipParts (header.write ++ other)
      ⟨header.hasChecksum, header.extra.isSome, header.name.isSome, header.comment.isSome⟩
      (header.parts ++ (header.checksum ++ other)) = .ok other := by
  have hextra := skips_optional fun field hf => skips_sizedField (header.extra_fits field hf)
  have hname := skips_optional fun field hf =>
    skips_zeroEndedField (header.name_fits field hf).1 (header.name_fits field hf).2
  have hcomment := skips_optional fun field hf =>
    skips_zeroEndedField (header.comment_fits field hf).1 (header.comment_fits field hf).2
  have hsum : skipIf header.hasChecksum (skipHeaderChecksum (header.write ++ other))
      (header.checksum ++ other) = .ok other := by
    cases hc : header.hasChecksum with
    | false => simp [skipIf, MemberHeader.checksum, hc]
    | true =>
      have hwrite : header.write ++ other =
          (header.start ++ header.parts) ++ (header.checksum ++ other) := by
        simp [MemberHeader.write]
      rw [skipIf, if_pos rfl, hwrite, MemberHeader.checksum, if_pos hc]
      exact skipHeaderChecksum_append _ other
  rw [skipParts, MemberHeader.parts, List.append_assoc, List.append_assoc, hextra]
  dsimp only
  rw [hname]
  dsimp only
  rw [hcomment]
  exact hsum

theorem MemberHeader.skips (header : MemberHeader) : Skips skipHeader header.write := by
  intro other
  have hlength : header.start.length = 10 := by simp [MemberHeader.start]
  have hsplit : header.write ++ other =
      header.start ++ (header.parts ++ (header.checksum ++ other)) := by
    simp [MemberHeader.write]
  obtain ⟨hreserved, hflags⟩ := ofByte_flagByte header.isText header.hasChecksum
    header.extra.isSome header.name.isSome header.comment.isSome
  rw [skipHeader, hsplit, takeBytes_append hlength]
  simp only [MemberHeader.start, hreserved, hflags, if_true]
  have hparts := header.skipParts_parts other
  rw [hsplit] at hparts
  exact hparts

end Skipping

def trailerOf (contents : Bytes) : Bytes :=
  toLittleEndian 4 (crc32 contents).toNat ++ toLittleEndian 4 (contents.length % 4294967296)

theorem isTrailer_trailerOf (contents : Bytes) : IsTrailer contents (trailerOf contents) := by
  have hsum := length_toLittleEndian 4 (crc32 contents).toNat
  refine ⟨by simp [trailerOf], ?_, ?_⟩
  · rw [trailerOf, List.take_left' hsum]
    exact littleEndian_toLittleEndian (crc32 contents).toNat_lt
  · rw [trailerOf, List.drop_left' hsum]
    exact littleEndian_toLittleEndian (by omega)

def storedMember (header : MemberHeader) (body : StoredBody) : Bytes :=
  header.write ++ (body.write ++ trailerOf body.contents)

theorem isMember_storedMember (header : MemberHeader) (body : StoredBody) :
    IsMember (storedMember header body) body.contents :=
  .mk header.skips body.inflates (isTrailer_trailerOf body.contents)

theorem decompress_storedMember (header : MemberHeader) (body : StoredBody) :
    decompress (storedMember header body) = .ok body.contents := by
  simpa using (isMember_storedMember header body).decompress_append []

end Gzip

open Gzip

theorem decodeInput_storedMember (header : MemberHeader) {body : StoredBody} {t : Text}
    (h : body.contents = Utf8.encode t) : decodeInput (storedMember header body) = .ok t := by
  have hstart : [0x1F, 0x8B] <+: storedMember header body := ⟨_, rfl⟩
  rw [decodeInput_eq_ok_iff hstart, decompressText_eq_ok_iff, decompress_storedMember, h]

theorem plain_and_stored_lists_load_alike (t : Text) :
    looksCompressed (Utf8.encode t) = false ∧ decodeInput (Utf8.encode t) = .ok t ∧
    loadInput (Utf8.encode t) = .ok (selectorsOf t) ∧
    (∀ name, pathExtension name ≠ some "gz".toList →
      loadFile name (.ok (.file (Utf8.encode t))) = .ok (selectorsOf t)) ∧
    ∀ (header : MemberHeader) (body : StoredBody), body.contents = Utf8.encode t →
      decodeInput (storedMember header body) = .ok t ∧
      loadInput (storedMember header body) = .ok (selectorsOf t) ∧
      ∀ name, pathExtension name = some "gz".toList →
        loadFile name (.ok (.file (storedMember header body))) = .ok (selectorsOf t) := by
  refine ⟨looksCompressed_encode t, decodeInput_encode t, loadInput_encode t,
    fun name hname => loadFile_encode hname t, fun header body hbody => ?_⟩
  have hinput := decodeInput_storedMember header hbody
  refine ⟨hinput, by rw [loadInput, hinput]; rfl, fun name hname => ?_⟩
  refine (loadFile_eq_ok_iff hname).mpr ⟨t, decompressText_eq_ok_iff.mpr ?_, rfl⟩
  rw [decompress_storedMember, hbody]

def fullHeader : MemberHeader where
  isText := true
  hasChecksum := true
  extra := some [0, 1]
  name := some [0x6C]
  comment := some []
  time := 1
  hints := 2
  system := 255
  extra_fits := by decide
  name_fits := by decide
  comment_fits := by decide

def cutBody : StoredBody :=
  ⟨[⟨0, [0xC3], by decide⟩, ⟨31, [], by decide⟩], ⟨5, [0xA9, 0x0A, 0x23, 0x62], by decide⟩⟩

theorem plain_and_stored_lists_load_alike_cut :
    cutBody.contents = Utf8.encode "é\n#b".toList ∧
      decodeInput (storedMember fullHeader cutBody) = .ok "é\n#b".toList ∧
      loadInput (storedMember fullHeader cutBody) = .ok ["é".toList, "#b".toList] ∧
      loadFile "l.gz".toList (.ok (.file (storedMember fullHeader cutBody))) =
        .ok ["é".toList, "#b".toList] ∧
      loadFile "l".toList (.ok (.file (Utf8.encode "é\n#b".toList))) =
        .ok ["é".toList, "#b".toList] := by
  have hbody : cutBody.contents = Utf8.encode "é\n#b".toList := by decide
  have hlist : selectorsOf "é\n#b".toList = ["é".toList, "#b".toList] := by decide
  obtain ⟨-, -, -, hplain, hstored⟩ := plain_and_stored_lists_load_alike "é\n#b".toList
  obtain ⟨hdecode, hinput, hfile⟩ := hstored fullHeader cutBody hbody
  rw [hlist] at hplain hinput hfile
  exact ⟨hbody, hdecode, hinput, hfile _ (by decide), hplain _ (by decide)⟩

end SelectorXPath
