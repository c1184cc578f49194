import Mathlib.Data.List.Infix
import SelectorXPath.Proofs.EncodedText
import SelectorXPath.Proofs.MemberEnds
import SelectorXPath.SelectorList.Source

namespace SelectorXPath

open Gzip

/-- A reader takes a value from the first `n` bytes of a stream: they end with the trailer of the
contents, nothing behind them matters, and without all of them nothing is read. -/
structure SelfDelimited {ε α : Type} (read : Bytes → Except ε α) (least : Nat)
    (stream contents : Bytes) (value : α) (n : Nat) : Prop where
  end_le : n ≤ stream.length
  trailer : IsTrailer contents ((stream.take n).drop (n - 8))
  rest_ignored : ∀ other, read (stream.take n ++ other) = .ok value
  front_refused : ∀ k, least ≤ k → k < n → ∃ e, read (stream.take k) = .error e
  trailer_kept : ∀ other value', read (stream.take (n - 8) ++ other) = .ok value' →
    other.take 8 = (stream.take n).drop (n - 8)
  contents_alike : ∀ contents', IsTrailer contents' ((stream.take n).drop (n - 8)) →
    crc32 contents' = crc32 contents ∧ contents'.length % 4294967296 = contents.length % 4294967296

theorem exists_selfDelimited {ε α : Type} {read : Bytes → Except ε α} {least : Nat}
    {stream contents : Bytes} {value : α} (hleast : least ≤ 10)
    (hstream : decompress stream = .ok contents)
    (hread : ∀ s, stream.take least <+: s → decompress s = .ok contents → read s = .ok value)
    (hsome : ∀ s v, stream.take least <+: s → read s = .ok v → ∃ c, decompress s = .ok c) :
    ∃ n, SelfDelimited read least stream contents value n := by
  obtain ⟨member, rest, rfl, hmember⟩ := decompress_eq_ok_iff.mp hstream
  obtain ⟨front, trailer, rfl, hten, htrailer, hkept⟩ := hmember.exists_front
  have hlength : (front ++ trailer).length = front.length + 8 := by
    rw [List.length_append, htrailer.1]
  have htake : ((front ++ trailer) ++ rest).take (front.length + 8) = front ++ trailer := by
    rw [← hlength, List.take_left]
  have hfront : ((front ++ trailer) ++ rest).take (front.length + 8 - 8) = front := by
    rw [Nat.add_sub_cancel, List.append_assoc, List.take_left]
  have htail : (((front ++ trailer) ++ rest).take (front.length + 8)).drop (front.length + 8 - 8) =
      trailer := by
    rw [htake, Nat.add_sub_cancel, List.drop_left]
  have hstart (k : Nat) (hk : least ≤ k) (other : Bytes) :
      ((front ++ trailer) ++ rest).take least <+: ((front ++ trailer) ++ rest).take k ++ other :=
    (List.take_prefix_take_left hk).trans (List.prefix_append _ _)
  refine ⟨front.length + 8, ?_, ?_, ?_, ?_, ?_, ?_⟩
  · rw [List.length_append]
    omega
  · rw [htail]
    exact htrailer
  · intro other
    have hother := hmember.decompress_append other
    rw [← htake] at hother
    exact hread _ (hstart _ (by omega) other) hother
  · intro k hk hlt
    cases hvalue : read (((front ++ trailer) ++ rest).take k) with
    | error e => exact ⟨e, rfl⟩
    | ok v =>
      obtain ⟨c, hc⟩ := hsome _ v (List.take_prefix_take_left hk) hvalue
      obtain ⟨e, he⟩ := hmember.decompress_take rest (k := k) (by omega)
      rw [he] at hc
      cases hc
  · intro other v hv
    obtain ⟨c, hc⟩ := hsome _ v (hstart _ (by omega) other) hv
    rw [hfront] at hc
    obtain ⟨more, rfl⟩ := hkept other c hc
    rw [htail, ← htrailer.1, List.take_left]
  · intro contents' h
    rw [htail] at h
    exact h.contents_alike htrailer

theorem decompressText_eq_ok_iff {bytes : Bytes} {t : Text} :
    decompressText bytes = .ok t ↔ decompress bytes = .ok (Utf8.encode t) := by
  rw [decompressText]
  cases decompress bytes with
  | error e => simp
  | ok contents =>
    simp only [textOfBytes, Except.ok.injEq]
    rw [← Utf8.decode_eq_ok_iff]
    cases Utf8.decode contents <;> simp

theorem decodeInput_eq_ok_iff {bytes : Bytes} {t : Text} (h : [0x1F, 0x8B] <+: bytes) :
    decodeInput bytes = .ok t ↔ decompressText bytes = .ok t := by
  obtain ⟨rest, rfl⟩ := h
  have hlooks : looksCompressed ([0x1F, 0x8B] ++ rest) = true := rfl
  rw [decodeInput, if_pos hlooks]
  cases decompressText ([0x1F, 0x8B] ++ rest) <;> simp [Except.mapError]

theorem loadFile_eq_ok_iff {name : Text} {bytes : Bytes} {selectors : List Text}
    (h : pathExtension name = some "gz".toList) :
    loadFile name (.ok (.file bytes)) = .ok selectors ↔
      ∃ t, decompressText bytes = .ok t ∧ selectorsOf t = selectors := by
  rw [loadFile, readList, if_pos h]
  simp only [readCompressed, FileEntry.read]
  cases decompressText bytes <;> simp [Except.mapError, Except.map]

theorem compressed_list_read_whole :
    (∀ stream text, [0x1F, 0x8B] <+: stream → decodeInput stream = .ok text →
      ∃ n, SelfDelimited decodeInput 2 stream (Utf8.encode text) text n) ∧
    ∀ name stream selectors, pathExtension name = some "gz".toList →
      loadFile name (.ok (.file stream)) = .ok selectors →
      ∃ text n, selectors = selectorsOf text ∧
        SelfDelimited (fun bytes => loadFile name (.ok (.file bytes))) 0 stream
          (Utf8.encode text) selectors n := by
  constructor
  · intro stream text hstart h
    have htext := decompressText_eq_ok_iff.mp ((decodeInput_eq_ok_iff hstart).mp h)
    have hmagic : stream.take 2 = [0x1F, 0x8B] := (List.prefix_iff_eq_take.mp hstart).symm
    refine exists_selfDelimited (by decide) htext (fun s hs hd => ?_) fun s t hs hd => ?_
    · rw [hmagic] at hs
      exact (decodeInput_eq_ok_iff hs).mpr (decompressText_eq_ok_iff.mpr hd)
    · rw [hmagic] at hs
      exact ⟨_, decompressText_eq_ok_iff.mp ((decodeInput_eq_ok_iff hs).mp hd)⟩
  · intro name stream selectors hname h
    obtain ⟨text, htext, rfl⟩ := (loadFile_eq_ok_iff hname).mp h
    have hbytes := decompressText_eq_ok_iff.mp htext
    obtain ⟨n, hn⟩ : ∃ n, SelfDelimited (fun bytes => loadFile name (.ok (.file bytes))) 0 stream
        (Utf8.encode text) (selectorsOf text) n := by
      refine exists_selfDelimited (by decide) hbytes (fun s _ hd => ?_) fun s found _ hd => ?_
      · exact (loadFile_eq_ok_iff hname).mpr ⟨text, decompressText_eq_ok_iff.mpr hd, rfl⟩
      · obtain ⟨t, ht, -⟩ := (loadFile_eq_ok_iff hname).mp hd
        exact ⟨_, decompressText_eq_ok_iff.mp ht⟩
    exact ⟨text, n, rfl, hn⟩

def namedStream : Bytes :=
  [0x1F, 0x8B, 0x08, 0x08, 0x00, 0x00, 0x00, 0x00, 0x00, 0x03, 0x6C, 0x00, 0xCB, 0xC9, 0xD4, 0x4B,
    0xE4, 0xCA, 0x01, 0x12, 0x0A, 0x76, 0x0A, 0x49, 0x5C, 0x00, 0xF1, 0x37, 0x32, 0xFE, 0x0E, 0x00,
    0x00, 0x00, 0x00]

theorem compressed_list_read_whole_named :
    decodeInput namedStream = .ok "li.a\nli.a > b\n".toList ∧
      (∃ n, SelfDelimited decodeInput 2 namedStream (Utf8.encode "li.a\nli.a > b\n".toList)
        "li.a\nli.a > b\n".toList n) ∧
      loadFile "list.gz".toList (.ok (.file namedStream)) =
        .ok ["li.a".toList, "li.a > b".toList] ∧
      ∃ text n, ["li.a".toList, "li.a > b".toList] = selectorsOf text ∧
        SelfDelimited (fun bytes => loadFile "list.gz".toList (.ok (.file bytes))) 0 namedStream
          (Utf8.encode text) ["li.a".toList, "li.a > b".toList] n := by
  have hinput : decodeInput namedStream = .ok "li.a\nli.a > b\n".toList := by decide +kernel
  have hfile : loadFile "list.gz".toList (.ok (.file namedStream)) =
      .ok ["li.a".toList, "li.a > b".toList] := by
    decide +kernel
  exact ⟨hinput, compressed_list_read_whole.1 _ _ (by decide) hinput, hfile,
    compressed_list_read_whole.2 _ _ _ (by decide) hfile⟩

end SelectorXPath
