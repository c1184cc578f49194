import SelectorXPath.Proofs.Characters
import SelectorXPath.Proofs.EncodedText
import SelectorXPath.SelectorList.Source

namespace SelectorXPath

section Bytes

theorem looksCompressed_encode (t : Text) : looksCompressed (Utf8.encode t) = false := by
  cases hlooks : looksCompressed (Utf8.encode t) with
  | false => rfl
  | true =>
    unfold looksCompressed at hlooks
    split at hlooks
    · next rest heq =>
      -- The first byte is a character by itself, and no character starts with the second.
      have hfirst : Utf8.decodeFrom 0 (0x1F :: 0x8B :: rest) =
          (Utf8.decodeFrom 1 (0x8B :: rest)).map ('\x1F' :: ·) :=
        Utf8.decodeFrom_of_readChar rfl
      have hread : Utf8.readChar (0x8B :: rest) = .error (some 1) := rfl
      have hsecond : Utf8.decodeFrom 1 (0x8B :: rest) = .error ⟨1, some 1⟩ := by
        rw [Utf8.decodeFrom, hread]
      have hdecode := Utf8.decodeFrom_encode 0 t
      rw [heq, hfirst, hsecond] at hdecode
      cases hdecode
    · cases hlooks

theorem decodeInput_encode (t : Text) : decodeInput (Utf8.encode t) = .ok t := by
  rw [decodeInput, looksCompressed_encode, Utf8.decode_eq_ok_iff.mpr rfl]
  rfl

theorem loadInput_encode (t : Text) : loadInput (Utf8.encode t) = .ok (selectorsOf t) := by
  rw [loadInput, decodeInput_encode]
  rfl

theorem loadFile_encode {name : Text} (h : pathExtension name ≠ some "gz".toList) (t : Text) :
    loadFile name (.ok (.file (Utf8.encode t))) = .ok (selectorsOf t) := by
  rw [loadFile, readList, if_neg h]
  simp only [readPlain, FileEntry.read, textOfBytes, Utf8.decode_eq_ok_iff.mpr rfl]
  rfl

end Bytes

section Lines

theorem splitOnChar_append_cons (mark : Char) (s t : Text) :
    splitOnChar mark (s ++ mark :: t) = splitOnChar mark s ++ splitOnChar mark t := by
  induction s with
  | nil => simp [splitOnChar]
  | cons c s ih =>
    rw [List.cons_append, splitOnChar, splitOnChar, ih]
    split
    · rfl
    · cases hs : splitOnChar mark s with
      | nil => exact absurd hs (splitOnChar_ne_nil mark s)
      | cons piece more => rfl

theorem splitOnChar_eq_singleton {mark : Char} {t : Text} (h : mark ∉ t) :
    splitOnChar mark t = [t] := by
  induction t with
  | nil => rfl
  | cons c t ih =>
    have hc : c ≠ mark := (List.ne_of_not_mem_cons h).symm
    rw [splitOnChar, if_neg hc, ih (List.not_mem_of_not_mem_cons h)]

theorem selectorsOf_append_newline (s t : Text) :
    selectorsOf (s ++ '\n' :: t) = selectorsOf s ++ selectorsOf t := by
  rw [selectorsOf, splitOnChar_append_cons, List.map_append, List.filter_append]
  rfl

theorem selectorsOf_line {s : Text} (h : '\n' ∉ s) :
    selectorsOf s = [trim s].filter fun line => !line.isEmpty && !isComment line := by
  rw [selectorsOf, splitOnChar_eq_singleton h, List.map_singleton]

theorem selectorsOf_carriage {s : Text} (h : '\n' ∉ s) :
    selectorsOf (s ++ ['\r']) = selectorsOf s := by
  rw [selectorsOf_line h, selectorsOf_line (by simpa using h), trim_append_blanks (by decide)]

inductive JoinsLines : List Text → Text → Prop
  | nil : JoinsLines [] []
  | last (s : Text) : JoinsLines [s] s
  | newline {s t : Text} {more : List Text} : JoinsLines more t →
      JoinsLines (s :: more) (s ++ '\n' :: t)
  | carriage {s t : Text} {more : List Text} : JoinsLines more t →
      JoinsLines (s :: more) (s ++ '\r' :: '\n' :: t)

theorem JoinsLines.selectorsOf_flatMap {lines : List Text} {t : Text} (h : JoinsLines lines t)
    (hlines : ∀ line ∈ lines, '\n' ∉ line) : selectorsOf t = lines.flatMap selectorsOf := by
  induction h with
  | nil => rfl
  | last s => simp
  | @newline s t more _ ih =>
    rw [selectorsOf_append_newline, ih fun line hline => hlines line (.tail s hline),
      List.flatMap_cons]
  | @carriage s t more _ ih =>
    have hcut : s ++ '\r' :: '\n' :: t = (s ++ ['\r']) ++ '\n' :: t := by simp
    rw [hcut, selectorsOf_append_newline, selectorsOf_carriage (hlines s (by simp)),
      ih fun line hline => hlines line (.tail s hline), List.flatMap_cons]

structure IsEntry (s : Text) : Prop where
  ne_nil : s ≠ []
  trimmed : trim s = s
  newline : '\n' ∉ s
  comment : isComment s = false

theorem IsEntry.selectorsOf_line {s a b : Text} (h : IsEntry s) (ha : Blanks a) (hb : Blanks b)
    (hline : '\n' ∉ a ++ s ++ b) : selectorsOf (a ++ s ++ b) = [s] := by
  have hne : s.isEmpty = false := List.isEmpty_eq_false_iff.mpr h.ne_nil
  rw [SelectorXPath.selectorsOf_line hline, trim_blanks_append ha hb h.trimmed]
  simp [hne, h.comment]

theorem JoinsLines.selectorsOf_eq {selectors : List Text} {t : Text} (h : JoinsLines selectors t)
    (hentries : ∀ s ∈ selectors, IsEntry s) : selectorsOf t = selectors := by
  have hplain {s : Text} (hs : s ∈ selectors) : selectorsOf s = [s] := by
    have hentry := hentries s hs
    simpa using hentry.selectorsOf_line (a := []) (b := []) (by simp [Blanks]) (by simp [Blanks])
      (by simpa using hentry.newline)
  rw [h.selectorsOf_flatMap fun s hs => (hentries s hs).newline, List.flatMap_congr fun s => hplain]
  exact List.flatMap_singleton' selectors

end Lines

end SelectorXPath
