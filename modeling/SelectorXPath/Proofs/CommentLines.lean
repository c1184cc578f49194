import SelectorXPath.Proofs.EarlyStops
import SelectorXPath.Proofs.ListEntries
import SelectorXPath.Proofs.UnreadablePlaces

namespace SelectorXPath

open Grammar

def filledLines (content : Text) : List Text :=
  ((splitOnChar '\n' content).map trim).filter fun line => !line.isEmpty

section Marks

variable {line : Text}

theorem CommentText.ne_nil (h : CommentText line) : line ≠ [] := by
  cases h <;> simp

theorem CommentText.noRuleApplies (h : CommentText line) : NoRuleApplies line := by
  rw [noRuleApplies_iff]
  cases h with
  | lone =>
    rw [firstMatch_hash]
    rfl
  | spaced hc =>
    rw [firstMatch_hash]
    simp [idRule, readName, isNameChar_eq_false_of_isBlank hc]

theorem firstMatch_blanks_append {w r : Text} (hw : Blanks w) (hne : w ≠ []) (hr : r ≠ [])
    (hstart : StartsOff isBlank r) : (firstMatch (w ++ r)).isSome = true := by
  obtain ⟨c, r, rfl⟩ := List.exists_cons_of_ne_nil hr
  have hc : isBlank c = false := hstart c rfl
  cases hmark : isLinkMark c with
  | false => rw [firstMatch_blank hw hne hc hmark, Option.isSome_some]
  | true =>
    obtain ⟨kind, hkind, rfl⟩ := exists_symbol_of_isLinkMark hmark
    rw [firstMatch_marked r hkind hw, Option.isSome_some]

theorem CommentText.residue_eq (h : CommentText line) (htrim : trim line = line) :
    residue line = ['#'] := by
  cases h with
  | lone => rfl
  | @spaced c r hc =>
    -- The line does not end with a blank, so something follows the blanks behind the mark.
    have hend : EndsOff isBlank (c :: r) :=
      (endsOff_append (a := ['#']) (by simp)).mp (trim_eq_self_iff.mp htrim).2
    have hlead : leadingBlanks (c :: r) ≠ [] := by simp [leadingBlanks, hc]
    have hskip : skipBlanks (c :: r) ≠ [] := by
      intro hnil
      have hall : Blanks (c :: r) := List.dropWhile_eq_nil_iff.mp hnil
      exact absurd (hall.eq_nil_of_endsOff hend) (by simp)
    have hnext := firstMatch_blanks_append (blanks_leadingBlanks (c :: r)) hlead hskip
      startsOff_dropWhile
    rw [leadingBlanks_append_skipBlanks] at hnext
    rw [residue, if_pos hnext]

theorem scan_of_noRuleApplies (started : Bool) {t : Text} (h : NoRuleApplies t) (hne : t ≠ []) :
    scan started t = .error (.unreadable t) := by
  rw [scan]
  split
  · rw [if_neg hne]
  · next hmatch => rw [noRuleApplies_iff.mp h] at hmatch; cases hmatch
  · next hmatch => rw [noRuleApplies_iff.mp h] at hmatch; cases hmatch

theorem CommentText.convert_eq (h : CommentText line) (htrim : trim line = line)
    (anchor : Anchor) : convert line anchor = .error (.grammar line 0 ['#']) := by
  have hlead : leadingBlanks line = [] :=
    leadingBlanks_run (a := []) (by simp [Blanks]) h.startsOff_blank
  have hparse : parseSelector line = .error (.grammar line 0 ['#']) := by
    rw [parseSelector, htrim, scan_of_noRuleApplies false h.noRuleApplies h.ne_nil]
    simp [hlead, byteSize, h.residue_eq htrim]
  rw [convert, PathTree.ofSelector_eq, hparse]
  rfl

end Marks

theorem selectorsOf_eq_filter (content : Text) :
    selectorsOf content = (filledLines content).filter fun line => !isComment line := by
  rw [selectorsOf, filledLines, List.filter_filter]
  exact List.filter_congr fun line _ => Bool.and_comm _ _

theorem trim_of_mem_filledLines {content line : Text} (h : line ∈ filledLines content) :
    trim line = line := by
  obtain ⟨piece, -, rfl⟩ := List.mem_map.mp (List.mem_filter.mp h).1
  exact trim_trim piece

theorem isComment_of_isOk {content line : Text} {anchor : Anchor}
    (h : line ∈ filledLines content) (hok : (Conversion.run line anchor).isOk = true) :
    isComment line = false := by
  cases hcomment : isComment line with
  | false => rfl
  | true =>
    rw [Conversion.run, (isComment_iff.mp hcomment).convert_eq (trim_of_mem_filledLines h)] at hok
    cases hok

theorem comments_hold_no_selector (content : Text) (anchor : Anchor) :
    (∀ line ∈ splitOnChar '\n' content, ¬ Blanks line → trim line ∉ selectorsOf content →
      CommentText (trim line) ∧
        convert (trim line) anchor = .error (.grammar (trim line) 0 ['#'])) ∧
    (convertAll anchor true (filledLines content)).filter Conversion.isOk =
      (convertAll anchor true (selectorsOf content)).filter Conversion.isOk := by
  constructor
  · intro line hline hblank hdropped
    have hfilled : trim line ∈ filledLines content := by
      refine List.mem_filter.mpr ⟨List.mem_map_of_mem hline, ?_⟩
      rw [Bool.not_eq_true', List.isEmpty_eq_false_iff]
      exact fun hnil => hblank (blanks_of_trim_eq_nil hnil)
    have hcomment : CommentText (trim line) := by
      rw [selectorsOf_eq_filter] at hdropped
      refine isComment_iff.mp (Bool.of_not_eq_false fun hother => hdropped ?_)
      exact List.mem_filter.mpr ⟨hfilled, by rw [hother]; rfl⟩
    exact ⟨hcomment, hcomment.convert_eq (trim_trim line) anchor⟩
  · rw [convertAll_keepGoing, convertAll_keepGoing, selectorsOf_eq_filter, List.filter_map,
      List.filter_map, List.filter_filter]
    refine congrArg _ (List.filter_congr fun line hline => ?_)
    cases hok : (Conversion.run line anchor).isOk with
    | false => simp [hok]
    | true => simp [hok, isComment_of_isOk hline hok]

theorem comments_hold_no_selector_accented :
    convert "#\u2003b, c".toList .root = .error (.grammar "#\u2003b, c".toList 0 ['#']) ∧
    (convertAll .root true (filledLines "é\n\u00a0#\u2003b, c \r\n#c\n#".toList)).filter
        Conversion.isOk =
      [⟨"é".toList, .ok "/é".toList⟩, ⟨"#c".toList, .ok "/*[@id='c']".toList⟩] := by
  obtain ⟨hcomments, hrecords⟩ :=
    comments_hold_no_selector "é\n\u00a0#\u2003b, c \r\n#c\n#".toList .root
  refine ⟨(hcomments "\u00a0#\u2003b, c \r".toList ?_ ?_ ?_).2, hrecords.trans ?_⟩
  · decide
  · decide
  · decide
  · have hread : selectorsOf "é\n\u00a0#\u2003b, c \r\n#c\n#".toList =
        ["é".toList, "#c".toList] := by
      decide
    have hfirst : convert "é".toList .root = .ok "/é".toList := by decide +kernel
    have hlast : convert "#c".toList .root = .ok "/*[@id='c']".toList := by decide +kernel
    rw [hread, convertAll_keepGoing, List.map_cons, List.map_singleton, Conversion.run,
      Conversion.run, hfirst, hlast]
    rfl

end SelectorXPath
