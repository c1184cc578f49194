import SelectorXPath.Proofs.OutputLines

namespace SelectorXPath

inductive CommentText : Text → Prop
  | lone : CommentText ['#']
  | spaced {c : Char} {r : Text} : isBlank c = true → CommentText ('#' :: c :: r)

-- What an entry is by its text alone; `IsEntry` asks the reader instead.
def EntryText (s : Text) : Prop := s ≠ [] ∧ trim s = s ∧ OneLine s ∧ ¬ CommentText s

inductive LaysOut : List Text → List Text → Prop
  | nil : LaysOut [] []
  | entry {a s b : Text} {entries lines : List Text} : Blanks a → Blanks b → OneLine (a ++ b) →
      LaysOut entries lines → LaysOut (s :: entries) ((a ++ s ++ b) :: lines)
  | blank {w : Text} {entries lines : List Text} : Blanks w → OneLine w →
      LaysOut entries lines → LaysOut entries (w :: lines)
  | comment {a t : Text} {entries lines : List Text} : Blanks a → CommentText t →
      OneLine (a ++ t) → LaysOut entries lines → LaysOut entries ((a ++ t) :: lines)

section Comments

variable {s t w : Text}

theorem isComment_iff : isComment s = true ↔ CommentText s := by
  constructor
  · intro h
    unfold isComment at h
    split at h
    · exact .lone
    · exact .spaced h
    · cases h
  · intro h
    cases h with
    | lone => rfl
    | @spaced c r hc => cases r <;> exact hc

instance : Decidable (CommentText s) := decidable_of_iff _ isComment_iff

instance : Decidable (EntryText s) :=
  inferInstanceAs (Decidable (s ≠ [] ∧ trim s = s ∧ OneLine s ∧ ¬ CommentText s))

theorem isEntry_iff : IsEntry s ↔ EntryText s := by
  constructor
  · rintro ⟨hne, htrim, hline, hcomment⟩
    refine ⟨hne, htrim, hline, fun h => ?_⟩
    rw [isComment_iff.mpr h] at hcomment
    cases hcomment
  · rintro ⟨hne, htrim, hline, hcomment⟩
    exact ⟨hne, htrim, hline, Bool.eq_false_iff.mpr (mt isComment_iff.mp hcomment)⟩

theorem CommentText.of_initial (h : CommentText t) (hs : s <+: t) (hne : s ≠ []) :
    CommentText s := by
  obtain ⟨rest, rfl⟩ := hs
  obtain ⟨c, s, rfl⟩ := List.exists_cons_of_ne_nil hne
  cases s with
  | nil =>
    cases h with
    | lone => exact .lone
    | spaced => exact .lone
  | cons d s =>
    cases h with
    | spaced hd => exact .spaced hd

theorem CommentText.startsOff_blank (h : CommentText t) : StartsOff isBlank t := by
  cases h with
  | lone => decide
  | spaced => exact startsOff_cons (by decide) _

theorem CommentText.trim_blanks_append (h : CommentText t) (hw : Blanks w) :
    CommentText (trim (w ++ t)) := by
  have htrim : trim (w ++ t) = trimEnd t := by rw [trim, skipBlanks_run hw h.startsOff_blank]
  rw [htrim]
  refine h.of_initial (trimEnd_initial t) fun hnil => ?_
  have hblank : Blanks t := by
    intro c hc
    have hall := List.rdropWhile_eq_nil_iff.mp hnil
    exact hall c hc
  cases h with
  | lone => exact absurd (hblank '#' (by simp)) (by decide)
  | spaced => exact absurd (hblank '#' (by simp)) (by decide)

end Comments

section Reading

variable {w t : Text} {entries lines : List Text}

theorem selectorsOf_blank (hw : Blanks w) (hline : OneLine w) : selectorsOf w = [] := by
  rw [selectorsOf_line hline, trim_blanks hw]
  rfl

theorem selectorsOf_comment (hw : Blanks w) (ht : CommentText t) (hline : OneLine (w ++ t)) :
    selectorsOf (w ++ t) = [] := by
  rw [selectorsOf_line hline, List.filter_singleton, isComment_iff.mpr (ht.trim_blanks_append hw)]
  simp

theorem LaysOut.oneLine (h : LaysOut entries lines) (hentries : ∀ s ∈ entries, IsEntry s) :
    ∀ line ∈ lines, OneLine line := by
  induction h with
  | nil => simp
  | entry _ _ hline _ ih =>
    obtain ⟨hs, hmore⟩ := List.forall_mem_cons.mp hentries
    refine List.forall_mem_cons.mpr ⟨?_, ih hmore⟩
    have hentry : OneLine _ := hs.newline
    rw [oneLine_append_iff] at hline
    simp [hline, hentry]
  | blank _ hline _ ih => exact List.forall_mem_cons.mpr ⟨hline, ih hentries⟩
  | comment _ _ hline _ ih => exact List.forall_mem_cons.mpr ⟨hline, ih hentries⟩

theorem LaysOut.flatMap_selectorsOf (h : LaysOut entries lines)
    (hentries : ∀ s ∈ entries, IsEntry s) : lines.flatMap selectorsOf = entries := by
  have hlines := h.oneLine hentries
  induction h with
  | nil => rfl
  | entry ha hb _ _ ih =>
    obtain ⟨hs, hmore⟩ := List.forall_mem_cons.mp hentries
    obtain ⟨hline, hrest⟩ := List.forall_mem_cons.mp hlines
    rw [List.flatMap_cons, hs.selectorsOf_line ha hb hline, ih hmore hrest]
    rfl
  | blank hw hline _ ih =>
    rw [List.flatMap_cons, selectorsOf_blank hw hline,
      ih hentries (List.forall_mem_cons.mp hlines).2]
    rfl
  | comment ha ht hline _ ih =>
    rw [List.flatMap_cons, selectorsOf_comment ha ht hline,
      ih hentries (List.forall_mem_cons.mp hlines).2]
    rfl

theorem isEntry_of_mem_selectorsOf {content s : Text} (h : s ∈ selectorsOf content) :
    IsEntry s := by
  have hline := oneLine_of_mem_selectorsOf h
  obtain ⟨hmem, htest⟩ := List.mem_filter.mp h
  obtain ⟨piece, -, rfl⟩ := List.mem_map.mp hmem
  simp only [Bool.and_eq_true, Bool.not_eq_true'] at htest
  exact ⟨List.isEmpty_eq_false_iff.mp htest.1, trim_trim piece, hline, htest.2⟩

theorem joinsLines_joinWith (lines : List Text) : JoinsLines lines (joinWith ['\n'] lines) := by
  induction lines with
  | nil => exact .nil
  | cons line more ih =>
    cases more with
    | nil => exact .last line
    | cons next more => simpa [joinWith] using JoinsLines.newline (s := line) ih

end Reading

theorem selector_list_read_back {entries lines : List Text} {content : Text}
    (hentries : ∀ s ∈ entries, EntryText s) (hlines : LaysOut entries lines)
    (hcontent : JoinsLines lines content) (other : Text) :
    selectorsOf content = entries ∧ (∀ s ∈ selectorsOf other, EntryText s) ∧
      selectorsOf (joinWith ['\n'] (selectorsOf other)) = selectorsOf other := by
  have hread {s : Text} (hs : s ∈ selectorsOf other) : IsEntry s := isEntry_of_mem_selectorsOf hs
  have hgiven : ∀ s ∈ entries, IsEntry s := fun s hs => isEntry_iff.mpr (hentries s hs)
  refine ⟨?_, fun s hs => isEntry_iff.mp (hread hs), ?_⟩
  · rw [hcontent.selectorsOf_flatMap (hlines.oneLine hgiven), hlines.flatMap_selectorsOf hgiven]
  · exact (joinsLines_joinWith _).selectorsOf_eq fun s => hread

theorem selector_list_read_back_mixed :
    selectorsOf "\u00a0#main \r\n#\n #\u2003x\r\n\t\nul\r> li".toList =
      ["#main".toList, "ul\r> li".toList] ∧
    selectorsOf (joinWith ['\n'] (selectorsOf "##\n\u2028# y\r\n a".toList)) =
      selectorsOf "##\n\u2028# y\r\n a".toList := by
  have hentries : ∀ s ∈ ["#main".toList, "ul\r> li".toList], EntryText s := by decide
  have hlines : LaysOut ["#main".toList, "ul\r> li".toList]
      ["\u00a0#main ".toList, "#".toList, " #\u2003x".toList, "\t".toList, "ul\r> li".toList] :=
    .entry (a := ['\u00a0']) (b := [' ']) (by decide) (by decide) (by decide)
      (.comment (a := []) (by decide) .lone (by decide)
        (.comment (a := [' ']) (by decide) (.spaced (by decide)) (by decide)
          (.blank (by decide) (by decide)
            (.entry (a := []) (b := []) (by decide) (by decide) (by decide) .nil))))
  have hcontent : JoinsLines
      ["\u00a0#main ".toList, "#".toList, " #\u2003x".toList, "\t".toList, "ul\r> li".toList]
      "\u00a0#main \r\n#\n #\u2003x\r\n\t\nul\r> li".toList :=
    .carriage (.newline (.carriage (.newline (.last _))))
  obtain ⟨hread, -, hagain⟩ :=
    selector_list_read_back hentries hlines hcontent "##\n\u2028# y\r\n a".toList
  exact ⟨hread, hagain⟩

end SelectorXPath
