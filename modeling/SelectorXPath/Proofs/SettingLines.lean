import SelectorXPath.Config.Basic
import SelectorXPath.Proofs.Characters

namespace SelectorXPath

namespace Toml

def Spaces (w : Text) : Prop := ∀ c ∈ w, isSpace c = true

def IsBareKey (key : Text) : Prop := key ≠ [] ∧ ∀ c ∈ key, isBareKeyChar c = true

def NeedsNoEscape (t : Text) : Prop := ∀ c ∈ t, isPlain c = true ∧ c ≠ '"' ∧ c ≠ '\\'

instance (w : Text) : Decidable (Spaces w) := List.decidableBAll _ w

instance (key : Text) : Decidable (IsBareKey key) :=
  @instDecidableAnd _ _ _ (List.decidableBAll _ key)

instance (t : Text) : Decidable (NeedsNoEscape t) := List.decidableBAll _ t

section Keys

variable {key w w₀ w₁ w₂ body after rest t : Text} {value : Value}

theorem skipSpaces_run (hw : Spaces w) (ht : StartsOff isSpace t) : skipSpaces (w ++ t) = t :=
  dropWhile_run hw ht

theorem ne_of_isBareKeyChar {c d : Char} (hc : isBareKeyChar c = true)
    (hd : isBareKeyChar d = false) : c ≠ d := by
  rintro rfl
  rw [hc] at hd
  cases hd

theorem isBareKeyChar_eq_false_of_isSpace {c : Char} (h : isSpace c = true) :
    isBareKeyChar c = false := by
  simp only [isSpace, Bool.or_eq_true, beq_iff_eq] at h
  obtain rfl | rfl := h <;> decide

theorem isSpace_eq_false_of_isBareKeyChar {c : Char} (h : isBareKeyChar c = true) :
    isSpace c = false := by
  cases hs : isSpace c with
  | false => rfl
  | true => rw [isBareKeyChar_eq_false_of_isSpace hs] at h; cases h

theorem IsBareKey.exists_cons (h : IsBareKey key) :
    ∃ c more, key = c :: more ∧ isBareKeyChar c = true := by
  obtain ⟨c, more, rfl⟩ := List.exists_cons_of_ne_nil h.1
  exact ⟨c, more, rfl, h.2 c (by simp)⟩

theorem IsBareKey.startsOff_space (h : IsBareKey key) : StartsOff isSpace (key ++ t) := by
  obtain ⟨c, more, rfl, hc⟩ := h.exists_cons
  exact startsOff_cons (isSpace_eq_false_of_isBareKeyChar hc) _

theorem readKey_bare (hkey : IsBareKey key) (hrest : StartsOff isBareKeyChar rest) :
    readKey (key ++ rest) = some (key, rest) := by
  have htake := takeWhile_run hkey.2 hrest
  have hdrop := dropWhile_run hkey.2 hrest
  obtain ⟨c, more, rfl, hc⟩ := hkey.exists_cons
  have hdouble : c ≠ '"' := ne_of_isBareKeyChar hc (by decide)
  have hsingle : c ≠ '\'' := ne_of_isBareKeyChar hc (by decide)
  unfold readKey
  split
  · next heq => exact absurd (List.cons.inj heq).1 hdouble
  · next heq => exact absurd (List.cons.inj heq).1 hsingle
  · rw [htake, hdrop]

theorem startsOff_bareKey_spaces (hw : Spaces w) (hrest : StartsOff isBareKeyChar rest) :
    StartsOff isBareKeyChar (w ++ rest) := by
  cases w with
  | nil => exact hrest
  | cons c w => exact startsOff_cons (isBareKeyChar_eq_false_of_isSpace (hw c (by simp))) _

theorem readAssignment_of_readKey (item : Text → Option (Value × Text))
    (hkey : readKey t = some (key, w₁ ++ '=' :: (w₂ ++ body))) (hw₁ : Spaces w₁) (hw₂ : Spaces w₂)
    (hbody : StartsOff isSpace body) :
    readAssignment item t = (item body).map fun r => (([key], r.1), r.2) := by
  have hequals {w : Text} (hw : Spaces w) :
      skipSpaces (w ++ '=' :: (w₂ ++ body)) = '=' :: (w₂ ++ body) :=
    skipSpaces_run hw (startsOff_cons (by decide) _)
  have hagain : skipSpaces ('=' :: (w₂ ++ body)) = '=' :: (w₂ ++ body) :=
    hequals (w := []) (by simp [Spaces])
  have hpath : readKeyPath maxKeys t = some ([key], '=' :: (w₂ ++ body)) := by
    rw [maxKeys, readKeyPath, hkey]
    simp only [hequals hw₁]
    rfl
  rw [readAssignment, hpath]
  simp only [hagain, skipSpaces_run hw₂ hbody]

theorem readAssignment_bare (item : Text → Option (Value × Text)) (hkey : IsBareKey key)
    (hw₁ : Spaces w₁) (hw₂ : Spaces w₂) (hbody : StartsOff isSpace body) :
    readAssignment item (key ++ (w₁ ++ '=' :: (w₂ ++ body))) =
      (item body).map fun r => (([key], r.1), r.2) := by
  have hread := readKey_bare hkey
    (startsOff_bareKey_spaces hw₁ (startsOff_cons (c := '=') (by decide) (w₂ ++ body)))
  exact readAssignment_of_readKey item hread hw₁ hw₂ hbody

theorem readLineEnd_bare (hkey : IsBareKey key) : readLineEnd (key ++ t) = none := by
  have hskip : skipSpaces (key ++ t) = key ++ t :=
    skipSpaces_run (w := []) (by simp [Spaces]) hkey.startsOff_space
  obtain ⟨c, more, rfl, hc⟩ := hkey.exists_cons
  have hcomment : c ≠ '#' := ne_of_isBareKeyChar hc (by decide)
  have hfeed : c ≠ '\n' := ne_of_isBareKeyChar hc (by decide)
  have hreturn : c ≠ '\r' := ne_of_isBareKeyChar hc (by decide)
  rw [readLineEnd, hskip]
  simp [skipComment, readNewline, hcomment, hfeed, hreturn]

theorem readLine_assignment (hw₀ : Spaces w₀) (hkey : IsBareKey key) (hw₁ : Spaces w₁)
    (hw₂ : Spaces w₂) (hbody : StartsOff isSpace body)
    (hvalue : readValue maxNesting body = some (value, after))
    (hend : readLineEnd after = some rest) :
    readLine (w₀ ++ (key ++ (w₁ ++ '=' :: (w₂ ++ body)))) =
      some (.assignment ([key], value), rest) := by
  have hline : readLineBody (key ++ (w₁ ++ '=' :: (w₂ ++ body))) =
      some (.assignment ([key], value), after) := by
    have hnone := readLineEnd_bare (t := w₁ ++ '=' :: (w₂ ++ body)) hkey
    have hread := readAssignment_bare (readValue maxNesting) hkey hw₁ hw₂ hbody
    rw [hvalue] at hread
    obtain ⟨c, more, rfl, hc⟩ := hkey.exists_cons
    have hbracket : c ≠ '[' := ne_of_isBareKeyChar hc (by decide)
    unfold readLineBody
    split
    · next heq => exact absurd (List.cons.inj heq).1 hbracket
    · next heq => exact absurd (List.cons.inj heq).1 hbracket
    · rw [hnone, hread]
      rfl
  rw [readLine, skipSpaces_run hw₀ hkey.startsOff_space, hline]
  simp [hend]

end Keys

theorem readLines_cons {t rest : Text} {line : Line} (h : readLine t = some (line, rest))
    (hlt : rest.length < t.length) : readLines t = (readLines rest).map (line :: ·) := by
  obtain ⟨c, more, rfl⟩ := List.exists_cons_of_length_pos (Nat.zero_lt_of_lt hlt)
  rw [readLines, h]
  simp only [dif_pos hlt]

section Values

variable {rest : Text}

theorem readBasic_plain {t : Text} (h : NeedsNoEscape t) :
    readBasic (t ++ '"' :: rest) = some (t, rest) := by
  induction t with
  | nil => rw [List.nil_append, readBasic, if_pos rfl]
  | cons c t ih =>
    obtain ⟨hplain, hquote, hslash⟩ := h c (by simp)
    rw [List.cons_append, readBasic, if_neg hquote, if_neg hslash, if_pos hplain,
      ih fun d hd => h d (by simp [hd])]
    rfl

theorem readValue_scalar (room : Nat) {c : Char} {t : Text} (hbracket : c ≠ '[')
    (hbrace : c ≠ '\x7b') : readValue room (c :: t) = readScalar (c :: t) := by
  cases room <;> simp [readValue, hbracket, hbrace]

theorem readValue_basic (room : Nat) {t : Text} (hne : t ≠ []) (h : NeedsNoEscape t) :
    readValue room ('"' :: (t ++ '"' :: rest)) = some (.string t, rest) := by
  have hread : readBasic (t ++ '"' :: rest) = some (t, rest) := readBasic_plain h
  obtain ⟨c, t, rfl⟩ := List.exists_cons_of_ne_nil hne
  have hquote : c ≠ '"' := (h c (by simp)).2.1
  rw [readValue_scalar room (by decide) (by decide)]
  have hstring : readString ('"' :: (c :: t ++ '"' :: rest)) = some (c :: t, rest) := by
    unfold readString
    split
    · next heq => exact absurd (List.cons.inj (List.cons.inj heq).2).1 hquote
    · next heq => rw [← (List.cons.inj heq).2, hread]
    · next heq => cases heq
    · next heq => cases heq
    · next hdouble _ _ => exact absurd rfl (hdouble _)
  rw [readScalar, hstring]
  rfl

end Values

section Entries

variable {key : Text} {value : Value} {entries : Entries}

theorem lookup_eq_none_of_not_mem (h : key ∉ entries.map Prod.fst) :
    entries.lookup key = none := by
  rw [List.lookup_eq_none_iff]
  intro pair hpair
  simp only [bne_iff_ne, ne_eq]
  rintro rfl
  exact h (List.mem_map_of_mem hpair)

theorem setEntry_of_not_mem (h : key ∉ entries.map Prod.fst) :
    setEntry key value entries = entries ++ [(key, value)] := by
  induction entries with
  | nil => rfl
  | cons pair more ih =>
    rw [List.map_cons, List.mem_cons, not_or] at h
    rw [setEntry, if_neg (Ne.symm h.1), ih h.2]
    rfl

theorem assign_bare (h : key ∉ entries.map Prod.fst) :
    assign value true [key] entries = some (entries ++ [(key, value)]) := by
  rw [assign, lookup_eq_none_of_not_mem h, setEntry_of_not_mem h]
  rfl

theorem assignAll_bare {pairs : Entries} (h : ((entries ++ pairs).map Prod.fst).Nodup) :
    assignAll (pairs.map fun pair => ([pair.1], pair.2)) entries = some (entries ++ pairs) := by
  induction pairs generalizing entries with
  | nil => rw [List.append_nil]; rfl
  | cons pair more ih =>
    obtain ⟨key, value⟩ := pair
    have hfresh : key ∉ entries.map Prod.fst := by
      rw [List.map_append, List.nodup_append] at h
      exact fun hkey => h.2.2 key hkey key (by simp) rfl
    rw [List.append_cons] at h
    rw [List.map_cons, assignAll, assign_bare hfresh, Option.bind_some, ih h, ← List.append_cons]

theorem assign_bare_of_mem (h : key ∈ entries.map Prod.fst) :
    assign value true [key] entries = none := by
  have hsome : (entries.lookup key).isNone = false := by
    rw [← Bool.not_eq_true, Option.isNone_iff_eq_none, List.lookup_eq_none_iff]
    intro hnone
    obtain ⟨pair, hpair, rfl⟩ := List.mem_map.mp h
    exact absurd (hnone pair hpair) (by simp)
  rw [assign, hsome]
  rfl

theorem assignAll_bare_eq_none {pairs : Entries} (hentries : (entries.map Prod.fst).Nodup)
    (h : ¬ ((entries ++ pairs).map Prod.fst).Nodup) :
    assignAll (pairs.map fun pair => ([pair.1], pair.2)) entries = none := by
  induction pairs generalizing entries with
  | nil => exact absurd hentries (by simpa using h)
  | cons pair more ih =>
    obtain ⟨key, value⟩ := pair
    rw [List.map_cons, assignAll]
    by_cases hmem : key ∈ entries.map Prod.fst
    · rw [assign_bare_of_mem hmem, Option.bind_none]
    · rw [assign_bare hmem, Option.bind_some]
      rw [List.append_cons] at h
      refine ih ?_ h
      rw [List.map_append, List.map_singleton, List.nodup_append]
      refine ⟨hentries, by simp, fun a ha b hb => ?_⟩
      rw [List.mem_singleton.mp hb]
      rintro rfl
      exact hmem ha

end Entries

theorem bodyOf_assignments (pairs : Entries) :
    bodyOf (pairs.map fun pair => .assignment ([pair.1], pair.2)) =
      pairs.map fun pair => ([pair.1], pair.2) := by
  induction pairs with
  | nil => rfl
  | cons pair more ih => rw [List.map_cons, bodyOf, ih, List.map_cons]

def Line.isHeader : Line → Bool
  | .header _ => true
  | .listHeader _ => true
  | _ => false

theorem addSections_of_no_header {lines : List Line} (h : ∀ line ∈ lines, line.isHeader = false)
    (entries : Entries) : addSections lines entries = some entries := by
  induction lines with
  | nil => rfl
  | cons line more ih =>
    obtain ⟨hline, hmore⟩ := List.forall_mem_cons.mp h
    cases line with
    | blank => exact ih hmore
    | assignment a => exact ih hmore
    | header path => cases hline
    | listHeader path => cases hline

theorem entriesOf_of_no_header {lines : List Line} (h : ∀ line ∈ lines, line.isHeader = false)
    {pairs : Entries} (hbody : bodyOf lines = pairs.map fun pair => ([pair.1], pair.2))
    (hkeys : (pairs.map Prod.fst).Nodup) : entriesOf lines = some pairs := by
  rw [entriesOf, hbody, assignAll_bare (by simpa using hkeys), Option.bind_some,
    addSections_of_no_header h, List.nil_append]

theorem entriesOf_eq_none {lines : List Line} {pairs : Entries}
    (hbody : bodyOf lines = pairs.map fun pair => ([pair.1], pair.2))
    (hkeys : ¬ (pairs.map Prod.fst).Nodup) : entriesOf lines = none := by
  rw [entriesOf, hbody, assignAll_bare_eq_none (by simp) (by simpa using hkeys), Option.bind_none]

end Toml

namespace Config

open Toml

def IsWritten (t : Text) (value : Value) : Prop :=
  ∀ rest, StartsOff isSpace (t ++ rest) ∧ readValue maxNesting (t ++ rest) = some (value, rest)

theorem isWritten_inQuotes {t : Text} (hne : t ≠ []) (h : NeedsNoEscape t) :
    IsWritten (inQuotes t) (.string t) := by
  intro rest
  refine ⟨startsOff_cons (by decide) _, ?_⟩
  rw [inQuotes, List.cons_append, List.append_assoc]
  exact readValue_basic maxNesting hne h

theorem isWritten_truthName (truth : Bool) : IsWritten (truthName truth) (.boolean truth) := by
  intro rest
  cases truth with
  | false => exact ⟨startsOff_cons (by decide) _, rfl⟩
  | true => exact ⟨startsOff_cons (by decide) _, rfl⟩

def SavesAs (setting : Text × Text) (pair : Text × Value) : Prop :=
  setting.1 = pair.1 ∧ IsBareKey pair.1 ∧ IsWritten setting.2 pair.2

variable {settings : List (Text × Text)} {pairs : Entries}

theorem readLines_settings (h : List.Forall₂ SavesAs settings pairs) :
    readLines (settings.flatMap settingLine) =
      some (pairs.map fun pair => .assignment ([pair.1], pair.2)) := by
  induction h with
  | nil => rw [List.flatMap_nil, readLines, List.map_nil]
  | @cons setting pair settings pairs hpair _ ih =>
    obtain ⟨key, written⟩ := setting
    obtain ⟨rfl, hkey, hwritten⟩ := hpair
    obtain ⟨hstart, hvalue⟩ := hwritten ('\n' :: settings.flatMap settingLine)
    have htext : (List.flatMap settingLine ((pair.1, written) :: settings)) =
        [] ++ (pair.1 ++ ([' '] ++ '=' :: ([' '] ++ (written ++ '\n' ::
          settings.flatMap settingLine)))) := by
      simp [settingLine]
    have hnone : Spaces [] := by decide
    have hspace : Spaces [' '] := by decide
    have hline := readLine_assignment hnone hkey hspace hspace hstart hvalue rfl
    rw [htext, readLines_cons hline (by simp; omega), ih]
    rfl

theorem dropMark_settings (h : List.Forall₂ SavesAs settings pairs) :
    dropMark (settings.flatMap settingLine) = settings.flatMap settingLine := by
  cases h with
  | nil => rfl
  | @cons setting pair settings pairs hpair _ =>
    obtain ⟨key, written⟩ := setting
    obtain ⟨rfl, hkey, -⟩ := hpair
    obtain ⟨c, more, hcons, hc⟩ := hkey.exists_cons
    have hmark : c ≠ '\ufeff' := ne_of_isBareKeyChar hc (by decide)
    simp [settingLine, hcons, dropMark, hmark]

theorem parse_settings (h : List.Forall₂ SavesAs settings pairs)
    (hkeys : (pairs.map Prod.fst).Nodup) :
    Toml.parse (settings.flatMap settingLine) = some pairs := by
  rw [Toml.parse, dropMark_settings h, readLines_settings h, Option.bind_some]
  refine entriesOf_of_no_header (fun line hline => ?_) (bodyOf_assignments pairs) hkeys
  obtain ⟨pair, -, rfl⟩ := List.mem_map.mp hline
  rfl

def entries (config : Config) : Entries :=
  [("root_mode".toList, .string config.anchor.name),
    ("output_format".toList, .string config.format.name),
    ("keep_going".toList, .boolean config.keepGoing),
    ("echo_selector".toList, .boolean config.echo)]

theorem savesAs_entries (config : Config) :
    List.Forall₂ SavesAs config.written config.entries := by
  have hanchor : IsWritten (inQuotes config.anchor.name) (.string config.anchor.name) :=
    isWritten_inQuotes (by cases config.anchor <;> decide) (by cases config.anchor <;> decide)
  have hformat : IsWritten (inQuotes config.format.name) (.string config.format.name) :=
    isWritten_inQuotes (by cases config.format <;> decide) (by cases config.format <;> decide)
  exact .cons ⟨rfl, show IsBareKey "root_mode".toList by decide, hanchor⟩ <|
    .cons ⟨rfl, show IsBareKey "output_format".toList by decide, hformat⟩ <|
    .cons ⟨rfl, show IsBareKey "keep_going".toList by decide, isWritten_truthName _⟩ <|
    .cons ⟨rfl, show IsBareKey "echo_selector".toList by decide, isWritten_truthName _⟩ .nil

theorem nodup_keys_entries (config : Config) : (config.entries.map Prod.fst).Nodup := by
  have hkeys : config.entries.map Prod.fst = ["root_mode".toList, "output_format".toList,
    "keep_going".toList, "echo_selector".toList] := rfl
  rw [hkeys]
  decide

theorem ofEntries_entries (config : Config) : ofEntries config.entries = some config := by
  have hanchor : setting default (fun v => (choiceName v).bind Anchor.ofName?)
      "root_mode".toList config.entries = some config.anchor := Anchor.ofName?_name config.anchor
  have hformat : setting default (fun v => (choiceName v).bind OutputFormat.ofName?)
      "output_format".toList config.entries = some config.format :=
    OutputFormat.ofName?_name config.format
  have hgoing : setting false booleanOf "keep_going".toList config.entries =
    some config.keepGoing := rfl
  have hecho : setting false booleanOf "echo_selector".toList config.entries =
    some config.echo := rfl
  rw [ofEntries, hanchor, hformat, hgoing, hecho]
  rfl

theorem parse_render (config : Config) : parse config.render = some config := by
  rw [parse, render, parse_settings config.savesAs_entries config.nodup_keys_entries]
  exact config.ofEntries_entries

end Config

end SelectorXPath
