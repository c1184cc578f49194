import SelectorXPath.Proofs.ConfigStore
import SelectorXPath.Proofs.PlainLists
import SelectorXPath.Proofs.WrittenIntegers

namespace SelectorXPath

namespace Toml

inductive SpellsKey : Text → Text → Prop
  | bare {key} : IsBareKey key → SpellsKey key key
  | quoted {q key body} : SpellsBody q key body → SpellsKey key (q.around body)

inductive SpellsChoice (name : Text) : Text → Prop
  | string {t} : SpellsString name t → SpellsChoice name t
  | table {key w₀ w₁ w₂ w₃ w₄} : SpellsKey name key → Spaces w₀ → Spaces w₁ → Spaces w₂ →
      Spaces w₃ → Spaces w₄ →
      SpellsChoice name ('\x7b' :: (w₀ ++ (key ++ (w₁ ++ '=' :: (w₂ ++ '\x7b' :: (w₃ ++ '\x7d' ::
        (w₄ ++ ['\x7d'])))))))

def Printable (t : Text) : Prop := ∀ c ∈ t, isPlain c = true

instance (t : Text) : Decidable (Printable t) := List.decidableBAll _ t

inductive Remark : Text → Prop
  | none : Remark []
  | comment {r} : Printable r → Remark ('#' :: r)

inductive EndsLine : Text → Text → Prop
  | last : EndsLine [] []
  | newline (rest : Text) : EndsLine ('\n' :: rest) rest
  | carriage (rest : Text) : EndsLine ('\r' :: '\n' :: rest) rest

section Tables

variable {name key t w w₀ w₁ w₂ rest : Text}

theorem SpellsKey.readKey_append (h : SpellsKey name key) (hrest : StartsOff isBareKeyChar rest) :
    readKey (key ++ rest) = some (name, rest) := by
  cases h with
  | bare hkey => exact readKey_bare hkey hrest
  | @quoted q name body hbody =>
    have htext : q.around body ++ rest = q.mark :: (body ++ q.mark :: rest) := by
      simp [Quote.around]
    have hopen (u : Text) : readKey (q.mark :: u) = readBody q u := by cases q <;> rfl
    rw [htext, hopen, hbody.readBody_append]

theorem SpellsKey.exists_cons (h : SpellsKey name key) :
    ∃ c u, key = c :: u ∧ isSpace c = false ∧ c ≠ '\x7d' := by
  cases h with
  | bare hkey =>
    obtain ⟨c, u, rfl, hc⟩ := hkey.exists_cons
    exact ⟨c, u, rfl, isSpace_eq_false_of_isBareKeyChar hc, ne_of_isBareKeyChar hc (by decide)⟩
  | @quoted q name body _ =>
    exact ⟨q.mark, _, rfl, by cases q <;> decide, by cases q <;> decide⟩

theorem readValue_braces (room : Nat) (t : Text) :
    readValue (room + 1) ('\x7b' :: t) = readBraces (readValue room) t := rfl

theorem readBraces_empty (item : Text → Option (Value × Text)) (hw : Spaces w) (rest : Text) :
    readBraces item (w ++ '\x7d' :: rest) = some (.table .braces [], rest) := by
  rw [readBraces, skipSpaces_run hw (startsOff_cons (by decide) _)]
  rfl

theorem readMembers_single {item : Text → Option (Value × Text)} {assignment : Assignment}
    (h : readAssignment item t = some (assignment, w ++ '\x7d' :: rest))
    (hlt : (w ++ '\x7d' :: rest).length < t.length) (hw : Spaces w) :
    readMembers item t = some ([assignment], rest) := by
  have hskip : skipSpaces (w ++ '\x7d' :: rest) = '\x7d' :: rest :=
    skipSpaces_run hw (startsOff_cons (by decide) _)
  rw [readMembers, h]
  simp only [dif_pos hlt]
  split
  · next heq =>
    rw [hskip] at heq
    cases heq
    rfl
  · next heq =>
    rw [hskip] at heq
    cases heq
  · next hother _ => exact absurd hskip (hother rest)

theorem readBraces_member {item : Text → Option (Value × Text)} {value : Value}
    (hkey : SpellsKey name key) (hw₀ : Spaces w₀) (hw₁ : Spaces w₁) (hw₂ : Spaces w₂)
    (ht : StartsOff isSpace t) (hitem : item t = some (value, w ++ '\x7d' :: rest)) (hw : Spaces w)
    (hle : (w ++ '\x7d' :: rest).length ≤ t.length) :
    readBraces item (w₀ ++ (key ++ (w₁ ++ '=' :: (w₂ ++ t)))) =
      some (.table .braces [(name, value)], rest) := by
  have hequals : StartsOff isBareKeyChar (w₁ ++ '=' :: (w₂ ++ t)) :=
    startsOff_bareKey_spaces hw₁ (startsOff_cons (by decide) _)
  have hread : readAssignment item (key ++ (w₁ ++ '=' :: (w₂ ++ t))) =
      some (([name], value), w ++ '\x7d' :: rest) := by
    rw [readAssignment_of_readKey item (hkey.readKey_append hequals) hw₁ hw₂ ht, hitem,
      Option.map_some]
  have hmembers := readMembers_single hread (by simp at hle ⊢; omega) hw
  have hassign : assignAll [([name], value)] [] = some [(name, value)] := by
    rw [assignAll, assign_bare (by simp)]
    rfl
  obtain ⟨c, u, hcons, hspace, hclose⟩ := hkey.exists_cons
  have hstart : StartsOff isSpace (key ++ (w₁ ++ '=' :: (w₂ ++ t))) := by
    rw [hcons]
    exact startsOff_cons hspace _
  rw [readBraces, skipSpaces_run hw₀ hstart]
  split
  · next heq =>
    rw [hcons] at heq
    exact absurd (List.cons.inj heq).1 hclose
  · simp only [hmembers, hassign, Option.map_some]

theorem SpellsChoice.startsOff_space (h : SpellsChoice name t) (rest : Text) :
    StartsOff isSpace (t ++ rest) := by
  cases h with
  | string hstring => exact hstring.startsOff_space rest
  | table => exact startsOff_cons (by decide) _

theorem SpellsChoice.exists_readValue (h : SpellsChoice name t) (hrest : EndsValue rest) :
    ∃ value, readValue maxNesting (t ++ rest) = some (value, rest) ∧
      Config.choiceName value = some name := by
  cases h with
  | string hstring => exact ⟨.string name, hstring.readValue_append _ hrest, rfl⟩
  | @table key w₀ w₁ w₂ w₃ w₄ hkey hw₀ hw₁ hw₂ hw₃ hw₄ =>
    have hempty : readValue 78 ('\x7b' :: (w₃ ++ '\x7d' :: (w₄ ++ '\x7d' :: rest))) =
        some (.table .braces [], w₄ ++ '\x7d' :: rest) :=
      readBraces_empty _ hw₃ _
    have hmember := readBraces_member hkey hw₀ hw₁ hw₂ (startsOff_cons (by decide) _) hempty hw₄
      (by simp; omega)
    refine ⟨.table .braces [(name, .table .braces [])], ?_, rfl⟩
    simpa [maxNesting, readValue_braces] using hmember

end Tables

section Lines

variable {w r e rest : Text}

theorem Remark.startsOff_space (hr : Remark r) (he : EndsLine e rest) :
    StartsOff isSpace (r ++ e) := by
  cases hr with
  | none =>
    cases he with
    | last => simp [StartsOff]
    | newline => exact startsOff_cons (by decide) _
    | carriage => exact startsOff_cons (by decide) _
  | comment => exact startsOff_cons (by decide) _

theorem EndsLine.startsOff_plain (he : EndsLine e rest) : StartsOff isPlain e := by
  cases he with
  | last => simp [StartsOff]
  | newline => exact startsOff_cons (by decide) _
  | carriage => exact startsOff_cons (by decide) _

theorem readLineEnd_remark (hw : Spaces w) (hr : Remark r) (he : EndsLine e rest) :
    readLineEnd (w ++ (r ++ e)) = some rest := by
  have hcomment : skipComment (r ++ e) = e := by
    cases hr with
    | none => cases he <;> rfl
    | comment hplain => exact dropWhile_run hplain he.startsOff_plain
  rw [readLineEnd, skipSpaces_run hw (hr.startsOff_space he), hcomment]
  cases he <;> rfl

theorem endsValue_remark (hw : Spaces w) (hr : Remark r) (he : EndsLine e rest) :
    EndsValue (w ++ (r ++ e)) := by
  intro c hc
  cases w with
  | nil =>
    cases hr with
    | none => cases he <;> cases hc <;> decide
    | comment => cases hc; decide
  | cons d w =>
    cases hc
    have hspace := hw c (by simp)
    simp only [isSpace, Bool.or_eq_true, beq_iff_eq] at hspace
    rcases hspace with rfl | rfl <;> decide

theorem readLine_blank (hw : Spaces w) (hr : Remark r) (he : EndsLine e rest) :
    readLine (w ++ (r ++ e)) = some (.blank, rest) := by
  have hend : readLineEnd (r ++ e) = some rest := by
    simpa using readLineEnd_remark (w := []) (by simp [Spaces]) hr he
  have hbody : readLineBody (r ++ e) = some (.blank, r ++ e) := by
    have hbracket (u : Text) : r ++ e ≠ '[' :: u := by
      intro heq
      cases hr with
      | none => cases he <;> cases heq
      | comment => cases heq
    unfold readLineBody
    split
    · next heq => exact absurd heq (hbracket _)
    · next heq => exact absurd heq (hbracket _)
    · rw [hend]
      rfl
  rw [readLine, skipSpaces_run hw (hr.startsOff_space he), hbody]
  simp only [hend, Option.map_some]

end Lines

end Toml

namespace Config

def knownKeys : List Text :=
  ["root_mode".toList, "output_format".toList, "keep_going".toList, "echo_selector".toList]

end Config

open Toml

inductive FileSetting where
  | anchor (a : Anchor)
  | format (f : OutputFormat)
  | keepGoing (on : Bool)
  | echo (on : Bool)
  | other (name : Text) (bare : IsBareKey name) (unknown : name ∉ Config.knownKeys)

namespace FileSetting

def key : FileSetting → Text
  | .anchor _ => "root_mode".toList
  | .format _ => "output_format".toList
  | .keepGoing _ => "keep_going".toList
  | .echo _ => "echo_selector".toList
  | .other name _ _ => name

inductive SpellsValue : FileSetting → Text → Prop
  | anchor {a t} : SpellsChoice a.name t → SpellsValue (.anchor a) t
  | format {f t} : SpellsChoice f.name t → SpellsValue (.format f) t
  | keepGoing (on : Bool) : SpellsValue (.keepGoing on) (Config.truthName on)
  | echo (on : Bool) : SpellsValue (.echo on) (Config.truthName on)
  | string {name bare unknown s t} : SpellsString s t → SpellsValue (.other name bare unknown) t
  | integer {name bare unknown n t} : SpellsInteger n t → -9223372036854775808 ≤ n →
      n ≤ 9223372036854775807 → SpellsValue (.other name bare unknown) t
  | boolean {name bare unknown} (on : Bool) :
      SpellsValue (.other name bare unknown) (Config.truthName on)

def IsReadFrom : FileSetting → Value → Prop
  | .anchor a, value => Config.choiceName value = some a.name
  | .format f, value => Config.choiceName value = some f.name
  | .keepGoing on, value => Config.booleanOf value = some on
  | .echo on, value => Config.booleanOf value = some on
  | .other _ _ _, _ => True

theorem isBareKey_key (setting : FileSetting) : IsBareKey setting.key := by
  cases setting with
  | anchor => exact show IsBareKey "root_mode".toList by decide
  | format => exact show IsBareKey "output_format".toList by decide
  | keepGoing => exact show IsBareKey "keep_going".toList by decide
  | echo => exact show IsBareKey "echo_selector".toList by decide
  | other _ bare => exact bare

theorem exists_of_key (setting : FileSetting) :
    (setting.key = "root_mode".toList → ∃ a, setting = .anchor a) ∧
      (setting.key = "output_format".toList → ∃ f, setting = .format f) ∧
      (setting.key = "keep_going".toList → ∃ on, setting = .keepGoing on) ∧
      (setting.key = "echo_selector".toList → ∃ on, setting = .echo on) := by
  have hdistinct : Config.knownKeys.Nodup := by decide
  simp only [Config.knownKeys, List.nodup_cons, List.mem_cons, List.not_mem_nil, or_false,
    not_or] at hdistinct
  obtain ⟨⟨h₁₂, h₁₃, h₁₄⟩, ⟨h₂₃, h₂₄⟩, h₃₄, -⟩ := hdistinct
  cases setting with
  | anchor a =>
    exact ⟨fun _ => ⟨a, rfl⟩, fun h => absurd h h₁₂, fun h => absurd h h₁₃, fun h => absurd h h₁₄⟩
  | format f =>
    exact ⟨fun h => absurd h.symm h₁₂, fun _ => ⟨f, rfl⟩, fun h => absurd h h₂₃,
      fun h => absurd h h₂₄⟩
  | keepGoing on =>
    exact ⟨fun h => absurd h.symm h₁₃, fun h => absurd h.symm h₂₃, fun _ => ⟨on, rfl⟩,
      fun h => absurd h h₃₄⟩
  | echo on =>
    exact ⟨fun h => absurd h.symm h₁₄, fun h => absurd h.symm h₂₄, fun h => absurd h.symm h₃₄,
      fun _ => ⟨on, rfl⟩⟩
  | other name bare unknown =>
    have hne {known : Text} (hknown : known ∈ Config.knownKeys) : name ≠ known := by
      rintro rfl
      exact unknown hknown
    exact ⟨fun h => absurd h (hne (by decide)), fun h => absurd h (hne (by decide)),
      fun h => absurd h (hne (by decide)), fun h => absurd h (hne (by decide))⟩

section Values

variable {setting : FileSetting} {t rest : Text}

theorem SpellsValue.startsOff_space (h : SpellsValue setting t) (rest : Text) :
    StartsOff isSpace (t ++ rest) := by
  cases h with
  | anchor hchoice => exact hchoice.startsOff_space rest
  | format hchoice => exact hchoice.startsOff_space rest
  | keepGoing on => exact (Config.isWritten_truthName on rest).1
  | echo on => exact (Config.isWritten_truthName on rest).1
  | string hstring => exact hstring.startsOff_space rest
  | integer hinteger => exact hinteger.startsOff_space rest
  | boolean on => exact (Config.isWritten_truthName on rest).1

theorem SpellsValue.exists_readValue (h : SpellsValue setting t) (hrest : EndsValue rest) :
    ∃ value, readValue maxNesting (t ++ rest) = some (value, rest) ∧ setting.IsReadFrom value := by
  cases h with
  | anchor hchoice => exact hchoice.exists_readValue hrest
  | format hchoice => exact hchoice.exists_readValue hrest
  | keepGoing on => exact ⟨.boolean on, (Config.isWritten_truthName on rest).2, rfl⟩
  | echo on => exact ⟨.boolean on, (Config.isWritten_truthName on rest).2, rfl⟩
  | string hstring => exact ⟨_, hstring.readValue_append _ hrest, trivial⟩
  | @integer _ _ _ n t hinteger hmin hmax =>
    have hfits : fitsWord n = true := by simp [fitsWord, hmin, hmax]
    exact ⟨_, hinteger.readValue_append _ hfits hrest, trivial⟩
  | boolean on => exact ⟨.boolean on, (Config.isWritten_truthName on rest).2, trivial⟩

end Values

end FileSetting

inductive SpellsLine : Option FileSetting → Text → Prop
  | blank {w r} : Spaces w → Remark r → SpellsLine none (w ++ r)
  | assignment {setting w₀ w₁ w₂ value w₃ r} : Spaces w₀ → Spaces w₁ → Spaces w₂ →
      FileSetting.SpellsValue setting value → Spaces w₃ → Remark r →
      SpellsLine (some setting)
        (w₀ ++ (setting.key ++ (w₁ ++ '=' :: (w₂ ++ (value ++ (w₃ ++ r))))))

structure SettingsLine where
  content : Option FileSetting
  text : Text
  spells : SpellsLine content text

def settingsOf (lines : List SettingsLine) : List FileSetting :=
  lines.filterMap SettingsLine.content

inductive ReadsAs : List FileSetting → List Line → Prop
  | nil : ReadsAs [] []
  | blank {settings lines} : ReadsAs settings lines → ReadsAs settings (.blank :: lines)
  | assignment {setting value settings lines} : FileSetting.IsReadFrom setting value →
      ReadsAs settings lines →
      ReadsAs (setting :: settings) (.assignment ([setting.key], value) :: lines)

section Reading

variable {content : Option FileSetting} {settings : List FileSetting} {s e t rest : Text}

theorem SpellsLine.readLine_append (h : SpellsLine content s) (he : EndsLine e rest) :
    ∃ line, readLine (s ++ e) = some (line, rest) ∧ ∀ {settings lines},
      ReadsAs settings lines → ReadsAs (content.toList ++ settings) (line :: lines) := by
  cases h with
  | blank hw hr =>
    refine ⟨.blank, ?_, .blank⟩
    rw [List.append_assoc, readLine_blank hw hr he]
  | @assignment setting w₀ w₁ w₂ value w₃ r hw₀ hw₁ hw₂ hvalue hw₃ hr =>
    obtain ⟨v, hread, hsetting⟩ := hvalue.exists_readValue (endsValue_remark hw₃ hr he)
    refine ⟨.assignment ([setting.key], v), ?_, .assignment hsetting⟩
    have hline := readLine_assignment hw₀ setting.isBareKey_key hw₁ hw₂
      (hvalue.startsOff_space _) hread (readLineEnd_remark hw₃ hr he)
    simpa using hline

theorem SpellsLine.readLines_append (h : SpellsLine content s) (he : EndsLine e rest)
    (hlt : rest.length < (s ++ e).length) {lines : List Line} (hrest : readLines rest = some lines)
    (hlines : ReadsAs settings lines) :
    ∃ more, readLines (s ++ e) = some more ∧ ReadsAs (content.toList ++ settings) more := by
  obtain ⟨line, hread, hstep⟩ := h.readLine_append he
  refine ⟨line :: lines, ?_, hstep hlines⟩
  rw [readLines_cons hread hlt, hrest, Option.map_some]

theorem SpellsLine.eq_none (h : SpellsLine content s) (hempty : s = []) : content = none := by
  cases h with
  | blank => rfl
  | assignment => simp at hempty

theorem SpellsLine.head?_ne_mark (h : SpellsLine content s) : s.head? ≠ some '\ufeff' := by
  have hspaces {w t : Text} (hw : Spaces w) (hrest : t.head? ≠ some '\ufeff') :
      (w ++ t).head? ≠ some '\ufeff' := by
    cases w with
    | nil => exact hrest
    | cons c w =>
      rintro hmark
      cases hmark
      exact absurd (hw '\ufeff' (by simp)) (by decide)
  cases h with
  | blank hw hr => exact hspaces hw (by cases hr <;> simp)
  | @assignment setting w₀ w₁ w₂ value w₃ r hw₀ =>
    obtain ⟨c, more, hcons, hc⟩ := setting.isBareKey_key.exists_cons
    have hmark : c ≠ '\ufeff' := ne_of_isBareKeyChar hc (by decide)
    exact hspaces hw₀ (by simp [hcons, hmark])

theorem dropMark_eq_self (h : t.head? ≠ some '\ufeff') : dropMark t = t := by
  cases t with
  | nil => rfl
  | cons c t =>
    have hc : c ≠ '\ufeff' := by simpa using h
    simp [dropMark, hc]

theorem JoinsLines.dropMark_eq {lines : List SettingsLine}
    (h : JoinsLines (lines.map SettingsLine.text) t) : dropMark t = t := by
  apply dropMark_eq_self
  have hfirst {c : Char} (line : SettingsLine) (hc : c ≠ '\ufeff') (u : Text) :
      (line.text ++ c :: u).head? ≠ some '\ufeff' := by
    cases htext : line.text with
    | nil => simpa using hc
    | cons d more =>
      have hmark := line.spells.head?_ne_mark
      simpa [htext] using hmark
  generalize htexts : lines.map SettingsLine.text = texts at h
  cases h with
  | nil => simp
  | last s =>
    obtain ⟨line, more, rfl, rfl, -⟩ := List.map_eq_cons_iff.mp htexts
    exact line.spells.head?_ne_mark
  | newline _ =>
    obtain ⟨line, more, rfl, rfl, -⟩ := List.map_eq_cons_iff.mp htexts
    exact hfirst line (by decide) _
  | carriage _ =>
    obtain ⟨line, more, rfl, rfl, -⟩ := List.map_eq_cons_iff.mp htexts
    exact hfirst line (by decide) _

theorem settingsOf_cons (line : SettingsLine) (lines : List SettingsLine) :
    settingsOf (line :: lines) = line.content.toList ++ settingsOf lines := by
  cases hcontent : line.content <;> simp [settingsOf, hcontent]

theorem JoinsLines.exists_readLines {lines : List SettingsLine}
    (h : JoinsLines (lines.map SettingsLine.text) t) :
    ∃ read, readLines t = some read ∧ ReadsAs (settingsOf lines) read := by
  generalize htexts : lines.map SettingsLine.text = texts at h
  induction h generalizing lines with
  | nil =>
    cases List.map_eq_nil_iff.mp htexts
    exact ⟨[], by rw [readLines], .nil⟩
  | last s =>
    obtain ⟨line, more, rfl, rfl, hmore⟩ := List.map_eq_cons_iff.mp htexts
    cases List.map_eq_nil_iff.mp hmore
    rw [settingsOf_cons]
    by_cases hempty : line.text = []
    · rw [hempty, line.spells.eq_none hempty]
      exact ⟨[], by rw [readLines], .nil⟩
    · have hlt : ([] : Text).length < (line.text ++ []).length := by
        simpa [List.length_pos_iff] using hempty
      have hread := line.spells.readLines_append .last hlt (by rw [readLines]) .nil
      rwa [List.append_nil] at hread
  | newline _ ih =>
    obtain ⟨line, more, rfl, rfl, hmore⟩ := List.map_eq_cons_iff.mp htexts
    obtain ⟨read, hread, hreads⟩ := ih hmore
    rw [settingsOf_cons]
    exact line.spells.readLines_append (.newline _) (by simp; omega) hread hreads
  | carriage _ ih =>
    obtain ⟨line, more, rfl, rfl, hmore⟩ := List.map_eq_cons_iff.mp htexts
    obtain ⟨read, hread, hreads⟩ := ih hmore
    rw [settingsOf_cons]
    exact line.spells.readLines_append (.carriage _) (by simp; omega) hread hreads

end Reading

section Entries

variable {settings : List FileSetting} {lines : List Line} {pairs : Entries}

def FileSetting.IsAssigned (setting : FileSetting) (pair : Text × Value) : Prop :=
  setting.key = pair.1 ∧ setting.IsReadFrom pair.2

theorem ReadsAs.isHeader_eq_false (h : ReadsAs settings lines) :
    ∀ line ∈ lines, line.isHeader = false := by
  induction h with
  | nil => simp
  | blank _ ih => exact List.forall_mem_cons.mpr ⟨rfl, ih⟩
  | assignment _ _ ih => exact List.forall_mem_cons.mpr ⟨rfl, ih⟩

theorem ReadsAs.exists_bodyOf (h : ReadsAs settings lines) :
    ∃ pairs : Entries, bodyOf lines = (pairs.map fun pair => ([pair.1], pair.2)) ∧
      List.Forall₂ FileSetting.IsAssigned settings pairs := by
  induction h with
  | nil => exact ⟨[], rfl, .nil⟩
  | blank _ ih => exact ih
  | @assignment setting value settings lines hvalue _ ih =>
    obtain ⟨pairs, hbody, hpairs⟩ := ih
    exact ⟨(setting.key, value) :: pairs, by rw [bodyOf, hbody, List.map_cons],
      .cons ⟨rfl, hvalue⟩ hpairs⟩

theorem keys_of_isAssigned (h : List.Forall₂ FileSetting.IsAssigned settings pairs) :
    pairs.map Prod.fst = settings.map FileSetting.key := by
  induction h with
  | nil => rfl
  | cons hpair _ ih => rw [List.map_cons, List.map_cons, ih, hpair.1]

theorem exists_lookup_of_mem (h : List.Forall₂ FileSetting.IsAssigned settings pairs)
    (hkeys : (settings.map FileSetting.key).Nodup) {setting : FileSetting}
    (hmem : setting ∈ settings) :
    ∃ value, pairs.lookup setting.key = some value ∧ setting.IsReadFrom value := by
  induction h with
  | nil => cases hmem
  | @cons first pair settings pairs hpair _ ih =>
    obtain ⟨hfirst, hmore⟩ := List.nodup_cons.mp hkeys
    obtain ⟨key, value⟩ := pair
    obtain ⟨rfl, hvalue⟩ := hpair
    rcases List.mem_cons.mp hmem with rfl | hmem
    · exact ⟨value, List.lookup_cons_self, hvalue⟩
    · have hne : (setting.key == first.key) = false := by
        rw [beq_eq_false_iff_ne]
        exact fun heq => hfirst (heq ▸ List.mem_map_of_mem hmem)
      rw [List.lookup_cons, hne]
      exact ih hmore hmem

def Takes {α : Type} (assigns : α → FileSetting) (settings : List FileSetting)
    (fallback value : α) : Prop :=
  (∀ x, assigns x ∈ settings → value = x) ∧ ((∀ x, assigns x ∉ settings) → value = fallback)

theorem Takes.unique {α : Type} {assigns : α → FileSetting} {fallback value value' : α}
    (h : Takes assigns settings fallback value) (h' : Takes assigns settings fallback value') :
    value = value' := by
  by_cases hassigned : ∃ x, assigns x ∈ settings
  · obtain ⟨x, hx⟩ := hassigned
    rw [h.1 x hx, h'.1 x hx]
  · rw [h.2 (not_exists.mp hassigned), h'.2 (not_exists.mp hassigned)]

theorem Takes.perm {α : Type} {assigns : α → FileSetting} {fallback value : α}
    {settings' : List FileSetting} (h : Takes assigns settings fallback value)
    (hperm : settings'.Perm settings) : Takes assigns settings' fallback value := by
  simpa only [Takes, hperm.mem_iff] using h

theorem exists_setting {α : Type} (assigns : α → FileSetting) {read : Value → Option α}
    (key : Text) (fallback : α) (hassigns : ∀ x, (assigns x).key = key)
    (hkey : ∀ setting : FileSetting, setting.key = key → ∃ x, setting = assigns x)
    (hread : ∀ x value, (assigns x).IsReadFrom value → read value = some x)
    (h : List.Forall₂ FileSetting.IsAssigned settings pairs)
    (hkeys : (settings.map FileSetting.key).Nodup) :
    ∃ value, Config.setting fallback read key pairs = some value ∧
      Takes assigns settings fallback value := by
  have hsome {x : α} (hx : assigns x ∈ settings) :
      Config.setting fallback read key pairs = some x := by
    obtain ⟨value, hlookup, hvalue⟩ := exists_lookup_of_mem h hkeys hx
    rw [hassigns] at hlookup
    rw [Config.setting, hlookup]
    exact hread x value hvalue
  by_cases hassigned : ∃ x, assigns x ∈ settings
  · obtain ⟨x, hx⟩ := hassigned
    refine ⟨x, hsome hx, fun y hy => ?_, fun hnone => absurd hx (hnone x)⟩
    exact Option.some.inj ((hsome hx).symm.trans (hsome hy))
  · have hfree : key ∉ pairs.map Prod.fst := by
      rw [keys_of_isAssigned h]
      intro hmem
      obtain ⟨setting, hsetting, heq⟩ := List.mem_map.mp hmem
      obtain ⟨x, rfl⟩ := hkey setting heq
      exact hassigned ⟨x, hsetting⟩
    refine ⟨fallback, ?_, fun x hx => absurd ⟨x, hx⟩ hassigned, fun _ => rfl⟩
    rw [Config.setting, lookup_eq_none_of_not_mem hfree]

end Entries

namespace Config

structure Follows (config : Config) (settings : List FileSetting) : Prop where
  anchor : Takes .anchor settings .root config.anchor
  format : Takes .format settings .plain config.format
  keepGoing : Takes .keepGoing settings false config.keepGoing
  echo : Takes .echo settings false config.echo

variable {config config' : Config} {settings settings' : List FileSetting} {pairs : Entries}
  {lines : List SettingsLine} {t : Text}

theorem Follows.unique (h : config.Follows settings) (h' : config'.Follows settings) :
    config = config' := by
  obtain ⟨anchor, format, keepGoing, echo⟩ := config
  obtain ⟨anchor', format', keepGoing', echo'⟩ := config'
  rw [mk.injEq]
  exact ⟨h.anchor.unique h'.anchor, h.format.unique h'.format, h.keepGoing.unique h'.keepGoing,
    h.echo.unique h'.echo⟩

theorem Follows.perm (h : config.Follows settings) (hperm : settings'.Perm settings) :
    config.Follows settings' :=
  ⟨h.anchor.perm hperm, h.format.perm hperm, h.keepGoing.perm hperm, h.echo.perm hperm⟩

theorem exists_ofEntries (h : List.Forall₂ FileSetting.IsAssigned settings pairs)
    (hkeys : (settings.map FileSetting.key).Nodup) :
    ∃ config, ofEntries pairs = some config ∧ config.Follows settings := by
  have hanchorRead (a : Anchor) (value : Value) (hvalue : (FileSetting.anchor a).IsReadFrom value) :
      (choiceName value).bind Anchor.ofName? = some a := by
    rw [show choiceName value = some a.name from hvalue]
    exact Anchor.ofName?_name a
  have hformatRead (f : OutputFormat) (value : Value)
      (hvalue : (FileSetting.format f).IsReadFrom value) :
      (choiceName value).bind OutputFormat.ofName? = some f := by
    rw [show choiceName value = some f.name from hvalue]
    exact OutputFormat.ofName?_name f
  obtain ⟨anchor, hanchor, htakesAnchor⟩ := exists_setting .anchor "root_mode".toList default
    (fun _ => rfl) (fun setting => setting.exists_of_key.1) hanchorRead h hkeys
  obtain ⟨format, hformat, htakesFormat⟩ := exists_setting .format "output_format".toList default
    (fun _ => rfl) (fun setting => setting.exists_of_key.2.1) hformatRead h hkeys
  obtain ⟨keepGoing, hgoing, htakesGoing⟩ := exists_setting .keepGoing "keep_going".toList false
    (fun _ => rfl) (fun setting => setting.exists_of_key.2.2.1) (fun _ _ hvalue => hvalue) h hkeys
  obtain ⟨echo, hecho, htakesEcho⟩ := exists_setting .echo "echo_selector".toList false
    (fun _ => rfl) (fun setting => setting.exists_of_key.2.2.2) (fun _ _ hvalue => hvalue) h hkeys
  refine ⟨⟨anchor, format, keepGoing, echo⟩, ?_, htakesAnchor, htakesFormat, htakesGoing,
    htakesEcho⟩
  rw [ofEntries, hanchor, hformat, hgoing, hecho]
  rfl

theorem toml_parse_lines (h : JoinsLines (lines.map SettingsLine.text) t) :
    ∃ pairs : Entries, List.Forall₂ FileSetting.IsAssigned (settingsOf lines) pairs ∧
      Toml.parse t =
        if ((settingsOf lines).map FileSetting.key).Nodup then some pairs else none := by
  obtain ⟨read, hread, hreads⟩ := h.exists_readLines
  obtain ⟨pairs, hbody, hpairs⟩ := hreads.exists_bodyOf
  refine ⟨pairs, hpairs, ?_⟩
  rw [Toml.parse, h.dropMark_eq, hread, Option.bind_some, ← keys_of_isAssigned hpairs]
  split
  · next hkeys => exact entriesOf_of_no_header hreads.isHeader_eq_false hbody hkeys
  · next hkeys => exact entriesOf_eq_none hbody hkeys

theorem exists_parse (h : JoinsLines (lines.map SettingsLine.text) t)
    (hkeys : ((settingsOf lines).map FileSetting.key).Nodup) :
    ∃ config, parse t = some config ∧ config.Follows (settingsOf lines) := by
  obtain ⟨pairs, hpairs, hparse⟩ := toml_parse_lines h
  rw [if_pos hkeys] at hparse
  rw [parse, hparse, Option.bind_some]
  exact exists_ofEntries hpairs hkeys

theorem parse_eq_none (h : JoinsLines (lines.map SettingsLine.text) t)
    (hkeys : ¬ ((settingsOf lines).map FileSetting.key).Nodup) : parse t = none := by
  obtain ⟨pairs, -, hparse⟩ := toml_parse_lines h
  rw [parse, hparse, if_neg hkeys, Option.bind_none]

end Config

theorem settings_in_any_order {lines : List SettingsLine} {t : Text}
    (h : JoinsLines (lines.map SettingsLine.text) t) :
    (((settingsOf lines).map FileSetting.key).Nodup →
        ∃ config, Config.parse t = some config ∧ config.Follows (settingsOf lines) ∧
          ∀ (lines' : List SettingsLine) (t' : Text), lines'.Perm lines →
            JoinsLines (lines'.map SettingsLine.text) t' → Config.parse t' = some config) ∧
      (¬ ((settingsOf lines).map FileSetting.key).Nodup →
        Config.parse t = none ∧
          ∀ (home : FileTree) (file : TreePath),
            home.get? file = some (.file (Utf8.encode t)) →
              Config.loadFrom home file = ⟨.root, .plain, false, false⟩) := by
  constructor
  · intro hkeys
    obtain ⟨config, hparse, hfollows⟩ := Config.exists_parse h hkeys
    refine ⟨config, hparse, hfollows, fun lines' t' hlines h' => ?_⟩
    have hsettings : (settingsOf lines').Perm (settingsOf lines) := hlines.filterMap _
    have hkeys' := (hsettings.map FileSetting.key).nodup_iff.mpr hkeys
    obtain ⟨config', hparse', hfollows'⟩ := Config.exists_parse h' hkeys'
    rw [hparse', hfollows'.unique (hfollows.perm hsettings)]
  · intro hkeys
    have hparse := Config.parse_eq_none h hkeys
    refine ⟨hparse, fun home file hfile => ?_⟩
    rw [Config.loadFrom, Config.ofEntry, hfile, Config.textIn_encode, Option.bind_some, hparse]
    rfl

theorem settings_in_any_order_mixed :
    let remark : Text := "# é".toList
    let mode : Text := "root_mode = \x7banywhere = \x7b\x7d\x7d".toList
    let size : Text := "size=0xF_F # wide".toList
    let going : Text := " keep_going\t=true".toList
    let twice : Text := "size = 'é'".toList ++ '\n' :: '\n' :: size
    let file : Text :=
      remark ++ '\r' :: '\n' :: (mode ++ '\n' :: '\r' :: '\n' :: (size ++ '\n' :: going))
    let turned : Text :=
      going ++ '\n' :: (size ++ '\n' :: '\n' :: (mode ++ '\n' :: (remark ++ ['\n'])))
    Config.parse file = some ⟨.anywhere, .plain, true, false⟩ ∧
      Config.parse turned = some ⟨.anywhere, .plain, true, false⟩ ∧
      Config.parse twice = none ∧
        Config.loadFrom (FileTree.empty.put ["here".toList] (.file (Utf8.encode twice)))
          ["here".toList] = ⟨.root, .plain, false, false⟩ := by
  intro remark mode size going twice file turned
  have hbare : IsBareKey "size".toList := by decide
  have hunknown : "size".toList ∉ Config.knownKeys := by decide
  have hempty : SpellsLine none [] := .blank (w := []) (by decide) .none
  have hremark : SpellsLine none remark := .blank (w := []) (by decide) (.comment (by decide))
  have hchoice : SpellsChoice Anchor.anywhere.name "\x7banywhere = \x7b\x7d\x7d".toList :=
    @SpellsChoice.table _ Anchor.anywhere.name [] [' '] [' '] [] []
      (.bare (by decide)) (by decide) (by decide) (by decide) (by decide) (by decide)
  have hmode : SpellsLine (some (.anchor .anywhere)) mode :=
    @SpellsLine.assignment (.anchor .anywhere) [] [' '] [' '] _ [] [] (by decide) (by decide)
      (by decide) (.anchor hchoice) (by decide) .none
  have hdigits : SpellsDigits isHexadecimal ['F', 'F'] ['F', '_', 'F'] :=
    .apart (by decide) (.last (by decide))
  have hnumber : SpellsInteger (numberOf 16 ['F', 'F']) "0xF_F".toList :=
    @SpellsInteger.based 'x' 16 isHexadecimal _ _ (by simp [bases]) hdigits
  have hsize : SpellsLine (some (.other "size".toList hbare hunknown)) size :=
    @SpellsLine.assignment _ [] [] [] "0xF_F".toList [' '] "# wide".toList (by decide) (by decide)
      (by decide) (.integer hnumber (by decide) (by decide)) (by decide) (.comment (by decide))
  have hbody : SpellsBody .single ['é'] ['é'] :=
    .cons (.plain (by decide) (by decide) (by decide)) .nil
  have hagain : SpellsLine (some (.other "size".toList hbare hunknown)) "size = 'é'".toList :=
    @SpellsLine.assignment _ [] [' '] [' '] "'é'".toList [] [] (by decide) (by decide)
      (by decide) (.string (.short hbody)) (by decide) .none
  have hgoing : SpellsLine (some (.keepGoing true)) going :=
    @SpellsLine.assignment (.keepGoing true) [' '] ['\t'] [] _ [] [] (by decide) (by decide)
      (by decide) (.keepGoing true) (by decide) .none
  let lines : List SettingsLine :=
    [⟨_, _, hremark⟩, ⟨_, _, hmode⟩, ⟨_, _, hempty⟩, ⟨_, _, hsize⟩, ⟨_, _, hgoing⟩]
  have hjoins : JoinsLines [remark, mode, [], size, going] file :=
    .carriage (.newline (.carriage (.newline (.last _))))
  have hturned : JoinsLines [going, size, [], mode, remark] turned :=
    .newline (.newline (.newline (.newline (.newline .nil))))
  have hkeys : ["root_mode".toList, "size".toList, "keep_going".toList].Nodup := by decide
  obtain ⟨⟨anchor, format, keepGoing, echo⟩, hparse, hfollows, horder⟩ :=
    (@settings_in_any_order lines _ hjoins).1 hkeys
  obtain rfl : anchor = .anywhere := hfollows.anchor.1 .anywhere (by simp [settingsOf, lines])
  obtain rfl : format = .plain := hfollows.format.2 (by simp [settingsOf, lines])
  obtain rfl : keepGoing = true := hfollows.keepGoing.1 true (by simp [settingsOf, lines])
  obtain rfl : echo = false := hfollows.echo.2 (by simp [settingsOf, lines])
  have hjoinsTwice : JoinsLines ["size = 'é'".toList, [], size] twice :=
    .newline (.newline (.last _))
  have hkeysTwice : ¬ ["size".toList, "size".toList].Nodup := by decide
  obtain ⟨hnone, hdefault⟩ := (@settings_in_any_order
    [⟨_, _, hagain⟩, ⟨_, _, hempty⟩, ⟨_, _, hsize⟩] _ hjoinsTwice).2 hkeysTwice
  exact ⟨hparse, horder lines.reverse _ lines.reverse_perm hturned, hnone,
    hdefault _ _ (FileTree.get?_put_self _ _ _)⟩

end SelectorXPath
