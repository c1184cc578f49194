import SelectorXPath.Proofs.EarlyStops
import SelectorXPath.Proofs.OneLine
import SelectorXPath.Proofs.PlainLists

namespace SelectorXPath

section Lists

theorem oneLine_of_mem_selectorsOf {content s : Text} (h : s ∈ selectorsOf content) :
    OneLine s := by
  obtain ⟨hline, -⟩ := List.mem_filter.mp h
  obtain ⟨piece, hpiece, rfl⟩ := List.mem_map.mp hline
  exact OneLine.of_subset (not_mem_of_mem_splitOnChar hpiece) (trim_subset piece)

theorem splitOnChar_lines {lines : List Text} (h : ∀ line ∈ lines, OneLine line) :
    splitOnChar '\n' (lines.flatMap fun line => line ++ ['\n']) = lines ++ [[]] := by
  induction lines with
  | nil => rfl
  | cons line more ih =>
    obtain ⟨hline, hmore⟩ := List.forall_mem_cons.mp h
    rw [List.flatMap_cons, List.append_assoc, List.singleton_append, splitOnChar_append_cons,
      splitOnChar_eq_singleton hline, ih hmore]
    rfl

end Lists

section Records

variable (anchor : Anchor) (keepGoing : Bool) (records : List Conversion)

def Conversion.OneLined (record : Conversion) : Prop :=
  OneLine record.selector ∧ (∀ xpath ∈ record.xpath?, OneLine xpath) ∧
    ∀ message ∈ record.error?, OneLine message

def failures (records : List Conversion) : List (Text × Text) :=
  records.filterMap fun record => record.error?.map (record.selector, ·)

theorem selector_mem_of_mem_convertAll {selectors : List Text} {record : Conversion}
    (h : record ∈ convertAll anchor keepGoing selectors) : record.selector ∈ selectors := by
  have hall := (convertAll_initial anchor selectors keepGoing).subset h
  rw [convertAll_keepGoing] at hall
  obtain ⟨selector, hmem, rfl⟩ := List.mem_map.mp hall
  exact hmem

theorem oneLined_of_mem_convertAll {selectors : List Text} (hs : ∀ s ∈ selectors, OneLine s)
    {record : Conversion} (h : record ∈ convertAll anchor keepGoing selectors) :
    record.OneLined := by
  have hselector := hs _ (selector_mem_of_mem_convertAll anchor keepGoing h)
  have houtcome := outcome_of_mem_convertAll anchor keepGoing h
  refine ⟨hselector, fun xpath hxpath => ?_, fun message hmessage => ?_⟩
  · rcases oneLine_convert hselector anchor with ⟨x, hx, hline⟩ | ⟨e, he, -⟩
    · rw [Conversion.xpath?, houtcome, hx] at hxpath
      cases hxpath
      exact hline
    · rw [Conversion.xpath?, houtcome, he] at hxpath
      cases hxpath
  · rcases oneLine_convert hselector anchor with ⟨x, hx, -⟩ | ⟨e, he, hline⟩
    · rw [Conversion.error?, houtcome, hx] at hmessage
      cases hmessage
    · rw [Conversion.error?, houtcome, he] at hmessage
      cases hmessage
      exact hline

theorem flatMap_line (echo : Bool) :
    records.flatMap (Conversion.line echo) =
      ((successes records).map fun success =>
        if echo then success.1 ++ " => ".toList ++ success.2 else success.2).flatMap
          fun line => line ++ ['\n'] := by
  induction records with
  | nil => rfl
  | cons record more ih =>
    obtain ⟨selector, outcome⟩ := record
    cases outcome with
    | ok xpath => simp [successes, Conversion.line, Except.toOption, ih]
    | error e => simp [successes, Conversion.line, Except.toOption, ih]

theorem flatMap_complaint :
    records.flatMap Conversion.complaint =
      ((failures records).map fun failure => failure.1 ++ ": ".toList ++ failure.2).flatMap
        fun line => line ++ ['\n'] := by
  induction records with
  | nil => rfl
  | cons record more ih =>
    obtain ⟨selector, outcome⟩ := record
    cases outcome with
    | ok xpath => simp [failures, Conversion.complaint, Conversion.error?, ih]
    | error e => simp [failures, Conversion.complaint, Conversion.error?, ih]

variable {records}

theorem oneLine_of_mem_successes (h : ∀ record ∈ records, record.OneLined) {success : Text × Text}
    (hmem : success ∈ successes records) : OneLine success.1 ∧ OneLine success.2 := by
  obtain ⟨record, hrecord, hsuccess⟩ := List.mem_filterMap.mp hmem
  obtain ⟨xpath, hxpath, rfl⟩ := Option.map_eq_some_iff.mp hsuccess
  exact ⟨(h record hrecord).1, (h record hrecord).2.1 xpath hxpath⟩

theorem oneLine_of_mem_failures (h : ∀ record ∈ records, record.OneLined) {failure : Text × Text}
    (hmem : failure ∈ failures records) : OneLine failure.1 ∧ OneLine failure.2 := by
  obtain ⟨record, hrecord, hfailure⟩ := List.mem_filterMap.mp hmem
  obtain ⟨message, hmessage, rfl⟩ := Option.map_eq_some_iff.mp hfailure
  exact ⟨(h record hrecord).1, (h record hrecord).2.2 message hmessage⟩

theorem splitOnChar_flatMap_line (h : ∀ record ∈ records, record.OneLined) (echo : Bool) :
    splitOnChar '\n' (records.flatMap (Conversion.line echo)) =
      ((successes records).map fun success =>
        if echo then success.1 ++ " => ".toList ++ success.2 else success.2) ++ [[]] := by
  rw [flatMap_line]
  refine splitOnChar_lines fun line hline => ?_
  obtain ⟨success, hmem, rfl⟩ := List.mem_map.mp hline
  obtain ⟨hselector, hxpath⟩ := oneLine_of_mem_successes h hmem
  split
  · simp [hselector, hxpath]
  · exact hxpath

theorem splitOnChar_flatMap_complaint (h : ∀ record ∈ records, record.OneLined) :
    splitOnChar '\n' (records.flatMap Conversion.complaint) =
      ((failures records).map fun failure => failure.1 ++ ": ".toList ++ failure.2) ++ [[]] := by
  rw [flatMap_complaint]
  refine splitOnChar_lines fun line hline => ?_
  obtain ⟨failure, hmem, rfl⟩ := List.mem_map.mp hline
  obtain ⟨hselector, hmessage⟩ := oneLine_of_mem_failures h hmem
  simp [hselector, hmessage]

end Records

theorem plain_report_lines (content : Text) (anchor : Anchor) (keepGoing : Bool) :
    let records := convertAll anchor keepGoing (selectorsOf content)
    (∀ record ∈ records, '\n' ∉ record.selector ∧ (∀ xpath ∈ record.xpath?, '\n' ∉ xpath) ∧
      ∀ message ∈ record.error?, '\n' ∉ message) ∧
    splitOnChar '\n' (writeConversions .plain false records) =
      (successes records).map Prod.snd ++ [[]] ∧
    splitOnChar '\n' (writeConversions .plain true records) =
      ((successes records).map fun success => success.1 ++ " => ".toList ++ success.2) ++ [[]] ∧
    ∀ echo, splitOnChar '\n' (processSelectors ⟨anchor, .plain, keepGoing, echo⟩ false
        (selectorsOf content)).complaints =
      ((failures records).map fun failure => failure.1 ++ ": ".toList ++ failure.2) ++ [[]] := by
  intro records
  have hrecords : ∀ record ∈ records, record.OneLined := fun record hmem =>
    oneLined_of_mem_convertAll anchor keepGoing (fun s => oneLine_of_mem_selectorsOf) hmem
  refine ⟨hrecords, splitOnChar_flatMap_line hrecords false, splitOnChar_flatMap_line hrecords true,
    fun echo => splitOnChar_flatMap_complaint hrecords⟩

end SelectorXPath
