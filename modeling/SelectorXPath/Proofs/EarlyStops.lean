import Mathlib.Data.List.Infix
import SelectorXPath.Proofs.RunOutcomes

namespace SelectorXPath

namespace Conversion

def xpath? (record : Conversion) : Option Text := record.outcome.toOption

def error? (record : Conversion) : Option Text :=
  match record.outcome with
  | .ok _ => none
  | .error e => some e.message

theorem isSome_xpath? (record : Conversion) : record.xpath?.isSome = !record.error?.isSome := by
  obtain ⟨selector, outcome⟩ := record
  cases outcome <;> rfl

end Conversion

section Records

variable {records other : List Conversion}

def upToFailure : List Conversion → List Conversion
  | [] => []
  | record :: more => if record.isOk then record :: upToFailure more else [record]

def EndsFailed (records : List Conversion) : Prop :=
  ∃ front record, records = front ++ [record] ∧ record.isOk = false

structure StopsAtFailure (records short : List Conversion) : Prop where
  initial : short <+: records
  failed : EndsFailed short
  shortest : ∀ other, other <+: records → EndsFailed other → short <+: other

theorem upToFailure_initial (records : List Conversion) : upToFailure records <+: records := by
  induction records with
  | nil => exact List.prefix_refl []
  | cons record more ih =>
    rw [upToFailure]
    split
    · exact (List.prefix_cons_inj record).mpr ih
    · exact List.prefix_append [record] more

theorem upToFailure_of_all (h : ∀ record ∈ records, record.isOk = true) :
    upToFailure records = records := by
  induction records with
  | nil => rfl
  | cons record more ih =>
    obtain ⟨hrecord, hmore⟩ := List.forall_mem_cons.mp h
    rw [upToFailure, if_pos hrecord, ih hmore]

theorem endsFailed_cons_iff {record : Conversion} (h : record.isOk = true) :
    EndsFailed (record :: records) ↔ EndsFailed records := by
  constructor
  · rintro ⟨front, last, heq, hlast⟩
    cases front with
    | nil =>
      cases heq
      rw [h] at hlast
      cases hlast
    | cons first front =>
      cases heq
      exact ⟨front, last, rfl, hlast⟩
  · rintro ⟨front, last, rfl, hlast⟩
    exact ⟨record :: front, last, rfl, hlast⟩

theorem endsFailed_upToFailure {record : Conversion} (hmem : record ∈ records)
    (h : record.isOk = false) : EndsFailed (upToFailure records) := by
  induction records with
  | nil => cases hmem
  | cons first more ih =>
    rw [upToFailure]
    cases hfirst : first.isOk with
    | false => exact ⟨[], first, rfl, hfirst⟩
    | true =>
      rcases List.mem_cons.mp hmem with rfl | hmore
      · rw [hfirst] at h
        cases h
      · exact (endsFailed_cons_iff hfirst).mpr (ih hmore)

theorem upToFailure_shortest (h : other <+: records) (hfailed : EndsFailed other) :
    upToFailure records <+: other := by
  induction records generalizing other with
  | nil =>
    obtain ⟨front, last, rfl, -⟩ := hfailed
    simp at h
  | cons record more ih =>
    cases other with
    | nil =>
      obtain ⟨front, last, heq, -⟩ := hfailed
      simp at heq
    | cons first rest =>
      obtain ⟨rfl, hrest⟩ := List.cons_prefix_cons.mp h
      rw [upToFailure]
      cases hfirst : first.isOk with
      | false => exact List.prefix_append [first] rest
      | true =>
        exact (List.prefix_cons_inj first).mpr
          (ih hrest ((endsFailed_cons_iff hfirst).mp hfailed))

theorem upToFailure_cases (records : List Conversion) :
    ((∀ record ∈ records, record.isOk = true) ∧ upToFailure records = records) ∨
      ((∃ record ∈ records, record.isOk = false) ∧
        StopsAtFailure records (upToFailure records)) := by
  by_cases hall : ∀ record ∈ records, record.isOk = true
  · exact .inl ⟨hall, upToFailure_of_all hall⟩
  · push Not at hall
    obtain ⟨record, hmem, hrecord⟩ := hall
    rw [ne_eq, Bool.not_eq_true] at hrecord
    exact .inr ⟨⟨record, hmem, hrecord⟩, upToFailure_initial records,
      endsFailed_upToFailure hmem hrecord, fun other => upToFailure_shortest⟩

end Records

section Runs

variable (anchor : Anchor) (selectors : List Text)

theorem convertAll_keepGoing :
    convertAll anchor true selectors = selectors.map fun s => Conversion.run s anchor := by
  induction selectors with
  | nil => rfl
  | cons selector more ih => simp [convertAll, ih]

theorem convertAll_stopping :
    convertAll anchor false selectors = upToFailure (convertAll anchor true selectors) := by
  induction selectors with
  | nil => rfl
  | cons selector more ih => simp [convertAll, upToFailure, ih]

theorem convertAll_initial (keepGoing : Bool) :
    convertAll anchor keepGoing selectors <+: convertAll anchor true selectors := by
  cases keepGoing with
  | true => exact List.prefix_refl _
  | false =>
    rw [convertAll_stopping]
    exact upToFailure_initial _

theorem explainSelectors_initial (keepGoing : Bool) :
    (explainSelectors anchor keepGoing selectors).output <+:
        (explainSelectors anchor true selectors).output ∧
      (explainSelectors anchor keepGoing selectors).complaints <+:
        (explainSelectors anchor true selectors).complaints := by
  have hrecords := convertAll_initial anchor selectors keepGoing
  rw [explainSelectors_eq, explainSelectors_eq]
  exact ⟨(hrecords.filterMap _).flatMap _, hrecords.flatMap _⟩

theorem convertSelectors_initial (keepGoing echo : Bool) :
    (convertSelectors ⟨anchor, .plain, keepGoing, echo⟩ selectors).output <+:
        (convertSelectors ⟨anchor, .plain, true, echo⟩ selectors).output ∧
      (convertSelectors ⟨anchor, .plain, keepGoing, echo⟩ selectors).complaints <+:
        (convertSelectors ⟨anchor, .plain, true, echo⟩ selectors).complaints := by
  have hrecords := convertAll_initial anchor selectors keepGoing
  exact ⟨hrecords.flatMap _, hrecords.flatMap _⟩

theorem processSelectors_initial {settings : Config} {explain : Bool}
    (h : explain = true ∨ settings.format = .plain) :
    (processSelectors settings explain selectors).output <+:
        (processSelectors { settings with keepGoing := true } explain selectors).output ∧
      (processSelectors settings explain selectors).complaints <+:
        (processSelectors { settings with keepGoing := true } explain selectors).complaints := by
  obtain ⟨anchor, format, keepGoing, echo⟩ := settings
  cases explain with
  | true => exact explainSelectors_initial anchor selectors keepGoing
  | false =>
    obtain rfl : format = .plain := by simpa using h
    exact convertSelectors_initial anchor selectors keepGoing echo

end Runs

theorem runOptions_initial (world : World) {options : Options}
    (h : options.explain = true ∨
      (options.settings (Config.ofEntry world.config)).format = .plain) :
    (runOptions world options).output <+:
        (runOptions world { options with keepGoing := true }).output ∧
      (runOptions world options).complaints <+:
        (runOptions world { options with keepGoing := true }).complaints := by
  have hcollect : collectSelectors world { options with keepGoing := true } =
      collectSelectors world options := rfl
  rw [runOptions, runOptions, hcollect]
  cases collectSelectors world options with
  | error e => exact ⟨List.prefix_refl _, List.prefix_refl _⟩
  | ok selectors => exact processSelectors_initial selectors h

theorem stopping_early_truncates :
    (∀ (anchor : Anchor) (selectors : List Text),
      convertAll anchor true selectors = selectors.map (fun s => ⟨s, convert s anchor⟩) ∧
      (∀ record ∈ convertAll anchor true selectors,
        record.xpath?.isSome = !record.error?.isSome) ∧
      (((∀ record ∈ convertAll anchor true selectors, record.isOk = true) ∧
          convertAll anchor false selectors = convertAll anchor true selectors) ∨
        ((∃ record ∈ convertAll anchor true selectors, record.isOk = false) ∧
          StopsAtFailure (convertAll anchor true selectors)
            (convertAll anchor false selectors)))) ∧
    ∀ (world : World) (words words' : List Text) (options : Options),
      readCommandLine words = some (.run options) →
      readCommandLine words' = some (.run { options with keepGoing := true }) →
      (options.explain = true ∨
        (options.settings (Config.ofEntry world.config)).format = .plain) →
      ∃ outcome outcome', runCommand world words = some outcome ∧
        runCommand world words' = some outcome' ∧ outcome.output <+: outcome'.output ∧
        outcome.complaints <+: outcome'.complaints := by
  refine ⟨fun anchor selectors => ⟨convertAll_keepGoing anchor selectors,
    fun record _ => record.isSome_xpath?, ?_⟩, fun world words words' options hread hread' h => ?_⟩
  · rw [convertAll_stopping]
    exact upToFailure_cases _
  · exact ⟨_, _, by rw [runCommand, hread]; rfl, by rw [runCommand, hread']; rfl,
      runOptions_initial world h⟩

theorem stopping_early_truncates_hover :
    ∃ outcome outcome',
      runCommand (.ofTree .empty []) ["-e".toList, "a".toList, "b:hover".toList, "c".toList] =
        some outcome ∧
      runCommand (.ofTree .empty []) ["a".toList, "-ek".toList, "b:hover".toList, "c".toList] =
        some outcome' ∧
      outcome.output <+: outcome'.output ∧ outcome.complaints <+: outcome'.complaints ∧
      outcome.output = "a => /a\n".toList ∧ outcome'.output = "a => /a\nc => /c\n".toList := by
  have hread : readCommandLine ["-e".toList, "a".toList, "b:hover".toList, "c".toList] =
      some (.run ⟨["a".toList, "b:hover".toList, "c".toList], none, none, none, true, false,
        false⟩) := by
    decide +kernel
  have hread' : readCommandLine ["a".toList, "-ek".toList, "b:hover".toList, "c".toList] =
      some (.run ⟨["a".toList, "b:hover".toList, "c".toList], none, none, none, true, true,
        false⟩) := by
    decide +kernel
  obtain ⟨outcome, outcome', hrun, hrun', houtput, hcomplaints⟩ :=
    stopping_early_truncates.2 (.ofTree .empty []) _ _ _ hread hread' (.inr rfl)
  refine ⟨outcome, outcome', hrun, hrun', houtput, hcomplaints, ?_, ?_⟩
  · have hout : (runCommand (.ofTree .empty [])
        ["-e".toList, "a".toList, "b:hover".toList, "c".toList]).map Outcome.output =
        some "a => /a\n".toList := by
      decide +kernel
    rw [hrun] at hout
    exact Option.some.inj hout
  · have hout : (runCommand (.ofTree .empty [])
        ["a".toList, "-ek".toList, "b:hover".toList, "c".toList]).map Outcome.output =
        some "a => /a\nc => /c\n".toList := by
      decide +kernel
    rw [hrun'] at hout
    exact Option.some.inj hout

end SelectorXPath
