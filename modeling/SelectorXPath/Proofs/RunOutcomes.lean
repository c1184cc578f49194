import SelectorXPath.CommandLine.Run
import SelectorXPath.Proofs.Levels

namespace SelectorXPath

structure Explains (s : Text) (anchor : Anchor) (x : Explanation) : Prop where
  selector : x.selector = s
  fragments : parseSelector s = .ok x.fragments
  tree : PathTree.ofSelector s anchor = .ok x.tree
  xpath : convert s anchor = .ok x.xpath

namespace Explanation

theorem ofSelector_cases (s : Text) (anchor : Anchor) :
    (∃ e, ofSelector s anchor = .error e ∧ convert s anchor = .error e) ∨
      ∃ x, ofSelector s anchor = .ok x ∧ Explains s anchor x := by
  cases hparse : parseSelector s with
  | error e =>
    have htree : PathTree.ofSelector s anchor = .error e := by
      rw [PathTree.ofSelector_eq, hparse]
    exact .inl ⟨e, by rw [ofSelector, hparse], by rw [convert, htree]; rfl⟩
  | ok fragments =>
    have htree : PathTree.ofSelector s anchor = PathTree.ofFragments fragments anchor := by
      rw [PathTree.ofSelector_eq, hparse]
    cases hbuild : PathTree.ofFragments fragments anchor with
    | error e =>
      refine .inl ⟨e, ?_, ?_⟩
      · simp only [ofSelector, hparse, hbuild]
      · rw [convert, htree, hbuild]
        rfl
    | ok tree =>
      refine .inr ⟨⟨s, fragments, tree, tree.render⟩, ?_, rfl, hparse, htree.trans hbuild, ?_⟩
      · simp only [ofSelector, hparse, hbuild]
      · rw [convert, htree, hbuild]
        rfl

def document (x : Explanation) : Text := x.toJson.pretty ++ ['\n']

end Explanation

section Anchors

theorem convert_error_of_anchor {s : Text} {anchor : Anchor} {e : SelectorError}
    (h : convert s anchor = .error e) (other : Anchor) : convert s other = .error e := by
  rw [convert] at h ⊢
  cases htree : PathTree.ofSelector s anchor with
  | ok tree =>
    rw [htree] at h
    cases h
  | error e' =>
    rw [htree] at h
    cases h
    have hfails := ofSelectorWithin_eq_error_iff.mp htree
    rw [PathTree.ofSelector, hfails.ofSelectorWithin_eq other]
    rfl

theorem isOk_convert (s : Text) (anchor other : Anchor) :
    (convert s anchor).isOk = (convert s other).isOk := by
  cases h : convert s anchor with
  | error e => rw [convert_error_of_anchor h other]
  | ok x =>
    cases h' : convert s other with
    | ok y => rfl
    | error e =>
      rw [convert_error_of_anchor h' anchor] at h
      cases h

end Anchors

section Batches

variable (anchor : Anchor) (keepGoing : Bool)

def explanations (records : List Conversion) : List Explanation :=
  records.filterMap fun record => (Explanation.ofSelector record.selector anchor).toOption

def successes (records : List Conversion) : List (Text × Text) :=
  records.filterMap fun record => record.outcome.toOption.map (record.selector, ·)

theorem convertAll_cons_of_ok {selector xpath : Text} (h : convert selector anchor = .ok xpath)
    (more : List Text) :
    convertAll anchor keepGoing (selector :: more) =
      ⟨selector, .ok xpath⟩ :: convertAll anchor keepGoing more := by
  simp [convertAll, Conversion.run, h]

theorem convertAll_cons_of_error {selector : Text} {e : SelectorError}
    (h : convert selector anchor = .error e) (more : List Text) :
    convertAll anchor keepGoing (selector :: more) =
      ⟨selector, .error e⟩ :: if keepGoing then convertAll anchor keepGoing more else [] := by
  cases keepGoing <;> simp [convertAll, Conversion.run, h]

theorem explainSelectors_eq (selectors : List Text) :
    explainSelectors anchor keepGoing selectors =
      { status := statusOf ((convertAll anchor keepGoing selectors).all Conversion.isOk)
        output := (explanations anchor (convertAll anchor keepGoing selectors)).flatMap
          Explanation.document
        complaints := (convertAll anchor keepGoing selectors).flatMap Conversion.complaint } := by
  induction selectors with
  | nil => rfl
  | cons selector more ih =>
    rcases Explanation.ofSelector_cases selector anchor with ⟨e, hx, hc⟩ | ⟨x, hx, hc⟩
    · have hnone : (Explanation.ofSelector selector anchor).toOption = none := by rw [hx]; rfl
      rw [convertAll_cons_of_error anchor keepGoing hc, explainSelectors, hx]
      cases keepGoing with
      | true => simp [ih, explanations, hnone, statusOf, Conversion.complaint]
      | false => simp [explanations, hnone, statusOf, Conversion.complaint]
    · have hsome : (Explanation.ofSelector selector anchor).toOption = some x := by rw [hx]; rfl
      rw [convertAll_cons_of_ok anchor keepGoing hc.xpath, explainSelectors, hx]
      simp [ih, explanations, hsome, Explanation.document, Conversion.complaint]

theorem all_isOk_convertAll (selectors : List Text) :
    (convertAll anchor keepGoing selectors).all Conversion.isOk =
      selectors.all fun s => (convert s anchor).isOk := by
  induction selectors with
  | nil => rfl
  | cons selector more ih =>
    cases h : convert selector anchor with
    | ok xpath =>
      rw [convertAll_cons_of_ok anchor keepGoing h, List.all_cons, List.all_cons, ih, h]
      rfl
    | error e =>
      rw [convertAll_cons_of_error anchor keepGoing h, List.all_cons, List.all_cons, h]
      rfl

theorem outcome_of_mem_convertAll {selectors : List Text} {record : Conversion}
    (h : record ∈ convertAll anchor keepGoing selectors) :
    record.outcome = convert record.selector anchor := by
  induction selectors with
  | nil => cases h
  | cons selector more ih =>
    rw [convertAll] at h
    split at h
    · rcases List.mem_cons.mp h with rfl | hmore
      · rfl
      · exact ih hmore
    · rw [List.mem_singleton.mp h]
      rfl

end Batches

theorem status_processSelectors (settings : Config) (explain : Bool) (selectors : List Text)
    (anchor : Anchor) :
    (processSelectors settings explain selectors).status =
      statusOf (selectors.all fun s => (convert s anchor).isOk) := by
  have hall : (convertAll settings.anchor settings.keepGoing selectors).all Conversion.isOk =
      selectors.all fun s => (convert s anchor).isOk := by
    rw [all_isOk_convertAll]
    congr 1
    funext s
    exact isOk_convert s settings.anchor anchor
  cases explain with
  | true =>
    rw [processSelectors, if_pos rfl, explainSelectors_eq, hall]
  | false =>
    rw [processSelectors, if_neg (by decide), convertSelectors, hall]

theorem statusOf_all (selectors : List Text) (anchor : Anchor) :
    (statusOf (selectors.all fun s => (convert s anchor).isOk) = 0 ∧
        ∀ s ∈ selectors, ∃ xpath, convert s anchor = .ok xpath) ∨
      (statusOf (selectors.all fun s => (convert s anchor).isOk) = 1 ∧
        ∃ s ∈ selectors, ∃ e, convert s anchor = .error e) := by
  cases hall : selectors.all fun s => (convert s anchor).isOk with
  | true =>
    refine .inl ⟨rfl, fun s hs => ?_⟩
    have hok := List.all_eq_true.mp hall s hs
    cases h : convert s anchor with
    | ok xpath => exact ⟨xpath, rfl⟩
    | error e =>
      rw [h] at hok
      cases hok
  | false =>
    obtain ⟨s, hs, hfail⟩ := List.all_eq_false.mp hall
    refine .inr ⟨rfl, s, hs, ?_⟩
    cases h : convert s anchor with
    | error e => exact ⟨e, rfl⟩
    | ok xpath =>
      rw [h] at hfail
      exact absurd rfl hfail

theorem runCommand_of_collect {world : World} {words : List Text} {options : Options}
    {selectors : List Text} (hread : readCommandLine words = some (.run options))
    (hcollect : collectSelectors world options = .ok selectors) :
    runCommand world words = some (processSelectors (options.settings (Config.ofEntry world.config))
      options.explain selectors) := by
  simp only [runCommand, hread, Option.map_some, runOptions, hcollect]

theorem runCommand_status {world world' : World} {words words' : List Text}
    {options options' : Options} {selectors : List Text}
    (hread : readCommandLine words = some (.run options))
    (hread' : readCommandLine words' = some (.run options'))
    (hcollect : collectSelectors world options = .ok selectors)
    (hcollect' : collectSelectors world' options' = .ok selectors) :
    ∃ status, (runCommand world words).map Outcome.status = some status ∧
      (runCommand world' words').map Outcome.status = some status ∧
      ∀ anchor,
        (status = 0 ∧ ∀ s ∈ selectors, ∃ xpath, convert s anchor = .ok xpath) ∨
          (status = 1 ∧ ∃ s ∈ selectors, ∃ e, convert s anchor = .error e) := by
  refine ⟨statusOf (selectors.all fun s => (convert s .root).isOk), ?_, ?_, fun anchor => ?_⟩
  · rw [runCommand_of_collect hread hcollect, Option.map_some, status_processSelectors _ _ _ .root]
  · rw [runCommand_of_collect hread' hcollect', Option.map_some,
      status_processSelectors _ _ _ .root]
  · have hanchor : (fun s => (convert s .root).isOk) = fun s => (convert s anchor).isOk := by
      funext s
      exact isOk_convert s .root anchor
    rw [hanchor]
    exact statusOf_all selectors anchor

theorem runCommand_status_hover :
    ∃ status,
      (runCommand (.ofTree ⟨[(Config.path, .file (Utf8.encode "keep_going = true".toList)),
          (["l".toList], .file (Utf8.encode "a\nb:hover\n".toList))]⟩ [])
        ["-f".toList, "l".toList, "--explain".toList]).map Outcome.status = some status ∧
      (runCommand (.ofTree .empty []) ["a".toList, "--format=json".toList, "--root".toList,
        "anywhere".toList, "b:hover".toList]).map Outcome.status = some status ∧
      ∀ anchor,
        (status = 0 ∧ ∀ s ∈ ["a".toList, "b:hover".toList], ∃ xpath, convert s anchor = .ok xpath) ∨
          (status = 1 ∧
            ∃ s ∈ ["a".toList, "b:hover".toList], ∃ e, convert s anchor = .error e) := by
  have hread : readCommandLine ["-f".toList, "l".toList, "--explain".toList] =
      some (.run ⟨[], some "l".toList, none, none, false, false, true⟩) := by
    decide +kernel
  have hread' : readCommandLine ["a".toList, "--format=json".toList, "--root".toList,
      "anywhere".toList, "b:hover".toList] =
      some (.run ⟨["a".toList, "b:hover".toList], none, some .anywhere, some .json, false, false,
        false⟩) := by
    decide +kernel
  exact runCommand_status hread hread' (by decide +kernel) (by decide +kernel)

end SelectorXPath
