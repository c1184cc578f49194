import SelectorXPath.Proofs.PlainLists
import SelectorXPath.Proofs.RunOutcomes

namespace SelectorXPath

namespace Options

def readOption (options : Options) (word : Text) : Option Step :=
  match word with
  | '-' :: '-' :: name => options.readName name
  | _ => options.readLetters word.tail

section Words

variable {options options' : Options} {word : Text}

theorem readWords_plain (h : isPlainWord word = true) (more : List Text) :
    readWords options none (word :: more) = readWords (options.addSelectors [word]) none more := by
  rw [readWords.eq_def]
  exact if_pos h

theorem readWords_value (option : ValueOption) (more : List Text) :
    readWords options (some option) (word :: more) =
      if isPlainWord word then
        (options.give option word).bind fun given => readWords given none more
      else none := by
  rw [readWords.eq_def]

theorem readWords_dashes (options : Options) (more : List Text) :
    readWords options none ("--".toList :: more) = some (.run (options.addSelectors more)) := by
  rw [readWords.eq_def]
  rfl

theorem readWords_option (h : isPlainWord word = false) (hdashes : word ≠ "--".toList)
    (more : List Text) :
    readWords options none (word :: more) =
      match options.readOption word with
      | none => none
      | some (.stop invocation) => some invocation
      | some (.go next pending) => readWords next pending more := by
  rw [readWords.eq_def]
  simp only [h, hdashes, Bool.false_eq_true, if_false]
  rfl

theorem readLetters_stop {letters : Text} {invocation : Invocation}
    (h : options.readLetters letters = some (.stop invocation)) :
    (∃ full, invocation = .help full) ∨ invocation = .version := by
  induction letters generalizing options with
  | nil => cases h
  | cons letter more ih =>
    rw [readLetters.eq_def] at h
    dsimp only at h
    split at h
    · cases h
    · cases h
      exact .inl ⟨false, rfl⟩
    · cases h
      exact .inr rfl
    · obtain ⟨raised, -, hmore⟩ := Option.bind_eq_some_iff.mp h
      exact ih hmore
    · split at h
      · cases h
      · obtain ⟨_, -, hgo⟩ := Option.map_eq_some_iff.mp h
        cases hgo
      · obtain ⟨_, -, hgo⟩ := Option.map_eq_some_iff.mp h
        cases hgo

theorem readName_stop {name : Text} {invocation : Invocation}
    (h : options.readName name = some (.stop invocation)) :
    (∃ full, invocation = .help full) ∨ invocation = .version := by
  rw [readName] at h
  dsimp only at h
  split at h
  · obtain ⟨_, -, hgo⟩ := Option.map_eq_some_iff.mp h
    cases hgo
  · cases h
  · obtain ⟨_, -, hgo⟩ := Option.map_eq_some_iff.mp h
    cases hgo
  · cases h
    exact .inl ⟨true, rfl⟩
  · cases h
    exact .inr rfl
  · cases h

theorem readOption_ne_stop_run : options.readOption word ≠ some (.stop (.run options')) := by
  intro h
  have hstop : (∃ full, Invocation.run options' = .help full) ∨
      Invocation.run options' = .version := by
    unfold readOption at h
    split at h
    · exact readName_stop h
    · exact readLetters_stop h
  rcases hstop with ⟨full, hhelp⟩ | hversion
  · cases hhelp
  · cases hversion

theorem readWords_append {pending : Option ValueOption} {words : List Text}
    (hdashes : "--".toList ∉ words) (h : readWords options pending words = some (.run options'))
    (more : List Text) :
    readWords options pending (words ++ more) = readWords options' none more := by
  induction words generalizing options pending with
  | nil =>
    cases pending with
    | none =>
      cases h
      rfl
    | some option => cases h
  | cons word words ih =>
    have hwords := List.not_mem_of_not_mem_cons hdashes
    rw [List.cons_append]
    cases pending with
    | some option =>
      rw [readWords_value] at h ⊢
      split at h
      · next hplain =>
        obtain ⟨given, hgive, hread⟩ := Option.bind_eq_some_iff.mp h
        rw [if_pos hplain, hgive]
        exact ih hwords hread
      · cases h
    | none =>
      cases hplain : isPlainWord word with
      | true =>
        rw [readWords_plain hplain] at h ⊢
        exact ih hwords h
      | false =>
        have hne : word ≠ "--".toList := (List.ne_of_not_mem_cons hdashes).symm
        rw [readWords_option hplain hne] at h ⊢
        cases hstep : options.readOption word with
        | none =>
          rw [hstep] at h
          cases h
        | some step =>
          rw [hstep] at h
          cases step with
          | stop invocation =>
            cases h
            exact absurd hstep readOption_ne_stop_run
          | go next pending => exact ih hwords h

theorem readCommandLine_dashes {words : List Text} (hdashes : "--".toList ∉ words)
    (h : readCommandLine words = some (.run options)) (selectors : List Text) :
    readCommandLine (words ++ "--".toList :: selectors) =
      some (.run (options.addSelectors selectors)) := by
  rw [readCommandLine, readWords_append hdashes h, readWords_dashes]

theorem readCommandLine_file {words : List Text} {name : Text} (hdashes : "--".toList ∉ words)
    (h : readCommandLine words = some (.run options)) (hfile : options.file = none)
    (hname : name ≠ []) (hplain : isPlainWord name = true) :
    readCommandLine (words ++ ["-f".toList, name]) =
      some (.run { options with file := some name }) := by
  have hletter : options.readOption "-f".toList = some (.go options (some .file)) := rfl
  have hgive : options.give .file name = some { options with file := some name } := by
    simp [give, hfile, hname]
  rw [readCommandLine, readWords_append hdashes h, readWords_option rfl (by decide), hletter]
  dsimp only
  rw [readWords_value, if_pos hplain, hgive]
  rfl

end Words

end Options

theorem runCommand_routes {words selectors : List Text} {options : Options} {text : Text}
    (config : Option FileEntry) (hdashes : "--".toList ∉ words)
    (hread : readCommandLine words = some (.run options)) (hnone : options.selectors = [])
    (hfile : options.file = none) (hne : selectors ≠ [])
    (hentries : ∀ s ∈ selectors, IsEntry s) (hjoins : JoinsLines selectors text) :
    ∃ outcome,
      (∀ find input,
        runCommand ⟨find, config, input⟩ (words ++ "--".toList :: selectors) = some outcome) ∧
      (∀ find, runCommand ⟨find, config, Utf8.encode text⟩ words = some outcome) ∧
      ∀ find input name, pathExtension name ≠ some "gz".toList →
        find name = .ok (.file (Utf8.encode text)) →
        (name ≠ [] → Options.isPlainWord name = true →
          runCommand ⟨find, config, input⟩ (words ++ ["-f".toList, name]) = some outcome) ∧
        ∀ fileWords, readCommandLine fileWords = some (.run { options with file := some name }) →
          runCommand ⟨find, config, input⟩ fileWords = some outcome := by
  have htext : selectorsOf text = selectors := hjoins.selectorsOf_eq hentries
  refine ⟨processSelectors (options.settings (Config.ofEntry config)) options.explain selectors,
    fun find input => ?_, fun find => ?_, fun find input name hgz hfind => ?_⟩
  · have hcollect : collectSelectors ⟨find, config, input⟩ (options.addSelectors selectors) =
        .ok selectors := by
      cases selectors with
      | nil => exact absurd rfl hne
      | cons s more => simp [collectSelectors, Options.addSelectors, hfile, hnone]
    have hrun := runCommand_of_collect (Options.readCommandLine_dashes hdashes hread selectors)
      hcollect
    exact hrun
  · have hcollect : collectSelectors ⟨find, config, Utf8.encode text⟩ options = .ok selectors := by
      simp only [collectSelectors, hfile, hnone, loadInput_encode, htext, Except.mapError]
    exact runCommand_of_collect hread hcollect
  · have hcollect : collectSelectors ⟨find, config, input⟩ { options with file := some name } =
        .ok selectors := by
      simp [collectSelectors, hfind, loadFile_encode hgz, hnone, htext]
    have hroute {fileWords : List Text}
        (h : readCommandLine fileWords = some (.run { options with file := some name })) :=
      runCommand_of_collect h hcollect
    exact ⟨fun hname hplain =>
      hroute (Options.readCommandLine_file hdashes hread hfile hname hplain), fun _ => hroute⟩

theorem runCommand_routes_accents :
    ∃ outcome,
      runCommand (.ofTree .empty []) ["-e".toList, "--root=anywhere".toList, "--".toList,
        "ul > é".toList, "-x:hover".toList] = some outcome ∧
      runCommand (.ofTree .empty (Utf8.encode "ul > é\r\n-x:hover".toList))
        ["-e".toList, "--root=anywhere".toList] = some outcome ∧
      runCommand (.ofTree ⟨[(["l".toList], .file (Utf8.encode "ul > é\r\n-x:hover".toList))]⟩ [])
        ["-e".toList, "--root=anywhere".toList, "-f".toList, "l".toList] = some outcome := by
  have hread : readCommandLine ["-e".toList, "--root=anywhere".toList] =
      some (.run ⟨[], none, some .anywhere, none, true, false, false⟩) := by
    decide +kernel
  have hentries : ∀ s ∈ ["ul > é".toList, "-x:hover".toList], IsEntry s := by
    have hall : ∀ s ∈ ["ul > é".toList, "-x:hover".toList],
        s ≠ [] ∧ trim s = s ∧ '\n' ∉ s ∧ isComment s = false := by
      decide +kernel
    intro s hs
    obtain ⟨hne, htrim, hnewline, hcomment⟩ := hall s hs
    exact ⟨hne, htrim, hnewline, hcomment⟩
  have hjoins : JoinsLines ["ul > é".toList, "-x:hover".toList] "ul > é\r\n-x:hover".toList :=
    .carriage (.last _)
  obtain ⟨outcome, hargs, hinput, hfile⟩ :=
    runCommand_routes none (by decide) hread rfl rfl (by decide) hentries hjoins
  refine ⟨outcome, hargs _ _, hinput _, ?_⟩
  exact (hfile _ _ "l".toList (by decide) (by decide +kernel)).1 (by decide) (by decide)

end SelectorXPath
