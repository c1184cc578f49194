import SelectorXPath.Proofs.UnreadablePlaces
import SelectorXPath.XPath.OfSelector

namespace SelectorXPath

def SelectorError.surround (before after : Text) : SelectorError → SelectorError
  | .grammar input position unread =>
    .grammar (before ++ input ++ after) (position + byteSize before) unread
  | e => e

section

variable {w₁ w₂ : Text}

theorem leadingBlanks_surrounded (h₁ : Blanks w₁) {s : Text} (hs : trim s ≠ []) :
    leadingBlanks (w₁ ++ s ++ w₂) = w₁ ++ leadingBlanks s := by
  have hskip : skipBlanks s ≠ [] := fun hnil => hs (by rw [trim, hnil]; rfl)
  have hstart : StartsOff isBlank (skipBlanks s ++ w₂) :=
    (startsOff_append hskip).mpr startsOff_dropWhile
  have hcut : w₁ ++ s ++ w₂ = (w₁ ++ leadingBlanks s) ++ (skipBlanks s ++ w₂) := by
    rw [← List.append_assoc, List.append_assoc w₁ (leadingBlanks s),
      leadingBlanks_append_skipBlanks]
  rw [hcut, leadingBlanks_run (h₁.append (blanks_leadingBlanks s)) hstart]

theorem parseSelector_surrounded (h₁ : Blanks w₁) (h₂ : Blanks w₂) (s : Text) :
    parseSelector (w₁ ++ s ++ w₂) = (parseSelector s).mapError (.surround w₁ w₂) := by
  rw [parseSelector, parseSelector, trim_surrounded h₁ h₂]
  cases hscan : scan false (trim s) with
  | ok fragments => rfl
  | error halt =>
    cases halt with
    | dangling kind => rfl
    | leading kind => rfl
    | unreadable rest =>
      have hne : trim s ≠ [] := by
        intro hnil
        rw [hnil, scan_nil] at hscan
        cases hscan
      simp only [Except.mapError, SelectorError.surround, leadingBlanks_surrounded h₁ hne,
        byteSize_append]
      congr 2
      omega

theorem convert_surrounded (h₁ : Blanks w₁) (h₂ : Blanks w₂) (s : Text) (anchor : Anchor) :
    convert (w₁ ++ s ++ w₂) anchor =
      match parseSelector s with
      | .ok _ => convert s anchor
      | .error e => .error (e.surround w₁ w₂) := by
  rw [convert, convert, PathTree.ofSelector_eq, PathTree.ofSelector_eq,
    parseSelector_surrounded h₁ h₂]
  cases parseSelector s with
  | ok fragments => rfl
  | error e => rfl

end

theorem convert_error_of_parseSelector {s : Text} {e : SelectorError}
    (h : parseSelector s = .error e) (anchor : Anchor) : convert s anchor = .error e := by
  rw [convert, PathTree.ofSelector_eq, h]
  rfl

theorem blanks_around_shift_faults {w₁ w₂ : Text} (h₁ : Blanks w₁) (h₂ : Blanks w₂) (s : Text)
    (anchor : Anchor) :
    (∀ fragments, parseSelector s = .ok fragments →
      parseSelector (w₁ ++ s ++ w₂) = .ok fragments) ∧
    (∀ e, parseSelector s = .error e →
      (∀ input position unread, e ≠ .grammar input position unread) →
      parseSelector (w₁ ++ s ++ w₂) = .error e) ∧
    (∀ input position unread, parseSelector s = .error (.grammar input position unread) →
      input = s ∧ parseSelector (w₁ ++ s ++ w₂) =
        .error (.grammar (w₁ ++ s ++ w₂) (position + byteSize w₁) unread)) ∧
    (∀ x, convert (w₁ ++ s ++ w₂) anchor = .ok x ↔ convert s anchor = .ok x) ∧
    ((∃ fragments, parseSelector s = .ok fragments) →
      convert (w₁ ++ s ++ w₂) anchor = convert s anchor) := by
  have hparse := parseSelector_surrounded h₁ h₂ s
  have hconvert := convert_surrounded h₁ h₂ s anchor
  refine ⟨fun fragments h => ?_, fun e h hother => ?_, fun input position unread h => ?_,
    fun x => ?_, fun ⟨fragments, h⟩ => ?_⟩
  · rw [hparse, h]
    rfl
  · rw [hparse, h]
    cases e with
    | grammar input position unread => exact absurd rfl (hother input position unread)
    | _ => rfl
  · obtain ⟨rest, -, rfl, -⟩ := parseSelector_grammar_inv h
    rw [hparse, h]
    exact ⟨rfl, rfl⟩
  · rw [hconvert]
    cases h : parseSelector s with
    | ok fragments => rfl
    | error e => simp [convert_error_of_parseSelector h]
  · rw [hconvert, h]

theorem blanks_around_shift_faults_wide :
    parseSelector "\t\u3000 é!(.y\u0085".toList =
      .error (.grammar "\t\u3000 é!(.y\u0085".toList 7 "!(".toList) ∧
    convert " \u2003a > b!\u00a0".toList .anywhere = .error (.grammar "b!".toList 1 "!".toList) := by
  have hplain : parseSelector " é!(.y".toList =
      .error (.grammar " é!(.y".toList 3 "!(".toList) := by
    decide +kernel
  have hparse : parseSelector "a > b!".toList =
      .ok [.element "a".toList, .link .child "b!".toList] := by
    decide +kernel
  have hinner : convert "a > b!".toList .anywhere =
      .error (.grammar "b!".toList 1 "!".toList) := by
    decide +kernel
  have hfault := @blanks_around_shift_faults "\t\u3000".toList "\u0085".toList
    (by decide) (by decide) " é!(.y".toList .root
  have hdeep := @blanks_around_shift_faults " \u2003".toList "\u00a0".toList
    (by decide) (by decide) "a > b!".toList .anywhere
  exact ⟨(hfault.2.2.1 _ _ _ hplain).2, (hdeep.2.2.2.2 ⟨_, hparse⟩).trans hinner⟩

end SelectorXPath
