import SelectorXPath.Proofs.Spelling
import SelectorXPath.Selector.Scan

namespace SelectorXPath

open Grammar

variable {t rest r w : Text} {c : Char} {kind : Combinator} {started : Bool}

theorem isBlank_symbol (h : kind ≠ .descendant) : isBlank kind.symbol = false := by
  cases kind <;> first | decide | exact absurd rfl h

theorem ne_symbol_of_solid (hb : isBlank c = false) (hm : isLinkMark c = false)
    (kind : Combinator) : c ≠ kind.symbol := by
  rintro rfl
  cases kind <;> revert hb hm <;> decide

theorem markedLink_run (kind : Combinator) (rest : Text) (hw : Blanks w) (hb : isBlank c = false) :
    markedLink kind (w ++ c :: rest) =
      if c = kind.symbol then some (.link kind (skipBlanks rest), []) else none := by
  have hskip : skipBlanks (w ++ c :: rest) = c :: rest := skipBlanks_run hw (by simpa [StartsOff])
  simp [markedLink, hskip]

theorem blankLink_solid (hb : isBlank c = false) : blankLink (c :: rest) = none := by
  simp [blankLink, leadingBlanks, hb]

theorem firstMatch_solid (hb : isBlank c = false) (hm : isLinkMark c = false) :
    firstMatch (c :: rest) =
      [attributeRule, filterRule, idRule, classRule, elementRule].findSome?
        fun rule => rule (c :: rest) := by
  have hlink (kind : Combinator) : markedLink kind (c :: rest) = none := by
    have h := markedLink_run (w := []) kind rest (by simp [Blanks]) hb
    rwa [List.nil_append, if_neg (ne_symbol_of_solid hb hm kind)] at h
  simp [firstMatch, rules, hlink, blankLink_solid hb, List.findSome?_cons]

theorem elementRule_other (hn : isNameChar c = false) (hs : c ≠ '*') :
    elementRule (c :: rest) = none := by
  simp [elementRule, readName, hn, hs]

theorem firstMatch_bracket (rest : Text) :
    firstMatch ('[' :: rest) = attributeRule ('[' :: rest) := by
  have helement : elementRule ('[' :: rest) = none := elementRule_other (by decide) (by decide)
  rw [firstMatch_solid (by decide) (by decide)]
  cases h : attributeRule ('[' :: rest) with
  | some found => simp [h]
  | none => simp [h, filterRule, idRule, classRule, helement]

theorem firstMatch_colon (rest : Text) :
    firstMatch (':' :: rest) = filterRule (':' :: rest) := by
  have helement : elementRule (':' :: rest) = none := elementRule_other (by decide) (by decide)
  rw [firstMatch_solid (by decide) (by decide)]
  cases h : filterRule (':' :: rest) with
  | some found => simp [h, attributeRule]
  | none => simp [h, attributeRule, idRule, classRule, helement]

theorem firstMatch_hash (rest : Text) : firstMatch ('#' :: rest) = idRule ('#' :: rest) := by
  have helement : elementRule ('#' :: rest) = none := elementRule_other (by decide) (by decide)
  rw [firstMatch_solid (by decide) (by decide)]
  cases h : idRule ('#' :: rest) with
  | some found => simp [h, attributeRule, filterRule]
  | none => simp [h, attributeRule, filterRule, classRule, helement]

theorem firstMatch_dot (rest : Text) : firstMatch ('.' :: rest) = classRule ('.' :: rest) := by
  have helement : elementRule ('.' :: rest) = none := elementRule_other (by decide) (by decide)
  rw [firstMatch_solid (by decide) (by decide)]
  cases h : classRule ('.' :: rest) with
  | some found => simp [h, attributeRule, filterRule, idRule]
  | none => simp [h, attributeRule, filterRule, idRule, helement]

theorem firstMatch_star (rest : Text) :
    firstMatch ('*' :: rest) = some (.element ['*'], rest) := by
  rw [firstMatch_solid (by decide) (by decide)]
  simp [attributeRule, filterRule, idRule, classRule, elementRule]

theorem firstMatch_name (h : isNameChar c = true) :
    firstMatch (c :: rest) = (readName (c :: rest)).map fun r => (.element r.1, r.2) := by
  have hother (d : Char) (hd : isNameChar d = false) : c ≠ d := by
    rintro rfl
    rw [hd] at h
    cases h
  rw [firstMatch_solid (isBlank_eq_false_of_isNameChar h) (isLinkMark_eq_false_of_isNameChar h)]
  have hbracket := hother '[' (by decide)
  have hcolon := hother ':' (by decide)
  have hhash := hother '#' (by decide)
  have hdot := hother '.' (by decide)
  have hstar := hother '*' (by decide)
  cases hn : readName (c :: rest) <;>
    simp [attributeRule, filterRule, idRule, classRule, elementRule, *]

theorem firstMatch_marked (rest : Text) (hk : kind ≠ .descendant) (hw : Blanks w) :
    firstMatch (w ++ kind.symbol :: rest) = some (.link kind (skipBlanks rest), []) := by
  have hrun (other : Combinator) := markedLink_run other rest hw (isBlank_symbol hk)
  -- The marks differ, so the marked rules tried before this one fail.
  cases kind <;> simp_all [firstMatch, rules, Combinator.symbol]

theorem firstMatch_blank (hw : Blanks w) (hne : w ≠ []) (hb : isBlank c = false)
    (hm : isLinkMark c = false) :
    firstMatch (w ++ c :: rest) = some (.link .descendant (c :: rest), []) := by
  have hlink (kind : Combinator) : markedLink kind (w ++ c :: rest) = none := by
    rw [markedLink_run kind rest hw hb, if_neg (ne_symbol_of_solid hb hm kind)]
  have hstart : StartsOff isBlank (c :: rest) := by simpa [StartsOff]
  have hblank : blankLink (w ++ c :: rest) = some (.link .descendant (c :: rest), []) := by
    rw [blankLink, skipBlanks_run hw hstart, leadingBlanks_run hw hstart]
    obtain ⟨b, w, rfl⟩ := List.exists_cons_of_ne_nil hne
    rfl
  obtain ⟨b, w, rfl⟩ := List.exists_cons_of_ne_nil hne
  have hbb : isBlank b = true := hw b (by simp)
  have hother (d : Char) (hd : isBlank d = false) : b ≠ d := by
    rintro rfl
    rw [hd] at hbb
    cases hbb
  have hbracket := hother '[' (by decide)
  have hcolon := hother ':' (by decide)
  have hhash := hother '#' (by decide)
  have hdot := hother '.' (by decide)
  have helement : elementRule (b :: w ++ c :: rest) = none :=
    elementRule_other (isNameChar_eq_false_of_isBlank hbb) (hother '*' (by decide))
  simp_all [firstMatch, rules, attributeRule, filterRule, idRule, classRule]

theorem firstMatch_nil : firstMatch [] = none := by
  simp [firstMatch, rules, markedLink, blankLink, skipBlanks, leadingBlanks, attributeRule,
    filterRule, idRule, classRule, elementRule, readName]

section Steps

variable {fragment : Fragment} {fragments : List Fragment}

theorem scan_nil : scan started [] = .ok [] := by
  rw [scan]
  split <;> simp_all [firstMatch_nil]

theorem scan_fragment (h : firstMatch t = some (fragment, rest)) (hf : fragment.isLink = false) :
    scan started t =
      match scan true rest with
      | .ok more => .ok (fragment :: more)
      | .error halt => .error halt := by
  rw [scan]
  split
  · simp_all
  · next kind remainder after hmatch =>
    rw [h] at hmatch
    cases hmatch
    cases hf
  · next other after hlink hmatch =>
    rw [h] at hmatch
    cases hmatch
    rfl

theorem scan_link (h : firstMatch t = some (.link kind r, rest)) (hr : r ≠ []) :
    scan true t = .ok [.link kind r] := by
  rw [scan]
  split
  · simp_all
  · next other remainder after hmatch =>
    rw [h] at hmatch
    cases hmatch
    simp [hr]
  · next other after hlink hmatch =>
    rw [h] at hmatch
    cases hmatch
    exact absurd rfl (hlink kind r)

theorem scan_ok_cases (h : scan started t = .ok fragments) :
    (t = [] ∧ fragments = []) ∨
    (∃ kind r rest, firstMatch t = some (.link kind r, rest) ∧ r ≠ [] ∧ started = true ∧
      fragments = [.link kind r]) ∨
    (∃ fragment rest more, firstMatch t = some (fragment, rest) ∧ fragment.isLink = false ∧
      scan true rest = .ok more ∧ fragments = fragment :: more) := by
  rw [scan] at h
  split at h
  · split at h
    · next ht => cases h; exact .inl ⟨ht, rfl⟩
    · cases h
  · next kind r rest hmatch =>
    split at h
    · cases h
    · next hr =>
      split at h
      · next hs => cases h; exact .inr (.inl ⟨kind, r, rest, hmatch, hr, hs, rfl⟩)
      · cases h
  · next fragment rest hlink hmatch =>
    split at h
    · next more hmore =>
      cases h
      refine .inr (.inr ⟨fragment, rest, more, hmatch, ?_, hmore, rfl⟩)
      cases fragment with
      | link kind r => exact absurd rfl (hlink kind r)
      | _ => rfl
    · cases h

end Steps

end SelectorXPath
