import Mathlib.Data.List.Infix
import SelectorXPath.Proofs.StringValues

namespace SelectorXPath

def isXmlSpace (c : Char) : Bool := c == ' ' || c == '\t' || c == '\r' || c == '\n'

def stripSpaces (t : Text) : Text := (t.dropWhile isXmlSpace).rdropWhile isXmlSpace

def spaceOut (c : Char) : Char := if isXmlSpace c then ' ' else c

def collapseSpaces : Text → Text
  | [] => []
  | [c] => [spaceOut c]
  | c :: d :: t =>
    if isXmlSpace c && isXmlSpace d then collapseSpaces (d :: t)
    else spaceOut c :: collapseSpaces (d :: t)

inductive StringFunction where
  | concat
  | normalizeSpace
  | contains
deriving DecidableEq, Repr

def StringFunction.name : StringFunction → Text
  | .concat => "concat".toList
  | .normalizeSpace => "normalize-space".toList
  | .contains => "contains".toList

def callText (function : StringFunction) (arguments : List Text) : Text :=
  function.name ++ '(' :: (joinWith ", ".toList arguments ++ [')'])

theorem callText_reads {α : Type} {valid : α → Prop} {write : α → Text}
    (h : ReadsUniquely valid (StartsOff isNameChar) write) (function : StringFunction) :
    ReadsUniquely (fun xs : List α => xs ≠ [] ∧ ∀ x ∈ xs, valid x) (fun _ => True)
      (fun xs => callText function (xs.map write)) := by
  intro xs ys r s hxs hys _ _ heq
  simp only [callText, List.append_assoc, List.cons_append, List.append_cancel_left_eq,
    List.cons.injEq, true_and] at heq
  have hrow := @ReadsUniquely.row _ _ _ _ h ',' ')' [' '] (by decide)
    (fun _ => startsOff_cons (by decide) _) (fun _ => startsOff_cons (by decide) _)
  exact hrow xs ys r s hxs hys trivial trivial (by simpa using heq)

inductive StringTerm where
  | literal (l : StringLiteral)
  | attr (name : Text) (named : IsName name)
  | concat (first second : StringTerm) (more : List StringTerm)
  | normalizeSpace (argument : StringTerm)

abbrev Element := Text → Option Text

namespace StringTerm

mutual

def text : StringTerm → Text
  | .literal l => l.text
  | .attr name _ => '@' :: name
  | .concat first second more => callText .concat (first.text :: second.text :: texts more)
  | .normalizeSpace argument => callText .normalizeSpace [argument.text]

def texts : List StringTerm → List Text
  | [] => []
  | term :: more => term.text :: texts more

end

mutual

def value (element : Element) : StringTerm → Text
  | .literal l => l.content
  | .attr name _ => (element name).getD []
  | .concat first second more => value element first ++ value element second ++ values element more
  | .normalizeSpace argument => collapseSpaces (stripSpaces (value element argument))

def values (element : Element) : List StringTerm → Text
  | [] => []
  | term :: more => value element term ++ values element more

end

theorem texts_eq_map (terms : List StringTerm) : texts terms = terms.map text := by
  induction terms with
  | nil => rw [texts, List.map_nil]
  | cons term more ih => rw [texts, ih, List.map_cons]

theorem text_literal (l : StringLiteral) : (literal l).text = l.text := by rw [text]

theorem text_attr (name : Text) (named : IsName name) : (attr name named).text = '@' :: name := by
  rw [text]

theorem text_concat (first second : StringTerm) (more : List StringTerm) :
    (concat first second more).text = callText .concat ((first :: second :: more).map text) := by
  rw [text, texts_eq_map, List.map_cons, List.map_cons]

theorem text_normalizeSpace (argument : StringTerm) :
    argument.normalizeSpace.text = callText .normalizeSpace ([argument].map text) := by
  rw [text, List.map_singleton]

def opening : StringTerm → Char
  | .literal l => l.delimiter.mark
  | .attr _ _ => '@'
  | .concat _ _ _ => 'c'
  | .normalizeSpace _ => 'n'

theorem exists_text_eq_cons (term : StringTerm) : ∃ t, term.text = term.opening :: t := by
  cases term with
  | literal l => exact ⟨_, text_literal l⟩
  | attr name named => exact ⟨_, text_attr name named⟩
  | concat first second more => exact ⟨_, text_concat first second more⟩
  | normalizeSpace argument => exact ⟨_, text_normalizeSpace argument⟩

theorem opening_eq {a b : StringTerm} {r s : Text} (h : a.text ++ r = b.text ++ s) :
    a.opening = b.opening := by
  obtain ⟨t, ht⟩ := a.exists_text_eq_cons
  obtain ⟨u, hu⟩ := b.exists_text_eq_cons
  rw [ht, hu] at h
  exact (List.cons.inj h).1

theorem sizeOf_lt_of_mem_arguments {first second term : StringTerm} {more : List StringTerm}
    (h : term ∈ first :: second :: more) : sizeOf term < sizeOf (concat first second more) := by
  rw [concat.sizeOf_spec]
  rcases List.mem_cons.mp h with rfl | h
  · omega
  · rcases List.mem_cons.mp h with rfl | h
    · omega
    · have hmore := List.sizeOf_lt_of_mem h
      omega

-- By size, as the arguments of a concatenation stand in a list.
theorem text_reads_within (n : Nat) :
    ReadsUniquely (fun term : StringTerm => sizeOf term < n) (StartsOff isNameChar) text := by
  induction n with
  | zero => exact fun a b r s ha => absurd ha (Nat.not_lt_zero _)
  | succ n ih =>
    intro a b r s ha hb hr hs h
    have hopening := opening_eq h
    cases a with
    | literal l =>
      cases b with
      | literal m =>
        rw [text_literal, text_literal] at h
        obtain ⟨rfl, hrest⟩ := StringLiteral.text_reads l m r s trivial trivial trivial trivial h
        exact ⟨rfl, hrest⟩
      | _ => exact absurd hopening (Quote.mark_ne rfl)
    | attr name named =>
      cases b with
      | attr other others =>
        rw [text_attr, text_attr] at h
        obtain ⟨rfl, hrest⟩ := name_reads name other r s named others hr hs (List.cons.inj h).2
        exact ⟨rfl, hrest⟩
      | literal m => exact absurd hopening.symm (Quote.mark_ne rfl)
      | _ => simp [opening] at hopening
    | concat first second more =>
      cases b with
      | concat first' second' more' =>
        have hsmall {first second : StringTerm} {more : List StringTerm}
            (hsize : sizeOf (concat first second more) < n + 1) :
            ∀ term ∈ first :: second :: more, sizeOf term < n := fun term hmem =>
          Nat.lt_of_lt_of_le (sizeOf_lt_of_mem_arguments hmem) (Nat.le_of_lt_succ hsize)
        rw [text_concat, text_concat] at h
        obtain ⟨harguments, hrest⟩ := callText_reads ih .concat _ _ r s ⟨by simp, hsmall ha⟩
          ⟨by simp, hsmall hb⟩ trivial trivial h
        cases harguments
        exact ⟨rfl, hrest⟩
      | literal m => exact absurd hopening.symm (Quote.mark_ne rfl)
      | _ => simp [opening] at hopening
    | normalizeSpace argument =>
      cases b with
      | normalizeSpace other =>
        rw [normalizeSpace.sizeOf_spec] at ha hb
        rw [text_normalizeSpace, text_normalizeSpace] at h
        obtain ⟨harguments, hrest⟩ := callText_reads ih .normalizeSpace [argument] [other] r s
          ⟨by simp, by simp; omega⟩ ⟨by simp, by simp; omega⟩ trivial trivial h
        cases harguments
        exact ⟨rfl, hrest⟩
      | literal m => exact absurd hopening.symm (Quote.mark_ne rfl)
      | _ => simp [opening] at hopening

theorem text_reads :
    ReadsUniquely (fun _ : StringTerm => True) (StartsOff isNameChar) text := by
  intro a b r s _ _ hr hs h
  exact text_reads_within (sizeOf a + sizeOf b + 1) a b r s (by omega) (by omega) hr hs h

end StringTerm

structure ContainsTest where
  whole : StringTerm
  part : StringTerm

namespace ContainsTest

def text (test : ContainsTest) : Text :=
  callText .contains ([test.whole, test.part].map StringTerm.text)

def holds (test : ContainsTest) (element : Element) : Bool :=
  decide (test.part.value element <:+: test.whole.value element)

theorem text_inj {a b : ContainsTest} (h : a.text = b.text) : a = b := by
  obtain ⟨whole, part⟩ := a
  obtain ⟨whole', part'⟩ := b
  obtain ⟨harguments, -⟩ := callText_reads StringTerm.text_reads .contains [whole, part]
    [whole', part'] [] [] ⟨by simp, by simp⟩ ⟨by simp, by simp⟩ trivial trivial
    (congrArg (· ++ []) h)
  cases harguments
  rfl

end ContainsTest

end SelectorXPath
