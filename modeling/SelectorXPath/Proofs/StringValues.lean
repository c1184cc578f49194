import SelectorXPath.Proofs.Spelling
import SelectorXPath.Proofs.UniqueReading

namespace SelectorXPath

structure StringLiteral where
  delimiter : Quote
  content : Text
  closed : delimiter.mark ∉ content

def StringLiteral.text (l : StringLiteral) : Text := l.delimiter.around l.content

inductive StringExpression where
  | single (l : StringLiteral)
  | concat (arguments : List StringLiteral) (several : 2 ≤ arguments.length)

namespace StringExpression

def text : StringExpression → Text
  | .single l => l.text
  | .concat arguments _ =>
    "concat(".toList ++ joinWith ", ".toList (arguments.map StringLiteral.text) ++ [')']

def value : StringExpression → Text
  | .single l => l.content
  | .concat arguments _ => arguments.flatMap StringLiteral.content

theorem text_concat (arguments : List StringLiteral) (several : 2 ≤ arguments.length) :
    (concat arguments several).text =
      "concat(".toList ++ (joinWith ", ".toList (arguments.map StringLiteral.text) ++ [')']) :=
  rfl

end StringExpression

theorem StringLiteral.text_reads :
    ReadsUniquely (fun _ : StringLiteral => True) (fun _ => True) StringLiteral.text := by
  rintro ⟨p, a, ha⟩ ⟨q, b, hb⟩ r s - - - - h
  obtain rfl : p = q := by
    have hmark : p.mark = q.mark := (List.cons.inj h).1
    revert hmark
    cases p <;> cases q <;> decide
  obtain ⟨rfl, hrest⟩ := readsUniquely_enclosed p.mark a b r s ha hb trivial trivial h
  exact ⟨rfl, hrest⟩

theorem StringLiteral.text_ne_concat (l : StringLiteral) (t : Text) :
    l.text ≠ "concat(".toList ++ t := by
  obtain ⟨q, content, -⟩ := l
  cases q <;> simp [StringLiteral.text, Quote.around, Quote.mark]

theorem StringExpression.text_inj {a b : StringExpression} (h : a.text = b.text) : a = b := by
  cases a with
  | single l =>
    cases b with
    | single m =>
      obtain ⟨rfl, -⟩ := StringLiteral.text_reads l m [] [] trivial trivial trivial trivial
        (congrArg (· ++ []) h)
      rfl
    | concat arguments several => exact absurd h (l.text_ne_concat _)
  | concat arguments several =>
    cases b with
    | single m => exact absurd h.symm (m.text_ne_concat _)
    | concat others several' =>
      have hrow := @ReadsUniquely.row _ _ _ _ StringLiteral.text_reads ',' ')' [' '] (by decide)
        (fun _ => trivial) (fun _ => trivial)
      have hne {xs : List StringLiteral} (hxs : 2 ≤ xs.length) : xs ≠ [] := by
        rintro rfl
        simp at hxs
      rw [text_concat, text_concat] at h
      obtain ⟨rfl, -⟩ := hrow arguments others [] [] ⟨hne several, fun _ _ => trivial⟩
        ⟨hne several', fun _ _ => trivial⟩ trivial trivial
        (congrArg (· ++ []) (List.append_cancel_left h))
      rfl

def singleQuoteLiteral : StringLiteral := ⟨.double, ['\''], by decide⟩

theorem exists_arguments {pieces : List Text} (h : ∀ piece ∈ pieces, '\'' ∉ piece) :
    ∃ arguments : List StringLiteral,
      joinWith ", ".toList (arguments.map StringLiteral.text) =
        joinWith ", \"'\", ".toList (pieces.map singleQuoted) ∧
      arguments.flatMap StringLiteral.content = joinWith ['\''] pieces ∧
      pieces.length ≤ arguments.length := by
  induction pieces with
  | nil => exact ⟨[], rfl, rfl, le_rfl⟩
  | cons piece more ih =>
    obtain ⟨hpiece, hmore⟩ := List.forall_mem_cons.mp h
    obtain ⟨arguments, htext, hvalue, hlength⟩ := ih hmore
    cases more with
    | nil => exact ⟨[⟨.single, piece, hpiece⟩], rfl, by simp [joinWith], by simp⟩
    | cons next more =>
      obtain ⟨x, arguments, rfl⟩ := List.exists_cons_of_length_pos
        (Nat.lt_of_lt_of_le (Nat.succ_pos _) hlength)
      refine ⟨⟨.single, piece, hpiece⟩ :: singleQuoteLiteral :: x :: arguments, ?_, ?_, ?_⟩
      · calc
          _ = singleQuoted piece ++ ", ".toList ++ (singleQuoteLiteral.text ++ ", ".toList ++
                joinWith ", ".toList ((x :: arguments).map StringLiteral.text)) := rfl
          _ = singleQuoted piece ++ (", ".toList ++ singleQuoteLiteral.text ++ ", ".toList) ++
                joinWith ", \"'\", ".toList ((next :: more).map singleQuoted) := by
            simp only [htext, List.append_assoc]
      · rw [List.flatMap_cons, List.flatMap_cons, hvalue]
        simp [singleQuoteLiteral, joinWith]
      · simp only [List.length_cons] at hlength ⊢
        omega

theorem two_le_length_splitOnChar {mark : Char} {t : Text} (h : mark ∈ t) :
    2 ≤ (splitOnChar mark t).length := by
  have hjoin := joinWith_splitOnChar mark t
  cases hsplit : splitOnChar mark t with
  | nil => exact absurd hsplit (splitOnChar_ne_nil mark t)
  | cons piece more =>
    cases more with
    | nil =>
      rw [hsplit] at hjoin
      have hpiece : mark ∉ piece := not_mem_of_mem_splitOnChar (t := t) (by simp [hsplit])
      rw [← hjoin] at h
      exact absurd h hpiece
    | cons next more => simp

theorem exists_expression (t : Text) : ∃ e : StringExpression, e.text = literal t ∧ e.value = t := by
  by_cases hsingle : '\'' ∈ t
  · by_cases hdouble : '"' ∈ t
    · obtain ⟨arguments, htext, hvalue, hlength⟩ :=
        exists_arguments fun _ => not_mem_of_mem_splitOnChar (q := '\'') (t := t)
      refine ⟨.concat arguments ((two_le_length_splitOnChar hsingle).trans hlength), ?_, ?_⟩
      · rw [StringExpression.text_concat, htext]
        simp [literal, hsingle, hdouble]
      · exact hvalue.trans (joinWith_splitOnChar '\'' t)
    · exact ⟨.single ⟨.double, t, hdouble⟩, by simp [literal, hsingle, hdouble]; rfl, rfl⟩
  · exact ⟨.single ⟨.single, t, hsingle⟩, by simp [literal, hsingle]; rfl, rfl⟩

theorem literal_denotes (t : Text) :
    ∃ e : StringExpression, e.value = t ∧
      ∀ other : StringExpression, other.text = literal t ↔ other = e := by
  obtain ⟨e, htext, hvalue⟩ := exists_expression t
  refine ⟨e, hvalue, fun other => ⟨fun h => StringExpression.text_inj (h.trans htext.symm), ?_⟩⟩
  rintro rfl
  exact htext

end SelectorXPath
