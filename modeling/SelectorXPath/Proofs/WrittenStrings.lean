import SelectorXPath.Proofs.SettingLines
import SelectorXPath.Proofs.Spelling

namespace SelectorXPath

namespace Toml

def shortEscapes : List (Char × Char) :=
  [('"', '"'), ('\\', '\\'), ('b', '\x08'), ('t', '\t'), ('n', '\n'), ('f', '\x0c'), ('r', '\r')]

inductive SpellsChar : Quote → Char → Text → Prop
  | plain {q c} : isPlain c = true → c ≠ q.mark → (q = .double → c ≠ '\\') → SpellsChar q c [c]
  | short {mark c} : (mark, c) ∈ shortEscapes → SpellsChar .double c ['\\', mark]
  | code {letter digits c} : (letter, digits.length) ∈ [('u', 4), ('U', 8)] →
      (∀ d ∈ digits, isHexadecimal d = true) → numberOf 16 digits = c.toNat →
      SpellsChar .double c ('\\' :: letter :: digits)

inductive SpellsBody (q : Quote) : Text → Text → Prop
  | nil : SpellsBody q [] []
  | cons {c t span body} : SpellsChar q c span → SpellsBody q t body →
      SpellsBody q (c :: t) (span ++ body)

inductive SpellsLongBody (q : Quote) : Text → Text → Prop
  | last {n} : n ≤ 2 → SpellsLongBody q (List.replicate n q.mark) (List.replicate n q.mark)
  | more {n c t span body} : n ≤ 2 → SpellsChar q c span → SpellsLongBody q t body →
      SpellsLongBody q (List.replicate n q.mark ++ c :: t)
        (List.replicate n q.mark ++ (span ++ body))

inductive SpellsString : Text → Text → Prop
  | short {q t body} : SpellsBody q t body → SpellsString t (q.around body)
  | long {q t body} : SpellsLongBody q t body →
      SpellsString t (q.mark :: q.mark :: q.mark :: (body ++ [q.mark, q.mark, q.mark]))

def readBody : Quote → Text → Option (Text × Text)
  | .single => readLiteral
  | .double => readBasic

def readLongBody : Quote → Text → Option (Text × Text)
  | .single => readMultiLiteral
  | .double => readMultiBasic

section Escapes

variable {digits : Text} {c : Char}

theorem hexNumber_eq (h : ∀ d ∈ digits, isHexadecimal d = true) :
    hexNumber digits = some (numberOf 16 digits) := by
  suffices hfrom : ∀ n, digits.foldl
      (fun n c => n.bind fun n => (hexValue c).map fun d => 16 * n + d) (some n) =
        some (digits.foldl (fun n c => 16 * n + (hexValue c).getD 0) n) from hfrom 0
  induction digits with
  | nil => exact fun n => rfl
  | cons d digits ih =>
    obtain ⟨hd, hmore⟩ := List.forall_mem_cons.mp h
    obtain ⟨v, hv⟩ := Option.isSome_iff_exists.mp hd
    intro n
    simp only [List.foldl_cons, hv, Option.bind_some, Option.map_some, Option.getD_some]
    exact ih hmore _

theorem scalarOf_eq (h : ∀ d ∈ digits, isHexadecimal d = true)
    (hc : numberOf 16 digits = c.toNat) : scalarOf digits = some c := by
  have hvalid : c.toNat.isValidChar := c.valid
  rw [scalarOf, hexNumber_eq h, hc]
  simp [hvalid]

theorem readEscape_short {mark : Char} (h : (mark, c) ∈ shortEscapes) (rest : Text) :
    readEscape (mark :: rest) = some (c, rest) := by
  simp only [shortEscapes, List.mem_cons, Prod.mk.injEq, List.not_mem_nil, or_false] at h
  rcases h with ⟨rfl, rfl⟩ | ⟨rfl, rfl⟩ | ⟨rfl, rfl⟩ | ⟨rfl, rfl⟩ | ⟨rfl, rfl⟩ | ⟨rfl, rfl⟩ |
    ⟨rfl, rfl⟩ <;> rfl

theorem readEscape_code {letter : Char} (hsize : (letter, digits.length) ∈ [('u', 4), ('U', 8)])
    (h : ∀ d ∈ digits, isHexadecimal d = true) (hc : numberOf 16 digits = c.toNat) (rest : Text) :
    readEscape (letter :: (digits ++ rest)) = some (c, rest) := by
  have hscalar := scalarOf_eq h hc
  simp only [List.mem_cons, Prod.mk.injEq, List.not_mem_nil, or_false] at hsize
  rcases hsize with ⟨rfl, hlength⟩ | ⟨rfl, hlength⟩
  · match digits, hlength with
    | [a, b, c, d], _ => simp [readEscape, hscalar]
  · match digits, hlength with
    | [a, b, c, d, e, f, g, h], _ => simp [readEscape, hscalar]

theorem SpellsChar.plain_or_escape {q : Quote} {span : Text} (h : SpellsChar q c span) :
    (span = [c] ∧ isPlain c = true ∧ c ≠ q.mark ∧ (q = .double → c ≠ '\\')) ∨
      q = .double ∧ ∃ letter more, span = '\\' :: letter :: more ∧
        isSpace letter = false ∧ letter ≠ '\n' ∧ letter ≠ '\r' ∧
        ∀ rest, readEscape (letter :: (more ++ rest)) = some (c, rest) := by
  cases h with
  | plain hplain hmark hslash => exact .inl ⟨rfl, hplain, hmark, hslash⟩
  | @short mark c h =>
    refine .inr ⟨rfl, mark, [], rfl, ?_, ?_, ?_, readEscape_short h⟩
    all_goals
      simp only [shortEscapes, List.mem_cons, Prod.mk.injEq, List.not_mem_nil, or_false] at h
      rcases h with ⟨rfl, -⟩ | ⟨rfl, -⟩ | ⟨rfl, -⟩ | ⟨rfl, -⟩ | ⟨rfl, -⟩ | ⟨rfl, -⟩ | ⟨rfl, -⟩ <;>
        decide
  | @code letter digits c hsize hdigits hc =>
    refine .inr ⟨rfl, letter, digits, rfl, ?_, ?_, ?_, readEscape_code hsize hdigits hc⟩
    all_goals
      simp only [List.mem_cons, Prod.mk.injEq, List.not_mem_nil, or_false] at hsize
      rcases hsize with ⟨rfl, -⟩ | ⟨rfl, -⟩ <;> decide

end Escapes

section Bodies

variable {q : Quote} {c : Char} {span t body rest : Text}

theorem SpellsChar.exists_cons (h : SpellsChar q c span) :
    ∃ d more, span = d :: more ∧ d ≠ q.mark ∧ d ≠ '\n' ∧ d ≠ '\r' := by
  rcases h.plain_or_escape with ⟨rfl, hplain, hmark, -⟩ | ⟨rfl, letter, more, rfl, -⟩
  · refine ⟨c, [], rfl, hmark, ?_, ?_⟩
    · rintro rfl
      cases hplain
    · rintro rfl
      cases hplain
  · exact ⟨'\\', letter :: more, rfl, by decide, by decide, by decide⟩

theorem readBasic_escape (h : readEscape t = some (c, rest)) :
    readBasic ('\\' :: t) = (readBasic rest).map fun r => (c :: r.1, r.2) := by
  rw [readBasic, if_neg (by decide), if_pos rfl]
  split
  · next hnone => cases hnone.symm.trans h
  · next hsome =>
    cases hsome.symm.trans h
    rfl

theorem readBody_char (h : SpellsChar q c span) (t : Text) :
    readBody q (span ++ t) = (readBody q t).map fun r => (c :: r.1, r.2) := by
  rcases h.plain_or_escape with
    ⟨rfl, hplain, hmark, hslash⟩ | ⟨rfl, letter, more, rfl, -, -, -, hread⟩
  · cases q with
    | single =>
      have hquote : c ≠ '\'' := hmark
      rw [readBody, List.singleton_append, readLiteral, if_neg hquote, if_pos hplain]
    | double =>
      have hquote : c ≠ '"' := hmark
      rw [readBody, List.singleton_append, readBasic, if_neg hquote, if_neg (hslash rfl),
        if_pos hplain]
  · exact readBasic_escape (hread t)

theorem readBody_close (q : Quote) (rest : Text) :
    readBody q (q.mark :: rest) = some ([], rest) := by
  cases q with
  | single => rfl
  | double => rw [readBody, Quote.mark, readBasic, if_pos rfl]

theorem SpellsBody.readBody_append (h : SpellsBody q t body) (rest : Text) :
    readBody q (body ++ q.mark :: rest) = some (t, rest) := by
  induction h with
  | nil => exact readBody_close q rest
  | cons hc _ ih => rw [List.append_assoc, readBody_char hc, ih, Option.map_some]

theorem readMultiBasic_escape (h : readFold t = some ([c], rest)) :
    readMultiBasic ('\\' :: t) = (readMultiBasic rest).map fun r => (c :: r.1, r.2) := by
  rw [readMultiBasic, if_neg (by decide), if_pos rfl]
  · split
    · next hnone => cases hnone.symm.trans h
    · next hsome =>
      cases hsome.symm.trans h
      rfl
  · exact fun _ hc => absurd hc (by decide)

theorem readLongBody_char (h : SpellsChar q c span) (t : Text) :
    readLongBody q (span ++ t) = (readLongBody q t).map fun r => (c :: r.1, r.2) := by
  rcases h.plain_or_escape with
    ⟨rfl, hplain, hmark, hslash⟩ | ⟨rfl, letter, more, rfl, hspace, hfeed, hreturn, hread⟩
  · have hreturn : c ≠ '\r' := by
      rintro rfl
      cases hplain
    have hline : (isPlain c || c == '\n') = true := by rw [hplain, Bool.true_or]
    cases q with
    | single =>
      have hquote : c ≠ '\'' := hmark
      rw [readLongBody, List.singleton_append, readMultiLiteral, if_neg hquote, if_pos hline]
      exact fun _ hc => absurd hc hreturn
    | double =>
      have hquote : c ≠ '"' := hmark
      rw [readLongBody, List.singleton_append, readMultiBasic, if_neg hquote, if_neg (hslash rfl),
        if_pos hline]
      exact fun _ hc => absurd hc hreturn
  · have hskip : skipSpaces (letter :: (more ++ t)) = letter :: (more ++ t) :=
      skipSpaces_run (w := []) (by simp [Spaces]) (startsOff_cons hspace _)
    have hfold : readFold (letter :: (more ++ t)) = some ([c], t) := by
      rw [readFold, hskip, hread]
      simp [readNewline, hfeed, hreturn]
    exact readMultiBasic_escape hfold

theorem readLongBody_mark (h : startsWithTwo q.mark t = false) :
    readLongBody q (q.mark :: t) = (readLongBody q t).map fun r => (q.mark :: r.1, r.2) := by
  cases q with
  | single =>
    have hone : startsWithTwo '\'' t = false := h
    rw [readLongBody, Quote.mark, readMultiLiteral, if_pos rfl, hone, if_neg (by decide)]
    exact fun _ hc => absurd hc (by decide)
  | double =>
    have hone : startsWithTwo '"' t = false := h
    rw [readLongBody, Quote.mark, readMultiBasic, if_pos rfl, hone, if_neg (by decide)]
    exact fun _ hc => absurd hc (by decide)

theorem readLongBody_close (q : Quote) (t : Text) :
    readLongBody q (q.mark :: q.mark :: q.mark :: t) = some (closeMulti q.mark t) := by
  cases q with
  | single => rfl
  | double =>
    have htwo : startsWithTwo '"' ('"' :: '"' :: t) = true := rfl
    rw [readLongBody, Quote.mark, readMultiBasic, if_pos rfl, if_pos htwo]
    · rfl
    · exact fun _ hc => absurd hc (by decide)

theorem startsWithTwo_eq_false {d : Char} (hd : d ≠ q.mark) :
    startsWithTwo q.mark (d :: t) = false ∧ startsWithTwo q.mark (q.mark :: d :: t) = false := by
  constructor
  · cases t <;> simp [startsWithTwo, hd]
  · simp [startsWithTwo, hd]

theorem readLongBody_marks {n : Nat} {d : Char} (hn : n ≤ 2) (hd : d ≠ q.mark) :
    readLongBody q (List.replicate n q.mark ++ d :: t) =
      (readLongBody q (d :: t)).map fun r => (List.replicate n q.mark ++ r.1, r.2) := by
  obtain ⟨hone, htwo⟩ := startsWithTwo_eq_false (t := t) hd
  match n, hn with
  | 0, _ => simp
  | 1, _ => exact readLongBody_mark hone
  | 2, _ =>
    have hfirst := readLongBody_mark htwo
    rw [readLongBody_mark hone, Option.map_map] at hfirst
    exact hfirst

theorem closeMulti_marks {n : Nat} (hn : n ≤ 2) (hrest : rest.head? ≠ some q.mark) :
    closeMulti q.mark (List.replicate n q.mark ++ rest) = (List.replicate n q.mark, rest) := by
  match n, hn with
  | 0, _ =>
    match rest with
    | [] => rfl
    | [a] => simp_all [closeMulti]
    | a :: b :: rest => simp_all [closeMulti]
  | 1, _ =>
    match rest with
    | [] => simp [closeMulti]
    | a :: rest => simp_all [closeMulti]
  | 2, _ => simp [closeMulti]

theorem SpellsLongBody.readLongBody_append (h : SpellsLongBody q t body)
    (hrest : rest.head? ≠ some q.mark) :
    readLongBody q (body ++ q.mark :: q.mark :: q.mark :: rest) = some (t, rest) := by
  induction h with
  | @last n hn =>
    have hmarks : List.replicate n q.mark ++ q.mark :: q.mark :: q.mark :: rest =
        q.mark :: q.mark :: q.mark :: (List.replicate n q.mark ++ rest) := by
      match n, hn with
      | 0, _ => rfl
      | 1, _ => rfl
      | 2, _ => rfl
    rw [hmarks, readLongBody_close, closeMulti_marks hn hrest]
  | more hn hc _ ih =>
    have hstep := readLongBody_char hc
    obtain ⟨d, more, rfl, hd, -⟩ := hc.exists_cons
    simp only [List.append_assoc]
    rw [List.cons_append, readLongBody_marks hn hd, ← List.cons_append, hstep, ih]
    rfl

end Bodies

def valueEnds : List Char := [' ', '\t', '#', '\r', '\n']

def EndsValue (rest : Text) : Prop := ∀ c ∈ rest.head?, c ∈ valueEnds

section Strings

variable {q : Quote} {s t body rest : Text}

theorem EndsValue.startsOff (h : EndsValue rest) {p : Char → Bool}
    (hp : valueEnds.any p = false) : StartsOff p rest := by
  intro c hc
  rw [List.any_eq_false] at hp
  exact Bool.eq_false_iff.mpr (hp c (h c hc))

theorem EndsValue.head?_ne_mark (h : EndsValue rest) (q : Quote) : rest.head? ≠ some q.mark := by
  intro hmark
  have hmem := h q.mark hmark
  cases q <;> exact absurd hmem (by decide)

theorem readString_short (h : ∀ v, t ≠ q.mark :: q.mark :: v) :
    readString (q.mark :: t) = readBody q t := by
  cases q with
  | single =>
    rw [Quote.mark, readString, readBody]
    exact h
  | double =>
    rw [Quote.mark, readString, readBody]
    exact h

theorem readString_long (h : readNewline t = none) :
    readString (q.mark :: q.mark :: q.mark :: t) = readLongBody q t := by
  have hdrop : dropFirstNewline t = t := by rw [dropFirstNewline, h, Option.getD_none]
  cases q with
  | single => rw [Quote.mark, readString, readLongBody, hdrop]
  | double => rw [Quote.mark, readString, readLongBody, hdrop]

theorem SpellsBody.append_ne (h : SpellsBody q t body) (hrest : rest.head? ≠ some q.mark)
    (v : Text) : body ++ q.mark :: rest ≠ q.mark :: q.mark :: v := by
  intro heq
  cases h with
  | nil => simp_all
  | cons hc _ =>
    obtain ⟨d, more, rfl, hd, -⟩ := hc.exists_cons
    exact hd (List.cons.inj heq).1

theorem readNewline_eq_none {d : Char} (hfeed : d ≠ '\n') (hreturn : d ≠ '\r') (t : Text) :
    readNewline (d :: t) = none := by
  simp [readNewline, hfeed, hreturn]

theorem SpellsLongBody.readNewline_append (h : SpellsLongBody q t body) (rest : Text) :
    readNewline (body ++ q.mark :: rest) = none := by
  have hmark (u : Text) : readNewline (q.mark :: u) = none :=
    readNewline_eq_none (by cases q <;> decide) (by cases q <;> decide) u
  cases h with
  | @last n hn =>
    cases n with
    | zero => exact hmark rest
    | succ n => exact hmark _
  | @more n c t span body hn hc _ =>
    cases n with
    | zero =>
      obtain ⟨d, more, rfl, -, hfeed, hreturn⟩ := hc.exists_cons
      exact readNewline_eq_none hfeed hreturn _
    | succ n => exact hmark _

theorem SpellsString.readString_append (h : SpellsString t s) (hrest : EndsValue rest) :
    readString (s ++ rest) = some (t, rest) := by
  cases h with
  | @short q t body hbody =>
    have hmark := hrest.head?_ne_mark q
    have htext : q.around body ++ rest = q.mark :: (body ++ q.mark :: rest) := by
      simp [Quote.around]
    rw [htext, readString_short (hbody.append_ne hmark), hbody.readBody_append]
  | @long q t body hbody =>
    have htext : q.mark :: q.mark :: q.mark :: (body ++ [q.mark, q.mark, q.mark]) ++ rest =
        q.mark :: q.mark :: q.mark :: (body ++ q.mark :: q.mark :: q.mark :: rest) := by
      simp
    rw [htext, readString_long (hbody.readNewline_append _),
      hbody.readLongBody_append (hrest.head?_ne_mark q)]

theorem SpellsString.exists_cons (h : SpellsString t s) :
    ∃ (q : Quote) (u : Text), s = q.mark :: u := by
  cases h with
  | short => exact ⟨_, _, rfl⟩
  | long => exact ⟨_, _, rfl⟩

theorem readScalar_mark (q : Quote) (t : Text) :
    readScalar (q.mark :: t) = (readString (q.mark :: t)).map fun r => (.string r.1, r.2) := by
  cases q <;> rfl

theorem SpellsString.readScalar_append (h : SpellsString t s) (hrest : EndsValue rest) :
    readScalar (s ++ rest) = some (.string t, rest) := by
  have hread := h.readString_append hrest
  obtain ⟨q, u, rfl⟩ := h.exists_cons
  rw [List.cons_append] at hread ⊢
  rw [readScalar_mark, hread, Option.map_some]

theorem SpellsString.startsOff_space (h : SpellsString t s) (rest : Text) :
    StartsOff isSpace (s ++ rest) := by
  obtain ⟨q, u, rfl⟩ := h.exists_cons
  exact startsOff_cons (by cases q <;> decide) _

theorem SpellsString.readValue_append (h : SpellsString t s) (room : Nat) (hrest : EndsValue rest) :
    readValue room (s ++ rest) = some (.string t, rest) := by
  have hread := h.readScalar_append hrest
  obtain ⟨q, u, rfl⟩ := h.exists_cons
  rw [List.cons_append] at hread ⊢
  rw [readValue_scalar _ (by cases q <;> decide) (by cases q <;> decide), hread]

end Strings

end Toml

end SelectorXPath
