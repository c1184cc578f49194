import SelectorXPath.Proofs.RuleChoice

namespace SelectorXPath

open Grammar

section Readers

variable {n op v body r s t w w₁ w₂ : Text} {q close : Char}

theorem readName_run (hn : IsName n) (hr : StartsOff isNameChar r) :
    readName (n ++ r) = some (n, r) := by
  obtain ⟨c, n, rfl⟩ := List.exists_cons_of_ne_nil hn.1
  rw [readName, takeWhile_run hn.2 hr, dropWhile_run hn.2 hr]

theorem cutAfterLast_eq_none (h : q ∉ t) : cutAfterLast q t = none := by
  induction t with
  | nil => rfl
  | cons c t ih =>
    simp only [List.mem_cons, not_or] at h
    simp [cutAfterLast, ih h.2, Ne.symm h.1]

theorem cutAfterLast_run (hs : op.getLast? = some q) (ht : q ∉ t) :
    cutAfterLast q (op ++ t) = some (op, t) := by
  obtain ⟨a, rfl⟩ := List.getLast?_eq_some_iff.mp hs
  clear hs
  induction a with
  | nil => simp [cutAfterLast, cutAfterLast_eq_none ht]
  | cons c a ih => rw [List.cons_append, List.cons_append, cutAfterLast, ih]

theorem readOperator_run (ho : IsOperator op) (hr : '=' ∉ r.takeWhile isOperatorChar) :
    readOperator (op ++ r) = some (op, r) := by
  unfold readOperator
  rw [List.takeWhile_append_of_pos ho.1, List.dropWhile_append_of_pos ho.1,
    cutAfterLast_run ho.2 hr]
  simp

theorem mem_of_mem_takeWhile_append {p : Char → Bool} {c : Char} (hs : StartsOff p s)
    (hc : c ∈ (t ++ s).takeWhile p) : c ∈ t := by
  induction t with
  | nil =>
    cases s with
    | nil => simp at hc
    | cons d s => simp [hs d rfl] at hc
  | cons d t ih =>
    by_cases hd : p d = true
    · simp only [List.cons_append, hd, List.takeWhile_cons_of_pos, List.mem_cons] at hc ⊢
      exact hc.imp id ih
    · simp [hd] at hc

theorem readQuoted_run (hq : q ∉ v) (hw : Blanks w) (hc : isBlank close = false) :
    readQuoted q close (q :: (v ++ q :: (w ++ close :: r))) = some (v, r) := by
  have hv : ∀ c ∈ v, (c != q) = true := fun c hc => by
    simpa using fun h : c = q => hq (h ▸ hc)
  have hstop : StartsOff (· != q) (q :: (w ++ close :: r)) := by simp [StartsOff]
  simp only [readQuoted, if_true, dropWhile_run hv hstop, takeWhile_run hv hstop]
  rw [skipBlanks_run hw (by simpa [StartsOff])]
  simp

theorem readQuoted_other (h : StartsOff isQuoteMark t) :
    readQuoted '"' close t = none ∧ readQuoted '\'' close t = none := by
  cases t with
  | nil => exact ⟨rfl, rfl⟩
  | cons c t =>
    have hc := h c rfl
    simp only [isQuoteMark, Bool.or_eq_false_iff, beq_eq_false_iff_ne] at hc
    simp [readQuoted, hc]

theorem readBare_run {stop : Char → Bool} (hv : ∀ c ∈ v, stop c = false) (ht : trim v = v)
    (hw : Blanks w) (hb : ∀ c, isBlank c = true → stop c = false) (hc : stop close = true) :
    readBare stop close (v ++ w ++ close :: r) = some (v, r) := by
  have hin : ∀ c ∈ v ++ w, (!stop c) = true := by
    intro c h
    rcases List.mem_append.mp h with h | h
    · simp [hv c h]
    · simp [hb c (hw c h)]
  have hstop : StartsOff (fun c => !stop c) (close :: r) := by simp [StartsOff, hc]
  have htrim : trim (v ++ w) = v := by
    simpa using trim_blanks_append (a := []) (by simp [Blanks]) hw ht
  rw [readBare, dropWhile_run hin hstop, takeWhile_run hin hstop, htrim]
  simp

theorem readValue_quoted {q : Quote} (hq : q.mark ∉ v) (hw : Blanks w) :
    readValue (q.mark :: (v ++ q.mark :: (w ++ ']' :: r))) = some (v, r) := by
  have hread := readQuoted_run (r := r) hq hw (show isBlank ']' = false by decide)
  cases q with
  | double =>
    simp only [Quote.mark] at hread ⊢
    simp [readValue, hread]
  | single =>
    simp only [Quote.mark] at hread ⊢
    rw [readValue, hread]
    simp [readQuoted]

theorem readArgument_quoted {q : Quote} (hq : q.mark ∉ v) (hw : Blanks w) :
    readArgument (q.mark :: (v ++ q.mark :: (w ++ ')' :: r))) = some (some v, r) := by
  have hread := readQuoted_run (r := r) hq hw (show isBlank ')' = false by decide)
  cases q with
  | double =>
    simp only [Quote.mark] at hread ⊢
    simp [readArgument, hread]
  | single =>
    simp only [Quote.mark] at hread ⊢
    rw [readArgument, hread]
    simp [readQuoted]

theorem isQuoteMark_eq_false_of_isBlank {c : Char} (h : isBlank c = true) :
    isQuoteMark c = false := by
  cases hq : isQuoteMark c with
  | false => rfl
  | true =>
    simp only [isQuoteMark, Bool.or_eq_true, beq_iff_eq] at hq
    rcases hq with rfl | rfl <;> exact absurd h (by decide)

theorem startsOff_close (hv : StartsOff isQuoteMark v) (hw : Blanks w)
    (hc : isQuoteMark close = false) : StartsOff isQuoteMark (v ++ w ++ close :: r) := by
  cases v with
  | cons c v => simpa [StartsOff] using hv
  | nil =>
    exact startsOff_blanks_append hw (fun _ => isQuoteMark_eq_false_of_isBlank)
      (by simpa [StartsOff] using hc)

theorem readValue_bare (hv : PlainValue v) (hw : Blanks w) :
    readValue (v ++ w ++ ']' :: r) = some (v, r) := by
  obtain ⟨⟨htrim, hclose⟩, -, hquote⟩ := hv
  have hstart := startsOff_close (r := r) hquote hw (show isQuoteMark ']' = false by decide)
  have hread : readBare (· == ']') ']' (v ++ w ++ ']' :: r) = some (v, r) := by
    refine readBare_run ?_ htrim hw ?_ (by simp)
    · intro c hc
      simpa using fun h : c = ']' => hclose (h ▸ hc)
    · rintro c hc
      simpa using fun h : c = ']' => absurd (h ▸ hc) (by decide)
  obtain ⟨hdouble, hsingle⟩ := readQuoted_other hstart
  rw [readValue, hdouble, hsingle, hread]
  rfl

theorem readArgument_bare (ht : trim v = v) (hclose : ')' ∉ v)
    (hquote : ∀ c ∈ v, isQuoteMark c = false) (hw : Blanks w) :
    readArgument (v ++ w ++ ')' :: r) = some (nonemptyArgument (v, r)) := by
  have hstart : StartsOff isQuoteMark (v ++ w ++ ')' :: r) :=
    startsOff_close (fun c hc => hquote c (List.mem_of_mem_head? hc)) hw (by decide)
  have hread : readBare (fun c => c == ')' || c == '\'' || c == '"') ')' (v ++ w ++ ')' :: r) =
      some (v, r) := by
    refine readBare_run ?_ ht hw ?_ (by simp)
    · intro c hc
      have hne : c ≠ ')' := fun h => hclose (h ▸ hc)
      have hq := hquote c hc
      simp only [isQuoteMark, Bool.or_eq_false_iff] at hq
      simp [hne, hq]
    · intro c hc
      have hne (d : Char) (hd : isBlank d = false) : c ≠ d := by
        rintro rfl
        rw [hd] at hc
        cases hc
      simp [hne ')' (by decide), hne '\'' (by decide), hne '"' (by decide)]
  obtain ⟨hdouble, hsingle⟩ := readQuoted_other hstart
  rw [readArgument, hdouble, hsingle, hread]
  rfl

theorem skipBlanks_trimmed (ht : trim v = v) (hw₁ : Blanks w₁) (hw₂ : Blanks w₂)
    (hc : isBlank close = false) :
    ∃ w, Blanks w ∧
      skipBlanks (w₁ ++ (v ++ (w₂ ++ close :: r))) = v ++ w ++ close :: r := by
  cases v with
  | nil =>
    refine ⟨[], by simp [Blanks], ?_⟩
    simpa using skipBlanks_run (r := close :: r) (hw₁.append hw₂) (by simpa [StartsOff])
  | cons c v =>
    have hs : StartsOff isBlank (c :: v) := (trim_eq_self_iff.mp ht).1
    refine ⟨w₂, hw₂, ?_⟩
    rw [skipBlanks_run hw₁ (by simpa [StartsOff] using hs), List.append_assoc]

theorem readValue_written (hb : Written PlainValue v body) (hw₁ : Blanks w₁) (hw₂ : Blanks w₂) :
    readValue (skipBlanks (w₁ ++ (body ++ (w₂ ++ ']' :: r)))) = some (v, r) := by
  cases hb with
  | quoted q hq =>
    have hmark : isBlank q.mark = false := by cases q <;> decide
    rw [skipBlanks_run hw₁ (by simpa [StartsOff, Quote.around])]
    simpa [Quote.around] using readValue_quoted (r := r) hq hw₂
  | bare hv =>
    obtain ⟨w, hw, hskip⟩ := skipBlanks_trimmed (r := r) hv.1.1 hw₁ hw₂
      (show isBlank ']' = false by decide)
    rw [hskip, readValue_bare hv hw]

theorem readArgument_written (hb : Written BareArgument v body) (hw₁ : Blanks w₁)
    (hw₂ : Blanks w₂) :
    readArgument (skipBlanks (w₁ ++ (body ++ (w₂ ++ ')' :: r)))) = some (some v, r) := by
  cases hb with
  | quoted q hq =>
    have hmark : isBlank q.mark = false := by cases q <;> decide
    rw [skipBlanks_run hw₁ (by simpa [StartsOff, Quote.around])]
    simpa [Quote.around] using readArgument_quoted (r := r) hq hw₂
  | bare hv =>
    obtain ⟨hne, htrim, hclose, hquote⟩ := hv
    obtain ⟨w, hw, hskip⟩ := skipBlanks_trimmed (r := r) htrim hw₁ hw₂
      (show isBlank ')' = false by decide)
    obtain ⟨c, v, rfl⟩ := List.exists_cons_of_ne_nil hne
    rw [hskip, readArgument_bare htrim hclose hquote hw]
    rfl

theorem equals_not_mem_run (hb : Written PlainValue v body) (hw₁ : Blanks w₁) (hw₂ : Blanks w₂) :
    '=' ∉ (w₁ ++ (body ++ (w₂ ++ ']' :: r))).takeWhile isOperatorChar := by
  have hblank (c : Char) (hc : isBlank c = true) : isOperatorChar c = false := by
    simp [isOperatorChar, hc]
  have hclose : StartsOff isOperatorChar (w₂ ++ ']' :: r) :=
    startsOff_blanks_append hw₂ hblank (by simp [StartsOff, isOperatorChar])
  cases hb with
  | quoted q hq =>
    have hmark : isOperatorChar q.mark = false := by cases q <;> decide
    have hstart := startsOff_blanks_append (r := q.around v ++ (w₂ ++ ']' :: r)) hw₁ hblank
      (by simpa [StartsOff, Quote.around])
    intro h
    exact absurd (mem_of_mem_takeWhile_append (t := []) hstart h) (by simp)
  | bare hv =>
    intro h
    rw [← List.append_assoc] at h
    have hmem := mem_of_mem_takeWhile_append hclose h
    rcases List.mem_append.mp hmem with hmem | hmem
    · exact absurd (hw₁ _ hmem) (by decide)
    · exact hv.2.1 hmem

end Readers

section Rules

variable {n op v body r w w₁ w₂ w₃ w₄ span : Text} {bare : Text → Prop} {fragment : Fragment}

theorem readName_framed (hn : IsName n) (hw : Blanks w) (hr : StartsOff isNameChar r) :
    readName (skipBlanks (w ++ (n ++ r))) = some (n, r) := by
  obtain ⟨c, n, rfl⟩ := List.exists_cons_of_ne_nil hn.1
  have hc : isBlank c = false := isBlank_eq_false_of_isNameChar (hn.2 c (by simp))
  rw [skipBlanks_run hw (by simpa [StartsOff]), readName_run hn hr]

theorem attributeRule_name (hn : IsName n) (h₁ : Blanks w₁) (h₂ : Blanks w₂) :
    attributeRule ('[' :: (w₁ ++ (n ++ (w₂ ++ ']' :: r)))) = some (.attr n none none, r) := by
  have hstop : StartsOff isNameChar (w₂ ++ ']' :: r) :=
    startsOff_blanks_append h₂ (fun _ => isNameChar_eq_false_of_isBlank)
      (startsOff_cons (by decide) _)
  simp only [attributeRule, readName_framed hn h₁ hstop]
  rw [skipBlanks_run h₂ (startsOff_cons (by decide) _)]
  rfl

theorem SpellsHead.attributeRule_append {head : Text} (h : SpellsHead n op head)
    (hr : '=' ∉ r.takeWhile isOperatorChar) :
    attributeRule (head ++ r) =
      (readValue (skipBlanks r)).map fun found => (.attr n (some op) (some found.1), found.2) := by
  obtain @⟨w₁, w₂, hn, ho, hdash, h₁, h₂⟩ := h
  obtain ⟨c, tail, rfl⟩ : ∃ c tail, op = c :: tail := by
    refine List.exists_cons_of_ne_nil fun h => ?_
    simpa [h] using ho.2
  have hc : isOperatorChar c = true := ho.1 c (by simp)
  have hsolid : isBlank c = false ∧ isWordChar c = false ∧ c ≠ ']' := by
    simp only [isOperatorChar, Bool.not_eq_true', Bool.or_eq_false_iff, beq_eq_false_iff_ne] at hc
    exact ⟨hc.1.1.1.2, hc.1.1.1.1, hc.1.1.2⟩
  have hstop : StartsOff isNameChar (w₂ ++ (c :: tail ++ r)) := by
    cases w₂ with
    | nil =>
      have hne : c ≠ '-' := fun h => hdash (by simp [h]) rfl
      simp [StartsOff, isNameChar, hsolid.2.1, hne]
    | cons b w₂ => simpa [StartsOff] using isNameChar_eq_false_of_isBlank (h₂ b (by simp))
  simp only [List.cons_append, List.append_assoc, attributeRule] at hstop ⊢
  rw [readName_framed hn h₁ hstop]
  simp only [skipBlanks_run h₂ (startsOff_cons hsolid.1 (tail ++ r))]
  have hop := readOperator_run ho hr
  rw [List.cons_append] at hop
  split
  · next heq => exact absurd (List.cons.inj heq).1 hsolid.2.2
  · simp only [hop]
    cases readValue (skipBlanks r) <;> rfl

theorem attributeRule_value (hn : IsName n) (ho : IsOperator op) (hb : Written PlainValue v body)
    (hdash : op.head? = some '-' → w₂ ≠ []) (h₁ : Blanks w₁) (h₂ : Blanks w₂) (h₃ : Blanks w₃)
    (h₄ : Blanks w₄) :
    attributeRule ('[' :: (w₁ ++ (n ++ (w₂ ++ (op ++ (w₃ ++ (body ++ (w₄ ++ ']' :: r)))))))) =
      some (.attr n (some op) (some v), r) := by
  have hhead : SpellsHead n op _ := .intro hn ho hdash h₁ h₂
  have hrule := hhead.attributeRule_append (equals_not_mem_run (r := r) hb h₃ h₄)
  rw [readValue_written hb h₃ h₄] at hrule
  simpa using hrule

theorem filterRule_name (hn : IsName n) (hr : Stops r) :
    filterRule (':' :: (n ++ r)) = some (.filter n none, r) := by
  simp only [filterRule, readName_run hn hr.startsOff_name]
  cases r with
  | nil => rfl
  | cons c r =>
    have hc : c ≠ '(' := by
      have := hr c rfl
      simp only [Bool.or_eq_false_iff, beq_eq_false_iff_ne] at this
      exact this.2
    split
    · next heq => cases heq
    · next heq => cases heq; exact absurd rfl hc
    · next heq => cases heq; rfl

theorem filterRule_blank (hn : IsName n) (hw : Blanks w) :
    filterRule (':' :: (n ++ '(' :: (w ++ ')' :: r))) = some (.filter n none, r) := by
  have hstop : StartsOff isNameChar ('(' :: (w ++ ')' :: r)) :=
    startsOff_cons (by decide) _
  have hskip : skipBlanks (w ++ ')' :: r) = ')' :: r :=
    skipBlanks_run hw (startsOff_cons (by decide) _)
  have harg := readArgument_bare (v := []) (w := []) (r := r) rfl (by simp) (by simp)
    (by simp [Blanks])
  simp only [filterRule, readName_run hn hstop, hskip]
  simp only [List.nil_append, nonemptyArgument] at harg
  rw [harg]

theorem filterRule_argument (hn : IsName n) (ha : Written BareArgument v body) (h₁ : Blanks w₁)
    (h₂ : Blanks w₂) :
    filterRule (':' :: (n ++ '(' :: (w₁ ++ (body ++ (w₂ ++ ')' :: r))))) =
      some (.filter n (some v), r) := by
  have hstop : StartsOff isNameChar ('(' :: (w₁ ++ (body ++ (w₂ ++ ')' :: r)))) :=
    startsOff_cons (by decide) _
  simp only [filterRule, readName_run hn hstop, readArgument_written ha h₁ h₂]

theorem Spells.firstMatch_append (h : Spells PlainValue fragment span)
    (hr : EndsOff isNameChar span ∨ Stops r) :
    firstMatch (span ++ r) = some (fragment, r) := by
  cases h with
  | any => exact firstMatch_star r
  | element hn =>
    have hstop := hr.resolve_left (not_endsOff_name hn [])
    obtain ⟨c, n, rfl⟩ := List.exists_cons_of_ne_nil hn.1
    have hread := readName_run hn hstop.startsOff_name
    rw [List.cons_append] at hread ⊢
    rw [firstMatch_name (hn.2 c (by simp)), hread]
    rfl
  | id hn =>
    have hstop := hr.resolve_left (not_endsOff_name hn ['#'])
    rw [List.cons_append, firstMatch_hash, idRule, readName_run hn hstop.startsOff_name]
    rfl
  | className hn =>
    have hstop := hr.resolve_left (not_endsOff_name hn ['.'])
    rw [List.cons_append, firstMatch_dot, classRule, readName_run hn hstop.startsOff_name]
    rfl
  | attr hn h₁ h₂ => simpa [firstMatch_bracket] using attributeRule_name hn h₁ h₂
  | attrValue hn ho hb hdash h₁ h₂ h₃ h₄ =>
    simpa [firstMatch_bracket] using attributeRule_value hn ho hb hdash h₁ h₂ h₃ h₄
  | filter hn =>
    have hstop := hr.resolve_left (not_endsOff_name hn [':'])
    simpa [firstMatch_colon] using filterRule_name hn hstop
  | filterBlank hn hw => simpa [firstMatch_colon] using filterRule_blank hn hw
  | filterArgument hn ha h₁ h₂ =>
    simpa [firstMatch_colon] using filterRule_argument hn ha h₁ h₂

end Rules

theorem Tail.firstMatch_span (tail : Tail) :
    firstMatch tail.span = some (tail.fragment, []) := by
  obtain ⟨kind, remainder, span, hspells, hne, htrim⟩ := tail
  obtain ⟨hs, -⟩ := trim_eq_self_iff.mp htrim
  cases hspells with
  | @marked _ _ w₁ w₂ hk h₁ h₂ =>
    have hmatch := firstMatch_marked (w₂ ++ remainder) hk h₁
    rw [skipBlanks_run h₂ hs] at hmatch
    simpa [Tail.fragment] using hmatch
  | blank hw hwne hm =>
    obtain ⟨c, m, rfl⟩ := List.exists_cons_of_ne_nil hne
    exact firstMatch_blank hw hwne (hs c rfl) (hm c rfl)

theorem Piece.endsOff_or_stops {x : Piece PlainValue} {xs : List (Piece PlainValue)}
    (tail : Option Tail) (h : (x :: xs).IsChain Piece.Apart) :
    EndsOff isNameChar x.span ∨ Stops (textOf xs tail) := by
  cases xs with
  | nil =>
    right
    cases tail with
    | none => simp [textOf, Stops, StartsOff]
    | some tail => simpa [textOf] using tail.spells.stops
  | cons y ys =>
    cases hword : y.fragment.isBareWord with
    | true => exact .inl ((List.isChain_cons_cons.mp h).1 hword)
    | false =>
      obtain ⟨c, s, hspan, -, -, hstop⟩ := y.spells.starts
      right
      simpa [textOf, hspan, Stops, StartsOff] using hstop hword

theorem scan_textOf {started : Bool} (pieces : List (Piece PlainValue)) (tail : Option Tail)
    (hapart : pieces.IsChain Piece.Apart)
    (hs : tail.isSome = true → started = true ∨ pieces ≠ []) :
    scan started (textOf pieces tail) = .ok (fragmentsOf pieces tail) := by
  induction pieces generalizing started with
  | nil =>
    cases tail with
    | none => exact scan_nil
    | some tail =>
      obtain rfl : started = true := (hs rfl).resolve_right (by simp)
      simpa [textOf, fragmentsOf, Tail.fragment] using
        scan_link tail.firstMatch_span tail.nonempty
  | cons x xs ih =>
    have htext : textOf (x :: xs) tail = x.span ++ textOf xs tail := by simp [textOf]
    have hmatch := x.spells.firstMatch_append (Piece.endsOff_or_stops tail hapart)
    rw [htext, scan_fragment hmatch x.spells.isLink_eq_false,
      ih hapart.tail (fun _ => .inl rfl)]
    rfl

theorem Layout.scan_text (layout : Layout PlainValue) :
    scan false layout.text = .ok layout.fragments :=
  scan_textOf layout.pieces layout.tail layout.apart fun h => .inr (layout.started h)

theorem parseSelector_layout (layout : Layout PlainValue) {before after : Text}
    (hb : Blanks before) (ha : Blanks after) :
    parseSelector (before ++ layout.text ++ after) = .ok layout.fragments := by
  rw [parseSelector, trim_blanks_append hb ha layout.trim_text, layout.scan_text]

theorem parseSelector_layout_spaced :
    parseSelector " p[ x -~= '] ,']:not( )* >, q\n".toList =
      .ok [.element ['p'], .attr ['x'] (some "-~=".toList) (some "] ,".toList),
        .filter "not".toList none, .element ['*'], .link .child ", q".toList] := by
  have hattr : Spells PlainValue (.attr ['x'] (some "-~=".toList) (some "] ,".toList))
      "[ x -~= '] ,']".toList :=
    @Spells.attrValue _ _ _ _ _ [' '] [' '] [' '] [] (by decide) (by decide)
      (.quoted .single (by decide)) (by decide) (by decide) (by decide) (by decide) (by decide)
  have hfilter : Spells PlainValue (.filter "not".toList none) ":not( )".toList :=
    .filterBlank (w := [' ']) (by decide) (by decide)
  have hlink : SpellsLink .child ", q".toList " >, q".toList :=
    @SpellsLink.marked _ _ [' '] [] (by decide) (by decide) (by decide)
  exact parseSelector_layout
    ⟨[⟨_, _, .element (by decide : IsName ['p'])⟩, ⟨_, _, hattr⟩, ⟨_, _, hfilter⟩, ⟨_, _, .any⟩],
      some ⟨_, _, _, hlink, by decide, by decide⟩,
      .cons_cons nofun (.cons_cons nofun (.cons_cons nofun (.singleton _))), by simp⟩
    (by decide : Blanks [' ']) (by decide : Blanks ['\n'])

end SelectorXPath
