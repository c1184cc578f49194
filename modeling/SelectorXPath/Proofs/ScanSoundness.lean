import SelectorXPath.Proofs.RuleChoice

namespace SelectorXPath

open Grammar

section Readers

variable {n op v r s t before after : Text} {q close : Char}

theorem readName_sound (h : readName t = some (n, r)) :
    t = n ++ r ∧ IsName n ∧ StartsOff isNameChar r := by
  unfold readName at h
  split at h
  · cases h
  · next hne =>
    cases h
    exact ⟨List.takeWhile_append_dropWhile.symm,
      ⟨hne, fun c hc => List.mem_takeWhile_imp hc⟩, startsOff_dropWhile⟩

theorem getLast?_cutAfterLast (h : cutAfterLast q t = some (before, after)) :
    before.getLast? = some q := by
  induction t generalizing before with
  | nil => cases h
  | cons c t ih =>
    simp only [cutAfterLast] at h
    split at h
    · next b a hcut =>
      cases h
      rw [List.getLast?_cons, ih hcut]
      rfl
    · split at h
      · next hc => cases h; simp [hc]
      · cases h

theorem readOperator_sound (h : readOperator t = some (op, r)) : t = op ++ r ∧ IsOperator op := by
  unfold readOperator at h
  split at h
  · next operator excess hcut =>
    cases h
    have hrun := cutAfterLast_append hcut
    refine ⟨?_, fun c hc => ?_, getLast?_cutAfterLast hcut⟩
    · rw [← List.append_assoc, hrun, List.takeWhile_append_dropWhile]
    · exact List.mem_takeWhile_imp (l := t) (hrun ▸ List.mem_append_left _ hc)
  · cases h

theorem not_mem_of_cutAfterLast_eq_none (h : cutAfterLast q t = none) : q ∉ t := by
  induction t with
  | nil => simp
  | cons c t ih =>
    simp only [cutAfterLast] at h
    split at h
    · cases h
    · next hcut =>
      split at h
      · cases h
      · next hc => simp [Ne.symm hc, ih hcut]

theorem not_mem_of_cutAfterLast (h : cutAfterLast q t = some (before, after)) : q ∉ after := by
  induction t generalizing before with
  | nil => cases h
  | cons c t ih =>
    simp only [cutAfterLast] at h
    split at h
    · next hcut =>
      cases h
      exact ih hcut
    · next hcut =>
      split at h
      · cases h
        exact not_mem_of_cutAfterLast_eq_none hcut
      · cases h

theorem equals_not_mem_of_readOperator (h : readOperator t = some (op, r)) :
    '=' ∉ r.takeWhile isOperatorChar := by
  unfold readOperator at h
  split at h
  · next operator excess hcut =>
    cases h
    have hexcess : ∀ c ∈ excess, isOperatorChar c = true := by
      intro c hc
      have hrun := cutAfterLast_append hcut
      exact List.mem_takeWhile_imp (l := t) (hrun ▸ List.mem_append_right _ hc)
    rw [takeWhile_run hexcess startsOff_dropWhile]
    exact not_mem_of_cutAfterLast hcut
  · cases h

theorem readQuoted_sound (h : readQuoted q close t = some (v, r)) :
    ∃ w, Blanks w ∧ q ∉ v ∧ t = q :: v ++ [q] ++ w ++ close :: r := by
  cases t with
  | nil => cases h
  | cons c t =>
    simp only [readQuoted] at h
    split at h
    · next hc =>
      split at h
      · cases h
      · next d after hdrop =>
        split at h
        · cases h
        · next e rest hskip =>
          split at h
          · next he =>
            cases h
            have hd : d = q := by
              have := startsOff_dropWhile (p := (· != q)) (t := t) d (by rw [hdrop]; rfl)
              simpa using this
            refine ⟨leadingBlanks after, blanks_leadingBlanks after, ?_, ?_⟩
            · intro hmem
              simpa using List.mem_takeWhile_imp hmem
            · have hafter := leadingBlanks_append_skipBlanks after
              have ht := List.takeWhile_append_dropWhile (p := (· != q)) (l := t)
              rw [hskip, he] at hafter
              rw [hdrop, hd, ← hafter] at ht
              simpa [hc] using ht.symm
          · cases h
    · cases h

theorem readBare_sound {stop : Char → Bool} (h : readBare stop close t = some (v, r)) :
    ∃ a b, Blanks a ∧ Blanks b ∧ trim v = v ∧ (∀ c ∈ v, stop c = false) ∧
      t = a ++ v ++ b ++ close :: r := by
  unfold readBare at h
  split at h
  · cases h
  · next c rest hdrop =>
    split at h
    · next hc =>
      cases h
      obtain ⟨a, b, ha, hb, heq⟩ := eq_append_trim (t.takeWhile fun c => !stop c)
      refine ⟨a, b, ha, hb, trim_trim _, fun d hd => ?_, ?_⟩
      · have hmem : d ∈ t.takeWhile fun c => !stop c := by
          rw [heq]
          simp [hd]
        simpa using List.mem_takeWhile_imp hmem
      · rw [← heq, ← hc, ← hdrop, List.takeWhile_append_dropWhile]
    · cases h

theorem readValue_sound (h : readValue t = some (v, r)) :
    ∃ body a b, Written BareValue v body ∧ Blanks a ∧ Blanks b ∧
      t = a ++ body ++ b ++ ']' :: r := by
  simp only [readValue, Option.orElse_eq_orElse, Option.orElse_eq_or, Option.or_eq_some_iff] at h
  rcases h with h | ⟨-, h | ⟨-, h⟩⟩
  · obtain ⟨w, hw, hq, rfl⟩ := readQuoted_sound h
    exact ⟨_, [], w, .quoted .double hq, by simp [Blanks], hw, by simp [Quote.around, Quote.mark]⟩
  · obtain ⟨w, hw, hq, rfl⟩ := readQuoted_sound h
    exact ⟨_, [], w, .quoted .single hq, by simp [Blanks], hw, by simp [Quote.around, Quote.mark]⟩
  · obtain ⟨a, b, ha, hb, htrim, hstop, rfl⟩ := readBare_sound h
    refine ⟨v, a, b, .bare ⟨htrim, fun hmem => ?_⟩, ha, hb, rfl⟩
    simpa using hstop _ hmem

theorem readArgument_sound {argument : Option Text} (h : readArgument t = some (argument, r)) :
    (argument = none ∧ ∃ w, Blanks w ∧ t = w ++ ')' :: r) ∨
    ∃ v body a b, argument = some v ∧ Written BareArgument v body ∧ Blanks a ∧ Blanks b ∧
      t = a ++ body ++ b ++ ')' :: r := by
  simp only [readArgument, Option.orElse_eq_orElse, Option.orElse_eq_or, Option.or_eq_some_iff,
    Option.map_eq_some_iff] at h
  rcases h with ⟨⟨v, rest⟩, h, he⟩ | ⟨-, ⟨⟨v, rest⟩, h, he⟩ | ⟨-, ⟨v, rest⟩, h, he⟩⟩
  · cases he
    obtain ⟨w, hw, hq, rfl⟩ := readQuoted_sound h
    exact .inr ⟨v, _, [], w, rfl, .quoted .double hq, by simp [Blanks], hw,
      by simp [Quote.around, Quote.mark]⟩
  · cases he
    obtain ⟨w, hw, hq, rfl⟩ := readQuoted_sound h
    exact .inr ⟨v, _, [], w, rfl, .quoted .single hq, by simp [Blanks], hw,
      by simp [Quote.around, Quote.mark]⟩
  · obtain ⟨a, b, ha, hb, htrim, hstop, rfl⟩ := readBare_sound h
    cases v with
    | nil =>
      cases he
      exact .inl ⟨rfl, a ++ b, ha.append hb, by simp⟩
    | cons c v =>
      cases he
      refine .inr ⟨c :: v, _, a, b, rfl, .bare ⟨by simp, htrim, fun hmem => ?_, fun d hd => ?_⟩,
        ha, hb, rfl⟩
      · simpa using hstop _ hmem
      · have := hstop d hd
        simp only [Bool.or_eq_false_iff] at this
        simp [isQuoteMark, this]

end Readers

section Rules

variable {t r : Text} {fragment : Fragment} {kind : Combinator}

def CutsSpelling (t : Text) (fragment : Fragment) (r : Text) : Prop :=
  ∃ span, Spells BareValue fragment span ∧ t = span ++ r ∧
    (EndsOff isNameChar span ∨ StartsOff isNameChar r)

theorem attributeRule_cases (h : attributeRule t = some (fragment, r)) :
    (∃ n w₁ w₂, IsName n ∧ Blanks w₁ ∧ Blanks w₂ ∧ fragment = .attr n none none ∧
      t = '[' :: (w₁ ++ (n ++ (w₂ ++ ']' :: r)))) ∨
    ∃ n op head rest v, SpellsHead n op head ∧ '=' ∉ rest.takeWhile isOperatorChar ∧
      readValue (skipBlanks rest) = some (v, r) ∧ fragment = .attr n (some op) (some v) ∧
      t = head ++ rest := by
  unfold attributeRule at h
  split at h
  · next afterBracket =>
    obtain ⟨w₁, hw₁, h₁⟩ := exists_blanks_skipBlanks afterBracket
    split at h
    · cases h
    · next name afterName hname =>
      obtain ⟨hneq, hn, hstop⟩ := readName_sound hname
      obtain ⟨w₂, hw₂, h₂⟩ := exists_blanks_skipBlanks afterName
      split at h
      · next rest hclose =>
        cases h
        rw [h₁, hneq, h₂, hclose]
        exact .inl ⟨name, w₁, w₂, hn, hw₁, hw₂, rfl, rfl⟩
      · split at h
        · cases h
        · next operator afterOperator hop =>
          obtain ⟨hoeq, ho⟩ := readOperator_sound hop
          split at h
          · cases h
          · next value rest hvalue =>
            cases h
            rw [hoeq] at h₂
            have hdash : operator.head? = some '-' → w₂ ≠ [] := by
              rintro hhead rfl
              have hoff := hstop '-' (by simp [h₂, hhead])
              exact absurd hoff (by decide)
            refine .inr ⟨name, operator, _, afterOperator, value, .intro hn ho hdash hw₁ hw₂,
              equals_not_mem_of_readOperator hop, hvalue, rfl, ?_⟩
            rw [h₁, hneq, h₂]
            simp
  · cases h

theorem attributeRule_sound (h : attributeRule t = some (fragment, r)) :
    CutsSpelling t fragment r := by
  rcases attributeRule_cases h with ⟨n, w₁, w₂, hn, h₁, h₂, rfl, rfl⟩ |
    ⟨n, op, head, rest, v, @⟨w₁, w₂, hn, ho, hdash, h₁, h₂⟩, -, hvalue, rfl, rfl⟩
  · exact ⟨_, .attr hn h₁ h₂, by simp, .inl (endsOff_close (by decide) _)⟩
  · obtain ⟨w₃, h₃, hrest⟩ := exists_blanks_skipBlanks rest
    obtain ⟨body, a, b, hbody, ha, hb, heq⟩ := readValue_sound hvalue
    refine ⟨_, .attrValue hn ho hbody hdash h₁ h₂ (h₃.append ha) hb, ?_,
      .inl (endsOff_close (by decide) _)⟩
    rw [hrest, heq]
    simp

theorem filterRule_sound (h : filterRule t = some (fragment, r)) : CutsSpelling t fragment r := by
  unfold filterRule at h
  split at h
  · next afterColon =>
    split at h
    · cases h
    · next name body hname =>
      obtain ⟨rfl, hn, hstop⟩ := readName_sound hname
      obtain ⟨w, hw, hbody⟩ := exists_blanks_skipBlanks body
      split at h
      · next argument rest hargument =>
        cases h
        rcases readArgument_sound hargument with
          ⟨rfl, b, hb, heq⟩ | ⟨v, text, a, b, rfl, htext, ha, hb, heq⟩
        · refine ⟨_, .filterBlank hn (hw.append hb), ?_, .inl (endsOff_close (by decide) _)⟩
          rw [hbody, heq]
          simp
        · refine ⟨_, .filterArgument hn htext (hw.append ha) hb, ?_,
            .inl (endsOff_close (by decide) _)⟩
          rw [hbody, heq]
          simp
      · cases h
        exact ⟨_, .filter hn, rfl, .inr hstop⟩
    · next name rest _ hname =>
      cases h
      obtain ⟨rfl, hn, hstop⟩ := readName_sound hname
      exact ⟨_, .filter hn, rfl, .inr hstop⟩
  · cases h

theorem idRule_sound (h : idRule t = some (fragment, r)) : CutsSpelling t fragment r := by
  unfold idRule at h
  split at h
  · obtain ⟨⟨name, rest⟩, hname, he⟩ := Option.map_eq_some_iff.mp h
    cases he
    obtain ⟨rfl, hn, hstop⟩ := readName_sound hname
    exact ⟨_, .id hn, rfl, .inr hstop⟩
  · cases h

theorem classRule_sound (h : classRule t = some (fragment, r)) : CutsSpelling t fragment r := by
  unfold classRule at h
  split at h
  · obtain ⟨⟨name, rest⟩, hname, he⟩ := Option.map_eq_some_iff.mp h
    cases he
    obtain ⟨rfl, hn, hstop⟩ := readName_sound hname
    exact ⟨_, .className hn, rfl, .inr hstop⟩
  · cases h

theorem elementRule_sound (h : elementRule t = some (fragment, r)) :
    CutsSpelling t fragment r := by
  unfold elementRule at h
  split at h
  · cases h
    exact ⟨_, .any, rfl, .inl (endsOff_close (by decide) [])⟩
  · obtain ⟨⟨name, rest⟩, hname, he⟩ := Option.map_eq_some_iff.mp h
    cases he
    obtain ⟨rfl, hn, hstop⟩ := readName_sound hname
    exact ⟨_, .element hn, rfl, .inr hstop⟩

theorem markedLink_sound (hk : kind ≠ .descendant) (h : markedLink kind t = some (fragment, r)) :
    ∃ m, fragment = .link kind m ∧ SpellsLink kind m t ∧ StartsOff isBlank m := by
  obtain ⟨w₁, hw₁, h₁⟩ := exists_blanks_skipBlanks t
  unfold markedLink at h
  split at h
  · cases h
  · next c rest hskip =>
    split at h
    · next hc =>
      cases h
      obtain ⟨w₂, hw₂, h₂⟩ := exists_blanks_skipBlanks rest
      have hspells : SpellsLink kind (skipBlanks rest) _ := .marked hk hw₁ hw₂
      refine ⟨skipBlanks rest, rfl, ?_, startsOff_dropWhile⟩
      rw [List.append_assoc, ← h₂, List.append_assoc, ← hc, List.singleton_append, ← hskip,
        ← h₁] at hspells
      exact hspells
    · cases h

theorem blankLink_sound (h : blankLink t = some (fragment, r)) :
    ∃ w m, fragment = .link .descendant m ∧ t = w ++ m ∧ Blanks w ∧ w ≠ [] ∧
      StartsOff isBlank m := by
  unfold blankLink at h
  split at h
  · next b w c m hlead hskip =>
    cases h
    refine ⟨b :: w, c :: m, rfl, ?_, hlead ▸ blanks_leadingBlanks t, by simp, ?_⟩
    · rw [← hlead, ← hskip, leadingBlanks_append_skipBlanks]
    · exact hskip ▸ startsOff_dropWhile
  · cases h

theorem exists_symbol_of_isLinkMark {c : Char} (h : isLinkMark c = true) :
    ∃ kind : Combinator, kind ≠ .descendant ∧ kind.symbol = c := by
  simp only [isLinkMark, Bool.or_eq_true, beq_iff_eq] at h
  rcases h with ((rfl | rfl) | rfl) | rfl
  · exact ⟨.multiple, by decide, rfl⟩
  · exact ⟨.child, by decide, rfl⟩
  · exact ⟨.adjacent, by decide, rfl⟩
  · exact ⟨.sibling, by decide, rfl⟩

theorem startsOff_linkMark_of_firstMatch {w m : Text} (hw : Blanks w)
    (h : firstMatch (w ++ m) = some (.link .descendant m, r)) : StartsOff isLinkMark m := by
  intro c hc
  cases hm : isLinkMark c with
  | false => rfl
  | true =>
    obtain ⟨kind, hk, rfl⟩ := exists_symbol_of_isLinkMark hm
    obtain ⟨rest, rfl⟩ := List.head?_eq_some_iff.mp hc
    rw [firstMatch_marked rest hk hw] at h
    simp only [Option.some.injEq, Prod.mk.injEq, Fragment.link.injEq] at h
    exact absurd h.1.1 hk

theorem firstMatch_sound (h : firstMatch t = some (fragment, r)) :
    (∃ kind m, fragment = .link kind m ∧ SpellsLink kind m t ∧ StartsOff isBlank m) ∨
    CutsSpelling t fragment r := by
  obtain ⟨rule, hmem, hrule⟩ := List.exists_of_findSome?_eq_some h
  simp only [rules, List.mem_cons, List.not_mem_nil, or_false] at hmem
  rcases hmem with rfl | rfl | rfl | rfl | rfl | rfl | rfl | rfl | rfl | rfl
  · exact .inl ⟨.multiple, markedLink_sound (by decide) hrule⟩
  · exact .inl ⟨.child, markedLink_sound (by decide) hrule⟩
  · exact .inl ⟨.adjacent, markedLink_sound (by decide) hrule⟩
  · exact .inl ⟨.sibling, markedLink_sound (by decide) hrule⟩
  · exact .inr (attributeRule_sound hrule)
  · exact .inr (filterRule_sound hrule)
  · exact .inr (idRule_sound hrule)
  · exact .inr (classRule_sound hrule)
  · exact .inr (elementRule_sound hrule)
  · obtain ⟨w, m, rfl, rfl, hw, hne, hs⟩ := blankLink_sound hrule
    have hm := startsOff_linkMark_of_firstMatch hw h
    exact .inl ⟨.descendant, m, rfl, .blank hw hne hm, hs⟩

end Rules

theorem Piece.apart_of_textOf {x : Piece BareValue} {pieces : List (Piece BareValue)}
    {tail : Option Tail} (h : pieces.IsChain Piece.Apart)
    (hedge : EndsOff isNameChar x.span ∨ StartsOff isNameChar (textOf pieces tail)) :
    (x :: pieces).IsChain Piece.Apart := by
  cases pieces with
  | nil => exact .singleton x
  | cons y ys =>
    refine List.isChain_cons_cons.mpr ⟨fun hword => hedge.resolve_right fun hstart => ?_, h⟩
    obtain ⟨c, s, hspan, hc⟩ := y.spells.starts_name hword
    rw [hstart c (by simp [textOf, hspan])] at hc
    cases hc

theorem scan_sound {started : Bool} {t : Text} {fragments : List Fragment}
    (h : scan started t = .ok fragments) (hend : EndsOff isBlank t) :
    ∃ (pieces : List (Piece BareValue)) (tail : Option Tail),
      fragmentsOf pieces tail = fragments ∧ textOf pieces tail = t ∧
      pieces.IsChain Piece.Apart ∧ (tail.isSome = true → started = true ∨ pieces ≠ []) := by
  rcases scan_ok_cases h with ⟨rfl, rfl⟩ | ⟨kind, m, rest, hmatch, hm, hs, rfl⟩ |
    ⟨fragment, rest, more, hmatch, hlink, hmore, rfl⟩
  · exact ⟨[], none, rfl, rfl, .nil, by simp⟩
  · rcases firstMatch_sound hmatch with ⟨kind, m, hfragment, hspells, hstart⟩ | ⟨span, hspells, -⟩
    · cases hfragment
      obtain ⟨a, -, ht⟩ := hspells.exists_append
      have hclose : EndsOff isBlank m := (endsOff_append hm).mp (ht ▸ hend)
      have htrim : trim m = m := trim_eq_self_iff.mpr ⟨hstart, hclose⟩
      exact ⟨[], some ⟨kind, m, t, hspells, hm, htrim⟩, rfl, rfl, .nil, fun _ => .inl hs⟩
    · exact absurd hspells.isLink_eq_false (by simp [Fragment.isLink])
  · rcases firstMatch_sound hmatch with ⟨kind, m, rfl, -⟩ | ⟨span, hspells, ht, hedge⟩
    · cases hlink
    · have hrest : EndsOff isBlank rest := by
        by_cases hnil : rest = []
        · simp [hnil, EndsOff]
        · exact (endsOff_append hnil).mp (ht ▸ hend)
      obtain ⟨pieces, tail, rfl, rfl, hchain, -⟩ := scan_sound hmore hrest
      refine ⟨⟨fragment, span, hspells⟩ :: pieces, tail, by simp [fragmentsOf],
        by simp [textOf, ht], Piece.apart_of_textOf hchain hedge, fun _ => .inr (by simp)⟩
termination_by t.length
decreasing_by exact firstMatch_length_lt hmatch

theorem scan_eq_ok_of_parseSelector {s : Text} {fragments : List Fragment}
    (h : parseSelector s = .ok fragments) : scan false (trim s) = .ok fragments := by
  unfold parseSelector at h
  split at h
  · next hscan => cases h; exact hscan
  · cases h
  · cases h
  · cases h

theorem exists_layout_of_parseSelector {s : Text} {fragments : List Fragment}
    (h : parseSelector s = .ok fragments) :
    ∃ layout : Layout BareValue, layout.fragments = fragments ∧ layout.text = trim s := by
  obtain ⟨pieces, tail, hfragments, htext, hchain, hstarted⟩ :=
    scan_sound (scan_eq_ok_of_parseSelector h) (endsOff_trimEnd _)
  refine ⟨⟨pieces, tail, hchain, fun htail => ?_⟩, hfragments, htext⟩
  exact (hstarted htail).resolve_left (by simp)

namespace Layout

variable {bare : Text → Prop} (layout : Layout bare)

theorem flatten_spans : layout.spans.flatten = layout.text := by
  obtain ⟨pieces, tail, -, -⟩ := layout
  cases tail <;> simp [spans, text, textOf, List.flatMap_def]

theorem length_spans : layout.spans.length = layout.fragments.length := by
  simp [spans, fragments, fragmentsOf]

theorem ne_nil_of_mem_spans {span : Text} (h : span ∈ layout.spans) : span ≠ [] := by
  simp only [spans, List.mem_append, List.mem_map] at h
  rcases h with ⟨x, -, rfl⟩ | ⟨tail, -, rfl⟩
  · exact x.spells.ne_nil
  · exact tail.spells.ne_nil

theorem tail_of_link {i : Nat} {kind : Combinator} {r : Text}
    (h : layout.fragments[i]? = some (.link kind r)) :
    0 < i ∧ i + 1 = layout.fragments.length ∧
      ∃ tail, layout.tail = some tail ∧ tail.kind = kind ∧ tail.remainder = r := by
  obtain ⟨pieces, tail, hapart, hstarted⟩ := layout
  simp only [fragments, fragmentsOf, List.length_append, List.length_map] at h ⊢
  by_cases hi : i < pieces.length
  · rw [List.getElem?_append_left (by simpa using hi), List.getElem?_map] at h
    obtain ⟨x, -, hx⟩ := Option.map_eq_some_iff.mp h
    have hlink := x.spells.isLink_eq_false
    rw [hx] at hlink
    cases hlink
  · rw [List.getElem?_append_right (by simpa using hi), List.length_map] at h
    cases tail with
    | none => simp at h
    | some tail =>
      have hpos : 0 < pieces.length := List.length_pos_iff.mpr (hstarted rfl)
      obtain ⟨hzero, hfragment⟩ : i - pieces.length = 0 ∧ tail.fragment = .link kind r := by
        simpa only [Option.toList_some, List.map_cons, List.map_nil, List.getElem?_singleton,
          Option.ite_none_right_eq_some, Option.some.injEq] using h
      simp only [Tail.fragment, Fragment.link.injEq] at hfragment
      exact ⟨by omega, by simp; omega, tail, rfl, hfragment⟩

end Layout

theorem parseSelector_sound {s : Text} {fragments : List Fragment}
    (h : parseSelector s = .ok fragments) :
    ∃ layout : Layout BareValue, layout.fragments = fragments ∧
      layout.spans.flatten = trim s ∧ layout.spans.length = fragments.length ∧
      (∀ span ∈ layout.spans, span ≠ []) ∧
      ∀ i kind r, fragments[i]? = some (.link kind r) →
        0 < i ∧ i + 1 = fragments.length ∧ r ≠ [] ∧ trim r = r ∧ r <:+ trim s ∧
        r.length < (trim s).length ∧ (kind = .descendant → StartsOff isLinkMark r) := by
  obtain ⟨layout, rfl, htext⟩ := exists_layout_of_parseSelector h
  refine ⟨layout, rfl, layout.flatten_spans.trans htext, layout.length_spans,
    fun span => layout.ne_nil_of_mem_spans, fun i kind r hlink => ?_⟩
  obtain ⟨hpos, hlast, tail, htail, rfl, rfl⟩ := layout.tail_of_link hlink
  obtain ⟨a, ha, hspan⟩ := tail.spells.exists_append
  have hcut : trim s = (layout.pieces.flatMap Piece.span ++ a) ++ tail.remainder := by
    simp [← htext, Layout.text, textOf, htail, hspan]
  refine ⟨hpos, hlast, tail.nonempty, tail.trimmed, ⟨_, hcut.symm⟩, ?_, fun hkind => ?_⟩
  · have hlen : 0 < a.length := List.length_pos_iff.mpr ha
    rw [hcut, List.length_append, List.length_append]
    omega
  · exact tail.spells.startsOff_linkMark hkind

theorem parseSelector_sound_quoted :
    ∃ layout : Layout BareValue,
      layout.fragments = [.element "a".toList,
        .attr "b".toList (some "^=".toList) (some "] ,".toList),
        .filter "not".toList (some "c d".toList), .link .child ", e".toList] ∧
      layout.spans.flatten = "a[b ^='] ,' ]:not( c d )> , e".toList := by
  have h : parseSelector " a[b ^='] ,' ]:not( c d )> , e ".toList = .ok [.element "a".toList,
      .attr "b".toList (some "^=".toList) (some "] ,".toList),
      .filter "not".toList (some "c d".toList), .link .child ", e".toList] := by
    decide +kernel
  obtain ⟨layout, hfragments, hspans, -⟩ := parseSelector_sound h
  exact ⟨layout, hfragments, hspans.trans (by decide +kernel)⟩

end SelectorXPath
