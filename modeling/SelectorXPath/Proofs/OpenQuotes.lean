import SelectorXPath.Proofs.Unions
import SelectorXPath.Proofs.UniqueReading

namespace SelectorXPath

open Grammar

/-- The first quote mark of this kind in the text stands at the end of an attribute. -/
def ClosesQuote (q : Quote) (t : Text) : Prop :=
  ∃ u w r, q.mark ∉ u ∧ Blanks w ∧ t = u ++ q.mark :: (w ++ ']' :: r)

/-- The text starts with an attribute whose value starts with a quote mark, the last of its kind. -/
def OpensQuote (q : Quote) (t : Text) : Prop :=
  ∃ n op head w b, SpellsHead n op head ∧ Blanks w ∧ q.mark ∉ b ∧ t = head ++ (w ++ q.mark :: b)

inductive ReadsTo : Text → Text → Prop
  | here (t : Text) : ReadsTo t t
  | behind {t r rest : Text} {fragment : Fragment} : firstMatch t = some (fragment, r) →
      fragment.isLink = false → ReadsTo r rest → ReadsTo t rest

def LeavesOpen (q : Quote) (t : Text) : Prop := ∃ rest, ReadsTo t rest ∧ OpensQuote q rest

section Closing

variable {q : Quote} {a b t u : Text}

theorem closesQuote_iff : ClosesQuote q t ↔ (readQuoted q.mark ']' (q.mark :: t)).isSome := by
  have hclose : isBlank ']' = false := by decide
  rw [Option.isSome_iff_exists]
  constructor
  · rintro ⟨v, w, r, hv, hw, rfl⟩
    exact ⟨(v, r), (readQuoted_iff hclose).mpr ⟨w, hw, hv, by simp⟩⟩
  · rintro ⟨⟨v, r⟩, hread⟩
    obtain ⟨w, hw, hv, heq⟩ := (readQuoted_iff hclose).mp hread
    exact ⟨v, w, r, hv, hw, by simpa using heq⟩

instance : Decidable (ClosesQuote q t) := decidable_of_iff _ closesQuote_iff.symm

theorem closesQuote_append_left (ha : q.mark ∉ a) : ClosesQuote q (a ++ t) ↔ ClosesQuote q t := by
  constructor
  · rintro ⟨v, w, r, hv, hw, heq⟩
    rcases List.append_eq_append_iff.mp heq with ⟨v', rfl, rfl⟩ | ⟨a', rfl, htail⟩
    · exact ⟨v', w, r, fun hmem => hv (List.mem_append_right _ hmem), hw, rfl⟩
    · cases a' with
      | nil => exact ⟨[], w, r, List.not_mem_nil, hw, by simpa using htail.symm⟩
      | cons c a' =>
        obtain ⟨rfl, -⟩ := List.cons.inj htail
        exact absurd (by simp) ha
  · rintro ⟨v, w, r, hv, hw, rfl⟩
    exact ⟨a ++ v, w, r, by simp [ha, hv], hw, by simp⟩

theorem closesQuote_append_blanks (hb : Blanks b) : ClosesQuote q (t ++ b) ↔ ClosesQuote q t := by
  constructor
  · rintro ⟨v, w, r, hv, hw, heq⟩
    have hclose : ']' ∉ b := fun hmem => absurd (hb _ hmem) (by decide)
    rw [← List.cons_append, ← List.append_assoc] at heq
    rcases List.append_eq_append_iff.mp heq with ⟨b', -, rfl⟩ | ⟨r', rfl, htail⟩
    · exact absurd (by simp) hclose
    · cases r' with
      | nil => exact absurd (by simp [← show ']' :: r = b from htail]) hclose
      | cons c r' =>
        cases htail
        exact ⟨v, w, r', hv, hw, by simp⟩
  · rintro ⟨v, w, r, hv, hw, rfl⟩
    exact ⟨v, w, r ++ b, hv, hw, by simp⟩

end Closing

section Values

variable {q : Quote} {t u b v r : Text}

theorem skipBlanks_ne_nil_of_endsOff {a : Text} (hblank : EndsOff isBlank (a ++ q.mark :: b))
    (hquote : EndsOff isQuoteMark (a ++ q.mark :: b)) : skipBlanks b ≠ [] := by
  intro hnil
  have hall : Blanks b := List.dropWhile_eq_nil_iff.mp hnil
  by_cases hb : b = []
  · subst hb
    have hmark := (endsOff_append (by simp)).mp hquote q.mark (by simp)
    cases q <;> cases hmark
  · rw [List.append_cons, endsOff_append hb] at hblank
    exact hb (hall.eq_nil_of_endsOff hblank)

theorem readQuoted_append_eq_none (hnone : readQuoted q.mark ']' t = none) (ht : t ≠ [])
    (hblank : EndsOff isBlank t) (hquote : EndsOff isQuoteMark t)
    (hopen : ∀ b, t = q.mark :: b → q.mark ∉ b → ¬ ClosesQuote q u) :
    readQuoted q.mark ']' (t ++ u) = none := by
  have hclose : isBlank ']' = false := by decide
  rw [← Option.not_isSome_iff_eq_none] at hnone ⊢
  obtain ⟨c, t, rfl⟩ := List.exists_cons_of_ne_nil ht
  by_cases hc : c = q.mark
  · subst hc
    rw [← closesQuote_iff] at hnone
    rw [List.cons_append, ← closesQuote_iff]
    by_cases hmem : q.mark ∈ t
    · rintro ⟨v, w, r, hv, hw, heq⟩
      obtain ⟨v', after, rfl, hv'⟩ := List.eq_append_cons_of_mem hmem
      obtain ⟨rfl, hafter⟩ := readsUniquely_enclosed q.mark v' v (after ++ u) (w ++ ']' :: r) hv' hv
        trivial trivial (by simpa using heq)
      have hne : skipBlanks after ≠ [] :=
        skipBlanks_ne_nil_of_endsOff (a := q.mark :: v') hblank hquote
      have hskip := congrArg skipBlanks hafter
      rw [skipBlanks_append_of_ne_nil hne, skipBlanks_run hw (startsOff_cons hclose r)] at hskip
      obtain ⟨d, rest, hrest⟩ := List.exists_cons_of_ne_nil hne
      rw [hrest] at hskip
      obtain ⟨rfl, -⟩ := List.cons.inj hskip
      obtain ⟨w', hw', hsplit⟩ := exists_blanks_skipBlanks after
      rw [hrest] at hsplit
      exact hnone ⟨v', w', rest, hv', hw', by rw [← hsplit]⟩
    · rw [closesQuote_append_left hmem]
      exact hopen t rfl hmem
  · simp [readQuoted, hc]

theorem readValue_append_of_not_closes (h : readValue t = some (v, r)) (hblank : EndsOff isBlank t)
    (hquote : EndsOff isQuoteMark t)
    (hopen : ∀ q b, t = Quote.mark q :: b → q.mark ∉ b → ¬ ClosesQuote q u) :
    readValue (t ++ u) = some (v, r ++ u) := by
  have hclose : isBlank ']' = false := by decide
  have ht : t ≠ [] := ne_nil_of_read rfl h
  have hnone (q : Quote) (hq : readQuoted q.mark ']' t = none) :=
    readQuoted_append_eq_none hq ht hblank hquote (hopen q)
  simp only [readValue, Option.orElse_eq_orElse, Option.orElse_eq_or, Option.or_eq_some_iff] at h ⊢
  rcases h with h | ⟨hdouble, h | ⟨hsingle, h⟩⟩
  · exact .inl (readQuoted_keepsReading hclose h u)
  · exact .inr ⟨hnone .double hdouble, .inl (readQuoted_keepsReading hclose h u)⟩
  · exact .inr ⟨hnone .double hdouble, .inr ⟨hnone .single hsingle, readBare_keepsReading h u⟩⟩

theorem readValue_append_of_closes (hb : q.mark ∉ b) (hu : ClosesQuote q u) :
    ∃ v r, readValue (q.mark :: b ++ u) = some (v, r) ∧ q.mark ∉ v := by
  obtain ⟨v, w, r, hv, hw, rfl⟩ := hu
  have hmark : q.mark ∉ b ++ v := by simp [hb, hv]
  refine ⟨b ++ v, r, ?_, hmark⟩
  simpa using readValue_quoted (r := r) hmark hw

theorem mark_mem_of_readValue (h : readValue (q.mark :: b) = some (v, r)) (hb : q.mark ∉ b) :
    q.mark ∈ v := by
  have hstart : StartsOff isBlank (q.mark :: b) := startsOff_cons (by cases q <;> decide) b
  obtain ⟨body, w, w', hbody, hw, hw', heq⟩ := readValue_sound h
  have hnil : w = [] := by
    cases w with
    | nil => rfl
    | cons c w =>
      cases heq
      have hc := hstart q.mark (by simp)
      rw [hw q.mark (by simp)] at hc
      cases hc
  subst hnil
  cases hbody with
  | quoted p hp =>
    -- Between two marks of its own the value would have met the second one behind the first.
    obtain ⟨hmark, hrest⟩ := List.cons.inj heq
    rw [hrest, hmark] at hb
    exact absurd (by simp) hb
  | bare =>
    cases v with
    | cons c v =>
      obtain ⟨rfl, -⟩ := List.cons.inj heq
      simp
    | nil =>
      have hhead : StartsOff isQuoteMark (q.mark :: b) := by
        rw [heq]
        exact startsOff_close (v := []) (by simp [StartsOff]) hw' (by decide)
      have hmark := hhead q.mark (by simp)
      cases q <;> cases hmark

end Values

section Rules

variable {q : Quote} {t u r : Text} {fragment : Fragment}

theorem equals_not_mem_open {w b : Text} (hw : Blanks w) :
    '=' ∉ (w ++ q.mark :: b).takeWhile isOperatorChar := by
  have hstop : StartsOff isOperatorChar (w ++ q.mark :: b) := by
    refine startsOff_blanks_append hw (fun c hc => ?_) (startsOff_cons ?_ b)
    · simp [isOperatorChar, hc]
    · cases q <;> decide
  exact fun hmem => absurd (mem_of_mem_takeWhile_append (t := []) hstop hmem) List.not_mem_nil

theorem attributeRule_append_of_not_closes (h : attributeRule t = some (fragment, r))
    (hblank : EndsOff isBlank t) (hquote : EndsOff isQuoteMark t)
    (hopen : ∀ q, OpensQuote q t → ¬ ClosesQuote q u) :
    attributeRule (t ++ u) = some (fragment, r ++ u) := by
  refine attributeRule_append_of_value h fun {n op head rest v} hhead ht _ hvalue => ?_
  obtain ⟨w, hw, hrest⟩ := exists_blanks_skipBlanks rest
  have hne : skipBlanks rest ≠ [] := ne_nil_of_read rfl hvalue
  have hends {p : Char → Bool} (hp : EndsOff p t) : EndsOff p (skipBlanks rest) := by
    rw [ht, hrest, ← List.append_assoc, endsOff_append hne] at hp
    exact hp
  refine readValue_append_of_not_closes hvalue (hends hblank) (hends hquote) fun q b hb hmark => ?_
  exact hopen q ⟨n, op, head, w, b, hhead, hw, hmark, by rw [ht, hrest, hb]⟩

theorem attributeRule_append_of_closes (h : attributeRule t = some (fragment, r))
    (hopen : OpensQuote q t) (hu : ClosesQuote q u) :
    ∃ other rest, attributeRule (t ++ u) = some (other, rest) ∧ other.isLink = false ∧
      other ≠ fragment := by
  obtain ⟨n, op, head, w, b, hhead, hw, hb, rfl⟩ := hopen
  have hskip (s : Text) : skipBlanks (w ++ q.mark :: s) = q.mark :: s :=
    skipBlanks_run hw (startsOff_cons (by cases q <;> decide) s)
  rw [hhead.attributeRule_append (equals_not_mem_open hw), hskip] at h
  obtain ⟨⟨v, r⟩, hvalue, hfragment⟩ := Option.map_eq_some_iff.mp h
  cases hfragment
  obtain ⟨v', r', hlonger, hv'⟩ := readValue_append_of_closes hb hu
  refine ⟨.attr n (some op) (some v'), r', ?_, rfl, ?_⟩
  · rw [List.append_assoc, List.append_assoc, List.cons_append,
      hhead.attributeRule_append (equals_not_mem_open hw), hskip, ← List.cons_append, hlonger]
    rfl
  · rintro heq
    cases heq
    exact hv' (mark_mem_of_readValue hvalue hb)

theorem OpensQuote.exists_cons (h : OpensQuote q t) : ∃ a, t = '[' :: a := by
  obtain ⟨n, op, head, w, b, ⟨-, -, -, -, -⟩, -, -, rfl⟩ := h
  exact ⟨_, by simp; rfl⟩

theorem leavesOpen_nil : ¬ LeavesOpen q [] := by
  rintro ⟨rest, hreads, hopen⟩
  obtain ⟨a, rfl⟩ := hopen.exists_cons
  cases hreads with
  | behind hmatch =>
    rw [firstMatch_nil] at hmatch
    cases hmatch

theorem leavesOpen_step (h : firstMatch t = some (fragment, r)) (hlink : fragment.isLink = false) :
    LeavesOpen q t ↔ OpensQuote q t ∨ LeavesOpen q r := by
  constructor
  · rintro ⟨rest, hreads, hopen⟩
    cases hreads with
    | here => exact .inl hopen
    | behind hmatch _ hrest =>
      cases h.symm.trans hmatch
      exact .inr ⟨rest, hrest, hopen⟩
  · rintro (hopen | ⟨rest, hreads, hopen⟩)
    · exact ⟨t, .here t, hopen⟩
    · exact ⟨rest, .behind h hlink hreads, hopen⟩

end Rules

section Scanning

variable {t u r : Text} {fragments more : List Fragment} {started : Bool}

theorem endsOff_of_append {p : Char → Bool} {a : Text} (h : EndsOff p (a ++ r)) : EndsOff p r := by
  by_cases hr : r = []
  · simp [hr, EndsOff]
  · exact (endsOff_append hr).mp h

theorem scan_eq_cons_iff {fragment first : Fragment} (h : firstMatch t = some (fragment, r))
    (hlink : fragment.isLink = false) :
    scan started t = .ok (first :: more) ↔ fragment = first ∧ scan true r = .ok more := by
  rw [scan_fragment h hlink]
  cases scan true r <;> simp

theorem scan_append_iff (h : scan started t = .ok fragments)
    (hlinks : ∀ f ∈ fragments, f.isLink = false) (hstarted : started = true ∨ fragments ≠ [])
    (hblank : EndsOff isBlank t) (hquote : EndsOff isQuoteMark t) (hu : Stops u)
    (hmore : scan true u = .ok more) :
    scan started (t ++ u) = .ok (fragments ++ more) ↔
      ∀ q, LeavesOpen q t → ¬ ClosesQuote q u := by
  induction fragments generalizing started t with
  | nil =>
    obtain rfl := eq_nil_of_scan h
    obtain rfl := hstarted.resolve_right (by simp)
    exact ⟨fun _ q hopen => absurd hopen leavesOpen_nil, fun _ => hmore⟩
  | cons first fragments ih =>
    obtain ⟨hlink, hlinks⟩ := List.forall_mem_cons.mp hlinks
    rcases scan_ok_cases h with ⟨-, hnil⟩ | ⟨kind, m, rest, -, -, -, hone⟩ |
      ⟨fragment, rest, others, hmatch, -, hrest, hcons⟩
    · cases hnil
    · obtain ⟨rfl, -⟩ := List.cons.inj hone
      cases hlink
    · cases hcons
      have hends {p : Char → Bool} (hp : EndsOff p t) : EndsOff p rest := by
        rcases firstMatch_sound hmatch with ⟨_, _, rfl, -⟩ | ⟨span, -, rfl, -⟩
        · cases hlink
        · exact endsOff_of_append hp
      by_cases hopen : ∀ q, OpensQuote q t → ¬ ClosesQuote q u
      · have hlonger := firstMatch_append_of_bracket hmatch hlink
          (fun hrule => attributeRule_append_of_not_closes hrule hblank hquote hopen)
          (head?_ne_paren_of_scan hrest) hu
        rw [List.cons_append, scan_eq_cons_iff hlonger hlink,
          ih hrest hlinks (.inl rfl) (hends hblank) (hends hquote)]
        simp only [true_and, leavesOpen_step hmatch hlink, or_imp, forall_and]
        exact ⟨fun hall => ⟨hopen, hall⟩, And.right⟩
      · push Not at hopen
        obtain ⟨q, hq, hclose⟩ := hopen
        obtain ⟨a, rfl⟩ := hq.exists_cons
        rw [firstMatch_bracket] at hmatch
        obtain ⟨other, after, hlonger, hother, hne⟩ :=
          attributeRule_append_of_closes hmatch hq hclose
        rw [List.cons_append, ← firstMatch_bracket] at hlonger
        rw [List.cons_append, List.cons_append, scan_eq_cons_iff hlonger hother]
        refine ⟨fun hsame => absurd hsame.1 hne, fun hall => ?_⟩
        exact absurd hclose (hall q ⟨_, .here _, hq⟩)

theorem endsOff_quoteMark_of_parseSelector {s : Text} (h : parseSelector s = .ok fragments)
    (hlinks : ∀ f ∈ fragments, f.isLink = false) : EndsOff isQuoteMark (trim s) := by
  obtain ⟨layout, rfl, htext⟩ := exists_layout_of_parseSelector h
  have htail : layout.tail = none := by
    cases htail : layout.tail with
    | none => rfl
    | some tail =>
      have hlink := hlinks tail.fragment (by simp [Layout.fragments, fragmentsOf, htail])
      cases hlink
  rw [← htext, Layout.text, textOf, htail, Option.elim_none, List.append_nil]
  refine endsOff_flatMap_span fun x _ => ?_
  exact x.spells.endsOff (fun _ => isQuoteMark_eq_false_of_isNameChar) (by decide)

end Scanning

theorem parseSelector_comma {x y : Text} {fragments : List Fragment}
    (h : parseSelector x = .ok fragments) (hne : fragments ≠ [])
    (hlinks : ∀ f ∈ fragments, f.isLink = false) (hy : trim y ≠ []) :
    parseSelector (x ++ ',' :: y) = .ok (fragments ++ [.link .multiple (trim y)]) ↔
      ∀ q, LeavesOpen q (trim x) → ¬ ClosesQuote q y := by
  obtain ⟨a, b, ha, hb, hxeq⟩ := eq_append_trim x
  obtain ⟨a', b', ha', hb', hyeq⟩ := eq_append_trim y
  have hscan := scan_eq_ok_of_parseSelector h
  have hx : trim x ≠ [] := by
    intro hnil
    rw [hnil, scan_nil] at hscan
    cases hscan
    exact hne rfl
  let tail : Tail := ⟨.multiple, trim y, _, .marked (by decide) hb ha', hy, trim_trim y⟩
  have hspan : tail.span = (b ++ ',' :: a') ++ trim y := by simp [tail, Combinator.symbol]
  have htext : trim (x ++ ',' :: y) = trim x ++ tail.span := by
    have hparts : x ++ ',' :: y = a ++ (trim x ++ tail.span) ++ b' := by
      rw [hspan]
      nth_rewrite 1 [hxeq, hyeq]
      simp
    rw [hparts]
    exact trim_blanks_append ha hb' (trim_append_eq_self hx (trim_trim x) tail.spells.ne_nil
      (tail.spells.endsOff_blank hy (trim_trim y)))
  have hcloses (q : Quote) : ClosesQuote q tail.span ↔ ClosesQuote q y := by
    have hmark {w : Text} (hw : Blanks w) : q.mark ∉ w := fun hmem =>
      absurd (hw _ hmem) (by cases q <;> decide)
    have hcomma : q.mark ∉ b ++ ',' :: a' := by
      have hother : q.mark ≠ ',' := Quote.mark_ne (by decide)
      simp [hmark hb, hmark ha', hother]
    rw [hspan, closesQuote_append_left hcomma]
    nth_rewrite 2 [hyeq]
    rw [List.append_assoc, closesQuote_append_left (hmark ha'), closesQuote_append_blanks hb']
  rw [parseSelector_ok_iff, htext, scan_append_iff hscan hlinks (.inr hne) (endsOff_trimEnd _)
    (endsOff_quoteMark_of_parseSelector h hlinks) tail.spells.stops
    (scan_link tail.firstMatch_span tail.nonempty)]
  simp only [hcloses]

theorem parseSelector_comma_kept :
    parseSelector "p[a=\"'\"][b= 'c] ,d[e=\"'f'\"]".toList =
      .ok [.element "p".toList, .attr "a".toList (some "=".toList) (some "'".toList),
        .attr "b".toList (some "=".toList) (some "'c".toList),
        .link .multiple "d[e=\"'f'\"]".toList] := by
  have hparse : parseSelector "p[a=\"'\"][b= 'c] ".toList =
      .ok [.element "p".toList, .attr "a".toList (some "=".toList) (some "'".toList),
        .attr "b".toList (some "=".toList) (some "'c".toList)] := by
    decide +kernel
  exact (parseSelector_comma (y := "d[e=\"'f'\"]".toList) hparse (by decide) (by decide)
    (by decide)).mpr fun q _ => by cases q <;> decide

theorem parseSelector_comma_swallowed :
    ¬ ∀ (x y : Text) (fragments : List Fragment), parseSelector x = .ok fragments →
      fragments ≠ [] → (∀ f ∈ fragments, f.isLink = false) → trim y ≠ [] →
      parseSelector (x ++ ',' :: y) = .ok (fragments ++ [.link .multiple (trim y)]) := by
  intro h
  have hcomma := h "[a='b]".toList "c']".toList
    [.attr "a".toList (some "=".toList) (some "'b".toList)] (by decide +kernel) (by decide)
    (by decide) (by decide)
  have hquoted : parseSelector ("[a='b]".toList ++ ',' :: "c']".toList) =
      .ok [.attr "a".toList (some "=".toList) (some "b],c".toList)] := by
    decide +kernel
  rw [hquoted] at hcomma
  cases hcomma

end SelectorXPath
