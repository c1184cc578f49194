import SelectorXPath.Proofs.Branches
import SelectorXPath.Proofs.Levels
import SelectorXPath.Proofs.StringFunctions

namespace SelectorXPath

structure IsWord (v : Text) : Prop where
  ne_nil : v ≠ []
  solid : ∀ c ∈ v, isXmlSpace c = false

structure IsToken (t v : Text) : Prop where
  word : IsWord v
  maximal : ∃ p q, t = p ++ v ++ q ∧ EndsOff (fun c => !isXmlSpace c) p ∧
    StartsOff (fun c => !isXmlSpace c) q

def Heads (v t : Text) : Prop := ∃ b, isXmlSpace b = true ∧ v ++ [b] <+: t

def Framed (v t : Text) : Prop :=
  ∃ a b, isXmlSpace a = true ∧ isXmlSpace b = true ∧ a :: v ++ [b] <:+: t

section Frames

variable {v t : Text} {c x : Char}

theorem heads_nil_iff : Heads [] (c :: t) ↔ isXmlSpace c = true := by
  constructor
  · rintro ⟨b, hb, h⟩
    obtain ⟨rfl, -⟩ := List.cons_prefix_cons.mp h
    exact hb
  · intro hc
    exact ⟨c, hc, List.cons_prefix_cons.mpr ⟨rfl, List.nil_prefix⟩⟩

theorem heads_cons_iff : Heads (x :: v) (c :: t) ↔ x = c ∧ Heads v t := by
  simp only [Heads, List.cons_append, List.cons_prefix_cons]
  constructor
  · rintro ⟨b, hb, hx, h⟩
    exact ⟨hx, b, hb, h⟩
  · rintro ⟨hx, b, hb, h⟩
    exact ⟨b, hb, hx, h⟩

theorem not_heads_space (hv : IsWord v) (hc : isXmlSpace c = true) : ¬ Heads v (c :: t) := by
  obtain ⟨hne, hsolid⟩ := hv
  obtain ⟨x, v, rfl⟩ := List.exists_cons_of_ne_nil hne
  rw [heads_cons_iff]
  rintro ⟨rfl, -⟩
  rw [hsolid x (by simp)] at hc
  cases hc

theorem framed_cons_iff :
    Framed v (c :: t) ↔ (isXmlSpace c = true ∧ Heads v t) ∨ Framed v t := by
  constructor
  · rintro ⟨a, b, ha, hb, h⟩
    rcases List.infix_cons_iff.mp h with h | h
    · obtain ⟨rfl, hrest⟩ := List.cons_prefix_cons.mp h
      exact .inl ⟨ha, b, hb, hrest⟩
    · exact .inr ⟨a, b, ha, hb, h⟩
  · rintro (⟨hc, b, hb, h⟩ | ⟨a, b, ha, hb, h⟩)
    · exact ⟨c, b, hc, hb, (List.cons_prefix_cons.mpr ⟨rfl, h⟩).isInfix⟩
    · exact ⟨a, b, ha, hb, h.trans (List.suffix_cons c t).isInfix⟩

theorem framed_reverse : Framed v.reverse t.reverse ↔ Framed v t := by
  have hturn {v t : Text} (h : Framed v t) : Framed v.reverse t.reverse := by
    obtain ⟨a, b, ha, hb, h⟩ := h
    exact ⟨b, a, hb, ha, by simpa using List.reverse_infix.mpr h⟩
  refine ⟨fun h => ?_, hturn⟩
  simpa using hturn h

end Frames

section Normalizing

variable {v t a : Text} {c x : Char}

theorem isXmlSpace_spaceOut (c : Char) : isXmlSpace (spaceOut c) = isXmlSpace c := by
  rw [spaceOut]
  split
  · next hc => rw [hc]; rfl
  · rfl

theorem eq_spaceOut_iff (hx : isXmlSpace x = false) : x = spaceOut c ↔ x = c := by
  rw [spaceOut]
  split
  · next hc =>
    constructor
    · rintro rfl
      cases hx
    · rintro rfl
      rw [hc] at hx
      cases hx
  · rfl

theorem heads_collapseSpaces (hv : ∀ c ∈ v, isXmlSpace c = false) :
    Heads v (collapseSpaces t ++ [' ']) ↔ Heads v (t ++ [' ']) := by
  fun_induction collapseSpaces t generalizing v with
  | case1 => rfl
  | case2 c =>
    cases v with
    | nil => simp [heads_nil_iff, isXmlSpace_spaceOut]
    | cons x v => simp [heads_cons_iff, eq_spaceOut_iff (hv x (by simp))]
  | case3 c d t hspaces ih =>
    rw [Bool.and_eq_true] at hspaces
    cases v with
    | nil => simp [ih hv, heads_nil_iff, hspaces]
    | cons x v =>
      have hword : IsWord (x :: v) := ⟨by simp, hv⟩
      simp [ih hv, not_heads_space hword hspaces.1, not_heads_space hword hspaces.2]
  | case4 c d t _ ih =>
    cases v with
    | nil => simp [heads_nil_iff, isXmlSpace_spaceOut]
    | cons x v =>
      obtain ⟨hx, hv⟩ := List.forall_mem_cons.mp hv
      simp only [List.cons_append, heads_cons_iff, eq_spaceOut_iff hx] at ih ⊢
      rw [ih hv]

theorem framed_collapseSpaces (hv : IsWord v) :
    Framed v (collapseSpaces t ++ [' ']) ↔ Framed v (t ++ [' ']) := by
  fun_induction collapseSpaces t with
  | case1 => rfl
  | case2 c => simp [framed_cons_iff, isXmlSpace_spaceOut]
  | case3 c d t hspaces ih =>
    rw [Bool.and_eq_true] at hspaces
    simp [ih, framed_cons_iff (c := c), not_heads_space hv hspaces.2]
  | case4 c d t _ ih =>
    simp only [List.cons_append, framed_cons_iff (t := collapseSpaces (d :: t) ++ [' ']),
      isXmlSpace_spaceOut, heads_collapseSpaces hv.solid, ih]
    exact framed_cons_iff.symm

theorem framed_spaces_append (hv : IsWord v) (ha : ∀ c ∈ a, isXmlSpace c = true) :
    Framed v (' ' :: (a ++ t)) ↔ Framed v (' ' :: t) := by
  induction a with
  | nil => rfl
  | cons c a ih =>
    obtain ⟨hc, ha⟩ := List.forall_mem_cons.mp ha
    have hspace : isXmlSpace ' ' = true := rfl
    rw [← ih ha, List.cons_append, framed_cons_iff, framed_cons_iff (c := c),
      framed_cons_iff (c := ' ')]
    simp [not_heads_space hv hc, hc, hspace]

theorem framed_append_spaces (hv : IsWord v) (ha : ∀ c ∈ a, isXmlSpace c = true) :
    Framed v (' ' :: (t ++ a ++ [' '])) ↔ Framed v (' ' :: (t ++ [' '])) := by
  have hturned : IsWord v.reverse :=
    ⟨by simpa using hv.ne_nil, fun c hc => hv.solid c (List.mem_reverse.mp hc)⟩
  have hspaces := framed_spaces_append (t := t.reverse ++ [' ']) hturned (a := a.reverse)
    fun c hc => ha c (List.mem_reverse.mp hc)
  rw [← framed_reverse, ← framed_reverse (t := ' ' :: (t ++ [' ']))]
  simpa using hspaces

theorem framed_stripSpaces (hv : IsWord v) (t : Text) :
    Framed v (' ' :: (stripSpaces t ++ [' '])) ↔ Framed v (' ' :: (t ++ [' '])) := by
  have hfront : ∀ c ∈ t.takeWhile isXmlSpace, isXmlSpace c = true :=
    fun c hc => List.mem_takeWhile_imp hc
  have hback : ∀ c ∈ (t.dropWhile isXmlSpace).rtakeWhile isXmlSpace, isXmlSpace c = true :=
    fun c hc => List.mem_rtakeWhile_imp hc
  rw [← framed_append_spaces hv hback, stripSpaces, List.rdropWhile_append_rtakeWhile,
    ← framed_spaces_append hv hfront, ← List.append_assoc, List.takeWhile_append_dropWhile]

theorem eq_space_of_mem_collapseSpaces (h : c ∈ collapseSpaces t) (hc : isXmlSpace c = true) :
    c = ' ' := by
  have hout {d : Char} (hd : c = spaceOut d) : c = ' ' := by
    rw [hd, isXmlSpace_spaceOut] at hc
    rw [hd, spaceOut, if_pos hc]
  fun_induction collapseSpaces t with
  | case1 => simp at h
  | case2 d => exact hout (List.mem_singleton.mp h)
  | case3 d e t _ ih => exact ih h
  | case4 d e t _ ih =>
    rcases List.mem_cons.mp h with h | h
    · exact hout h
    · exact ih h

end Normalizing

section Tokens

variable {t v : Text}

theorem endsOff_solid_iff {p : Text} :
    EndsOff (fun c => !isXmlSpace c) p ↔ ∃ p' a, ' ' :: p = p' ++ [a] ∧ isXmlSpace a = true := by
  constructor
  · intro hp
    refine ⟨_, _, (List.dropLast_append_getLast (List.cons_ne_nil ' ' p)).symm, ?_⟩
    by_cases hnil : p = []
    · subst hnil
      rfl
    · rw [List.getLast_cons hnil]
      simpa using hp _ (List.getLast?_eq_some_getLast hnil)
  · rintro ⟨p', a, heq, ha⟩ c hc
    have hlast : (' ' :: p).getLast? = some c := by
      rw [List.getLast?_cons, Option.mem_def.mp hc, Option.getD_some]
    rw [heq, List.getLast?_concat] at hlast
    cases hlast
    simp [ha]

theorem startsOff_solid_iff {q : Text} :
    StartsOff (fun c => !isXmlSpace c) q ↔ ∃ b q', q ++ [' '] = b :: q' ∧ isXmlSpace b = true := by
  cases q with
  | nil => exact iff_of_true (by simp [StartsOff]) ⟨' ', [], rfl, rfl⟩
  | cons c q =>
    constructor
    · intro hq
      exact ⟨c, q ++ [' '], rfl, by simpa using hq c rfl⟩
    · rintro ⟨b, q', heq, hb⟩
      cases heq
      exact startsOff_cons (by simp [hb]) q

theorem isToken_iff_framed (hv : IsWord v) : IsToken t v ↔ Framed v (' ' :: (t ++ [' '])) := by
  constructor
  · rintro ⟨-, p, q, rfl, hp, hq⟩
    obtain ⟨p', a, hp', ha⟩ := endsOff_solid_iff.mp hp
    obtain ⟨b, q', hq', hb⟩ := startsOff_solid_iff.mp hq
    refine ⟨a, b, ha, hb, p', q', ?_⟩
    calc p' ++ (a :: v ++ [b]) ++ q' = (p' ++ [a]) ++ (v ++ (b :: q')) := by simp
      _ = ' ' :: (p ++ v ++ q ++ [' ']) := by rw [← hp', ← hq']; simp
  · rintro ⟨a, b, ha, hb, p', q', heq⟩
    obtain ⟨c, p, hp⟩ := List.exists_cons_of_ne_nil (List.concat_ne_nil a p')
    obtain ⟨q, d, hq⟩ : ∃ q d, b :: q' = q ++ [d] :=
      ⟨_, _, (List.dropLast_append_getLast (List.cons_ne_nil b q')).symm⟩
    have hends : c :: (p ++ v ++ q ++ [d]) = ' ' :: (t ++ [' ']) := by
      calc c :: (p ++ v ++ q ++ [d]) = (c :: p) ++ (v ++ (q ++ [d])) := by simp
        _ = p' ++ (a :: v ++ [b]) ++ q' := by rw [← hp, ← hq]; simp
        _ = ' ' :: (t ++ [' ']) := heq
    obtain ⟨rfl, hrest⟩ := List.cons.inj hends
    obtain ⟨rfl, hlast⟩ := List.append_inj' hrest rfl
    cases hlast
    exact ⟨hv, p, q, rfl, endsOff_solid_iff.mpr ⟨p', a, by simpa using hp.symm, ha⟩,
      startsOff_solid_iff.mpr ⟨b, q', hq.symm, hb⟩⟩

theorem framed_iff_padded (ht : ∀ c ∈ t, isXmlSpace c = true → c = ' ') :
    Framed v t ↔ ' ' :: v ++ [' '] <:+: t := by
  constructor
  · rintro ⟨a, b, ha, hb, h⟩
    obtain rfl := ht a (h.subset (by simp)) ha
    obtain rfl := ht b (h.subset (by simp)) hb
    exact h
  · exact fun h => ⟨' ', ' ', rfl, rfl, h⟩

theorem infix_normalized_iff_isToken (hv : IsWord v) (t : Text) :
    ' ' :: v ++ [' '] <:+: ' ' :: (collapseSpaces (stripSpaces t) ++ [' ']) ↔ IsToken t v := by
  have hsingle : ∀ c ∈ ' ' :: (collapseSpaces (stripSpaces t) ++ [' ']),
      isXmlSpace c = true → c = ' ' := by
    intro c hc hspace
    rcases List.mem_cons.mp hc with rfl | hc
    · rfl
    · rcases List.mem_append.mp hc with hc | hc
      · exact eq_space_of_mem_collapseSpaces hc hspace
      · exact List.mem_singleton.mp hc
  calc ' ' :: v ++ [' '] <:+: ' ' :: (collapseSpaces (stripSpaces t) ++ [' '])
    _ ↔ Framed v (' ' :: (collapseSpaces (stripSpaces t) ++ [' '])) :=
      (framed_iff_padded hsingle).symm
    _ ↔ Framed v (' ' :: (stripSpaces t ++ [' '])) := by
      rw [framed_cons_iff, heads_collapseSpaces hv.solid, framed_collapseSpaces hv,
        ← framed_cons_iff]
    _ ↔ Framed v (' ' :: (t ++ [' '])) := framed_stripSpaces hv t
    _ ↔ IsToken t v := (isToken_iff_framed hv).symm

end Tokens

section Tests

variable {n : Text} {c : Char}

theorem isXmlSpace_eq_false_of_isNameChar (h : isNameChar c = true) : isXmlSpace c = false := by
  cases hspace : isXmlSpace c with
  | false => rfl
  | true =>
    simp only [isXmlSpace, Bool.or_eq_true, beq_iff_eq] at hspace
    rcases hspace with ((rfl | rfl) | rfl) | rfl <;> exact absurd h (by decide)

theorem IsName.isWord (h : IsName n) : IsWord n :=
  ⟨h.1, fun c hc => isXmlSpace_eq_false_of_isNameChar (h.2 c hc)⟩

theorem IsName.apostrophe_not_mem (h : IsName n) : '\'' ∉ [' '] ++ n ++ [' '] := by
  intro hmem
  have hname : '\'' ∈ n := by simpa using hmem
  exact absurd (h.2 _ hname) (by decide)

def space : StringTerm := .literal ⟨.single, [' '], by decide⟩

def classTest (n : Text) (h : IsName n) : ContainsTest where
  whole := .concat space (.normalizeSpace (.attr "class".toList (by decide))) [space]
  part := .literal ⟨.single, [' '] ++ n ++ [' '], h.apostrophe_not_mem⟩

theorem text_classTest (h : IsName n) : (classTest n h).text = (Predicate.hasClass n).render := by
  have hquoted : literal ([' '] ++ n ++ [' ']) = singleQuoted ([' '] ++ n ++ [' ']) := by
    rw [literal, if_pos (by simpa using h.apostrophe_not_mem)]
  rw [Predicate.render_hasClass, hquoted]
  rfl

theorem holds_classTest_iff (h : IsName n) {element : Element} {a : Text}
    (ha : element "class".toList = some a) :
    (classTest n h).holds element = true ↔ IsToken a n := by
  have hwhole : (classTest n h).whole.value element =
      ' ' :: (collapseSpaces (stripSpaces a) ++ [' ']) := by
    simp only [classTest, space, StringTerm.value, StringTerm.values, ha, Option.getD_some]
    rfl
  have hpart : (classTest n h).part.value element = ' ' :: n ++ [' '] := by
    simp [classTest, StringTerm.value]
  rw [ContainsTest.holds, decide_eq_true_iff, hwhole, hpart, infix_normalized_iff_isToken h.isWord]

end Tests

section Selectors

variable {s n : Text} {fragments : List Fragment}

theorem isName_of_className_mem (h : parseSelector s = .ok fragments)
    (hn : .className n ∈ fragments) : IsName n := by
  rcases PathTree.spellable_of_parseSelector h _ hn with hlink | ⟨span, hspells⟩
  · cases hlink
  · cases hspells with
    | className hn => exact hn

theorem Builds.predicates_eq {levels : Nat} {anchor : Anchor} {tree : PathTree}
    (h : Builds levels s anchor tree) (hs : parseSelector s = .ok fragments) :
    tree.predicates = fragments.filterMap Fragment.predicate? := by
  have hnode {level : Level} (hread : readLevel s = .ok level) :
      (PathTree.node anchor level).predicates = fragments.filterMap Fragment.predicate? := by
    obtain ⟨others, hparse, -, rfl⟩ := readLevel_ok_iff.mp hread
    cases hs.symm.trans hparse
    have hcut := congrArg (List.filterMap Fragment.predicate?) (fragments_eq_of_parseSelector hs)
    rw [hcut, List.filterMap_append]
    cases linkOf fragments <;>
      simp [PathTree.node, PathTree.extend, PathTree.empty, Fragment.predicate?]
  cases h with
  | compound hread => exact hnode hread
  | union hread => exact hnode hread
  | step hread => exact hnode hread

theorem class_test_iff_token (h : parseSelector s = .ok fragments)
    (hn : .className n ∈ fragments) :
    (∀ anchor tree, PathTree.ofSelector s anchor = .ok tree → .hasClass n ∈ tree.predicates) ∧
      ∃ test : ContainsTest,
        (∀ other : ContainsTest, other.text = (Predicate.hasClass n).render ↔ other = test) ∧
        ∀ (element : Element) (a : Text), element "class".toList = some a →
          (test.holds element = true ↔ IsToken a n) := by
  have hname := isName_of_className_mem h hn
  refine ⟨fun anchor tree htree => ?_, classTest n hname, fun other => ⟨fun htext => ?_, ?_⟩,
    fun element a ha => holds_classTest_iff hname ha⟩
  · have hbuilds := ofSelectorWithin_eq_ok_iff.mp htree
    rw [hbuilds.predicates_eq h]
    exact List.mem_filterMap.mpr ⟨_, hn, rfl⟩
  · exact ContainsTest.text_inj (htext.trans (text_classTest hname).symm)
  · rintro rfl
    exact text_classTest hname

theorem class_test_iff_token_accented :
    parseSelector "p.é-x > q".toList =
        .ok [.element "p".toList, .className "é-x".toList, .link .child "q".toList] ∧
      IsToken "é-x2\t\né-x \r".toList "é-x".toList ∧ ¬ IsToken "é-x2 é -x".toList "é-x".toList := by
  have hparse : parseSelector "p.é-x > q".toList =
      .ok [.element "p".toList, .className "é-x".toList, .link .child "q".toList] := by
    decide +kernel
  obtain ⟨-, test, hread, hholds⟩ := class_test_iff_token hparse (n := "é-x".toList) (by decide)
  obtain rfl := (hread (classTest "é-x".toList (by decide))).mp (text_classTest _)
  refine ⟨hparse, ?_, ?_⟩
  · exact (hholds (fun _ => some "é-x2\t\né-x \r".toList) _ rfl).mp (by decide +kernel)
  · rw [← hholds (fun _ => some "é-x2 é -x".toList) _ rfl]
    decide +kernel

end Selectors

end SelectorXPath
