import SelectorXPath.Proofs.Characters
import SelectorXPath.XPath.PathTree

namespace SelectorXPath

def ReadsUniquely {α : Type} (valid : α → Prop) (follows : Text → Prop) (write : α → Text) : Prop :=
  ∀ a b r s, valid a → valid b → follows r → follows s → write a ++ r = write b ++ s →
    a = b ∧ r = s

section Forms

variable {α : Type} {valid : α → Prop} {follows : Text → Prop} {write : α → Text}

theorem readsUniquely_run (p : Char → Bool) :
    ReadsUniquely (fun t : Text => ∀ c ∈ t, p c = true) (StartsOff p) id := by
  intro a b r s ha hb hr hs h
  simp only [id_eq] at h
  constructor
  · rw [← takeWhile_run ha hr, h, takeWhile_run hb hs]
  · rw [← dropWhile_run ha hr, h, dropWhile_run hb hs]

theorem readsUniquely_enclosed (q : Char) :
    ReadsUniquely (fun t : Text => q ∉ t) (fun _ => True) (fun t => [q] ++ t ++ [q]) := by
  intro a b r s ha hb _ _ h
  simp only [List.append_assoc, List.singleton_append] at h
  have hrun := readsUniquely_run (· != q) a b (q :: r) (q :: s)
    (fun c hc => by simpa using ne_of_mem_of_not_mem hc ha)
    (fun c hc => by simpa using ne_of_mem_of_not_mem hc hb)
    (startsOff_cons (by simp) r) (startsOff_cons (by simp) s) (List.tail_eq_of_cons_eq h)
  obtain ⟨hab, hrs⟩ := hrun
  exact ⟨hab, List.tail_eq_of_cons_eq hrs⟩

theorem joinWith_cons (separator t : Text) (more : List Text) :
    joinWith separator (t :: more) =
      t ++ if more = [] then [] else separator ++ joinWith separator more := by
  cases more with
  | nil => simp [joinWith]
  | cons u more => simp [joinWith]

theorem ReadsUniquely.row (h : ReadsUniquely valid follows write) {c d : Char} {separator : Text}
    (hcd : c ≠ d) (hseparator : ∀ r, follows (c :: separator ++ r)) (hend : ∀ r, follows (d :: r)) :
    ReadsUniquely (fun xs : List α => xs ≠ [] ∧ ∀ x ∈ xs, valid x) (fun _ => True)
      (fun xs => joinWith (c :: separator) (xs.map write) ++ [d]) := by
  intro xs ys r s
  rintro ⟨hxs, hx⟩ ⟨hys, hy⟩ - - heq
  induction xs generalizing ys with
  | nil => exact absurd rfl hxs
  | cons x xs ih =>
    obtain ⟨y, ys, rfl⟩ := List.exists_cons_of_ne_nil hys
    simp only [List.mem_cons, forall_eq_or_imp] at hx hy
    simp only [List.map_cons, joinWith_cons, List.append_assoc, List.singleton_append] at heq
    have hfollows (zs : List α) (t : Text) :
        follows ((if zs.map write = [] then [] else
          c :: separator ++ joinWith (c :: separator) (zs.map write)) ++ d :: t) := by
      split
      · exact hend t
      · rw [List.append_assoc]
        exact hseparator _
    obtain ⟨rfl, hrest⟩ := h x y _ _ hx.1 hy.1 (hfollows xs r) (hfollows ys s) heq
    cases xs with
    | nil =>
      cases ys with
      | nil => simpa using hrest
      | cons y ys => simp [hcd.symm] at hrest
    | cons x' xs =>
      cases ys with
      | nil => simp [hcd] at hrest
      | cons y ys =>
        simp only [List.map_cons, reduceCtorEq, if_false, List.append_assoc,
          List.append_cancel_left_eq] at hrest
        have hmore := ih (y :: ys) (by simp) hx.2 (by simp) hy.2 (by simpa using hrest)
        exact ⟨congrArg _ hmore.1, hmore.2⟩

end Forms

section Literals

theorem not_mem_of_mem_splitOnChar {q : Char} {t piece : Text} (h : piece ∈ splitOnChar q t) :
    q ∉ piece := by
  induction t generalizing piece with
  | nil =>
    obtain rfl : piece = [] := by simpa [splitOnChar] using h
    exact List.not_mem_nil
  | cons c rest ih =>
    rw [splitOnChar] at h
    split at h
    · rcases List.mem_cons.mp h with rfl | hmore
      · exact List.not_mem_nil
      · exact ih hmore
    · rename_i hc
      split at h
      · rename_i first more hsplit
        rcases List.mem_cons.mp h with rfl | hmore
        · have hfirst : q ∉ first := ih (by simp [hsplit])
          simp [hfirst, Ne.symm hc]
        · exact ih (by simp [hsplit, hmore])
      · rename_i hsplit
        exact absurd hsplit (splitOnChar_ne_nil q rest)

theorem singleQuoted_reads :
    ReadsUniquely (fun t : Text => '\'' ∉ t) (fun _ => True) singleQuoted :=
  readsUniquely_enclosed '\''

theorem doubleQuoted_reads :
    ReadsUniquely (fun t : Text => '"' ∉ t) (fun _ => True) doubleQuoted :=
  readsUniquely_enclosed '"'

theorem pieces_reads :
    ReadsUniquely (fun _ : Text => True) (fun _ => True)
      (fun t => joinWith ", \"'\", ".toList ((splitOnChar '\'' t).map singleQuoted) ++ [')']) := by
  intro a b r s _ _ _ _ h
  have hvalid (t : Text) :
      splitOnChar '\'' t ≠ [] ∧ ∀ piece ∈ splitOnChar '\'' t, '\'' ∉ piece :=
    ⟨splitOnChar_ne_nil _ _, fun _ => not_mem_of_mem_splitOnChar⟩
  obtain ⟨hsplit, hrs⟩ := singleQuoted_reads.row (by decide : ',' ≠ ')') (fun _ => trivial)
    (fun _ => trivial) _ _ r s (hvalid a) (hvalid b) trivial trivial h
  refine ⟨?_, hrs⟩
  rw [← joinWith_splitOnChar '\'' a, hsplit, joinWith_splitOnChar]

theorem literal_cases (t : Text) :
    ('\'' ∉ t ∧ literal t = singleQuoted t) ∨ ('"' ∉ t ∧ literal t = doubleQuoted t) ∨
      literal t = "concat(".toList ++
        joinWith ", \"'\", ".toList ((splitOnChar '\'' t).map singleQuoted) ++ [')'] := by
  by_cases hs : '\'' ∈ t
  · by_cases hd : '"' ∈ t
    · exact .inr (.inr (by simp [literal, hs, hd]))
    · exact .inr (.inl ⟨hd, by simp [literal, hs, hd]⟩)
  · exact .inl ⟨hs, by simp [literal, hs]⟩

theorem literal_reads : ReadsUniquely (fun _ => True) (fun _ => True) literal := by
  intro a b r s _ _ _ _ h
  rcases literal_cases a with ⟨ha, hla⟩ | ⟨ha, hla⟩ | hla
  · rcases literal_cases b with ⟨hb, hlb⟩ | ⟨hb, hlb⟩ | hlb
    · rw [hla, hlb] at h
      exact singleQuoted_reads a b r s ha hb trivial trivial h
    · simp [hla, hlb, singleQuoted, doubleQuoted] at h
    · simp [hla, hlb, singleQuoted] at h
  · rcases literal_cases b with ⟨hb, hlb⟩ | ⟨hb, hlb⟩ | hlb
    · simp [hla, hlb, singleQuoted, doubleQuoted] at h
    · rw [hla, hlb] at h
      exact doubleQuoted_reads a b r s ha hb trivial trivial h
    · simp [hla, hlb, doubleQuoted] at h
  · rcases literal_cases b with ⟨hb, hlb⟩ | ⟨hb, hlb⟩ | hlb
    · simp [hla, hlb, singleQuoted] at h
    · simp [hla, hlb, doubleQuoted] at h
    · rw [hla, hlb, List.append_assoc, List.append_assoc, List.append_assoc, List.append_assoc,
        List.append_cancel_left_eq] at h
      refine pieces_reads a b r s trivial trivial trivial trivial ?_
      simpa only [List.append_assoc] using h

end Literals

section Predicates

def Predicate.Named : Predicate → Prop
  | .has name => IsName name
  | .equals name _ => IsName name
  | .differs name _ => IsName name
  | .hasClass _ => True
  | .textContains _ => True
  | .verbatim _ => False

def EndsPredicate (r : Text) : Prop := ∃ s, r = ']' :: s ∨ r = " and ".toList ++ s

theorem EndsPredicate.startsOff_name {r : Text} (h : EndsPredicate r) : StartsOff isNameChar r := by
  obtain ⟨s, rfl | rfl⟩ := h
  · exact startsOff_cons (by decide) _
  · exact startsOff_cons (by decide) _

theorem name_reads : ReadsUniquely IsName (StartsOff isNameChar) id :=
  fun a b r s ha hb => readsUniquely_run isNameChar a b r s ha.2 hb.2

namespace Predicate

def attribute? : Predicate → Option Text
  | .has name => some name
  | .equals name _ => some name
  | .differs name _ => some name
  | _ => none

def condition : Predicate → Text
  | .equals _ value => '=' :: literal value
  | .differs _ value => ' ' :: '!' :: '=' :: ' ' :: literal value
  | _ => []

variable {a b : Predicate} {n r s : Text}

theorem render_attribute (h : a.attribute? = some n) : a.render = '@' :: (n ++ a.condition) := by
  cases a <;> simp_all [attribute?, condition]

theorem exists_render_eq_cons (ha : a.Named) (h : a.attribute? = none) :
    ∃ t, a.render = 'c' :: t := by
  cases a with
  | hasClass name => exact ⟨_, by simp; rfl⟩
  | textContains text => exact ⟨_, by simp; rfl⟩
  | verbatim => exact ha.elim
  | _ => cases h

theorem Named.isName (ha : a.Named) (h : a.attribute? = some n) : IsName n := by
  cases a <;> simp_all [attribute?, Named]

theorem startsOff_condition (a : Predicate) (hr : EndsPredicate r) :
    StartsOff isNameChar (a.condition ++ r) := by
  cases a with
  | equals _ v => exact startsOff_cons (by decide) _
  | differs _ v => exact startsOff_cons (by decide) _
  | _ => exact hr.startsOff_name

theorem condition_reads (ha : a.attribute? = some n) (hb : b.attribute? = some n)
    (hr : EndsPredicate r) (hs : EndsPredicate s) (h : a.condition ++ r = b.condition ++ s) :
    a = b ∧ r = s := by
  have hne {t : Text} (ht : EndsPredicate t) (u : Text) :
      t ≠ '=' :: u ∧ t ≠ ' ' :: '!' :: '=' :: ' ' :: u := by
    obtain ⟨s, rfl | rfl⟩ := ht <;> simp
  have hliteral {v w : Text} (h : literal v ++ r = literal w ++ s) : v = w ∧ r = s :=
    literal_reads v w r s trivial trivial trivial trivial h
  cases a with
  | has =>
    obtain rfl := Option.some.inj ha
    cases b with
    | has =>
      obtain rfl := Option.some.inj hb
      exact ⟨rfl, h⟩
    | equals => exact absurd h (hne hr _).1
    | differs => exact absurd h (hne hr _).2
    | _ => cases hb
  | equals _ v =>
    obtain rfl := Option.some.inj ha
    cases b with
    | has => exact absurd h.symm (hne hs _).1
    | equals _ w =>
      obtain rfl := Option.some.inj hb
      obtain ⟨rfl, hrs⟩ := hliteral (List.tail_eq_of_cons_eq h)
      exact ⟨rfl, hrs⟩
    | differs => simp [condition] at h
    | _ => cases hb
  | differs _ v =>
    obtain rfl := Option.some.inj ha
    cases b with
    | has => exact absurd h.symm (hne hs _).2
    | equals => simp [condition] at h
    | differs _ w =>
      obtain rfl := Option.some.inj hb
      obtain ⟨rfl, hrs⟩ : v = w ∧ r = s := hliteral (by simpa [condition] using h)
      exact ⟨rfl, hrs⟩
    | _ => cases hb
  | _ => cases ha

theorem function_reads (ha : a.Named) (hb : b.Named) (hna : a.attribute? = none)
    (hnb : b.attribute? = none) (h : a.render ++ r = b.render ++ s) : a = b ∧ r = s := by
  have hcall {v w : Text} (h : literal v ++ (')' :: r) = literal w ++ (')' :: s)) :
      v = w ∧ r = s := by
    obtain ⟨hvw, hrs⟩ := literal_reads v w _ _ trivial trivial trivial trivial h
    exact ⟨hvw, List.tail_eq_of_cons_eq hrs⟩
  cases a with
  | hasClass n =>
    cases b with
    | hasClass n' =>
      obtain ⟨hpadded, hrs⟩ : [' '] ++ n ++ [' '] = [' '] ++ n' ++ [' '] ∧ r = s :=
        hcall (by simpa using h)
      exact ⟨by simpa using hpadded, hrs⟩
    | textContains => simp at h
    | verbatim => exact hb.elim
    | _ => cases hnb
  | textContains t =>
    cases b with
    | hasClass => simp at h
    | textContains u =>
      obtain ⟨rfl, hrs⟩ : t = u ∧ r = s := hcall (by simpa using h)
      exact ⟨rfl, hrs⟩
    | verbatim => exact hb.elim
    | _ => cases hnb
  | verbatim => exact ha.elim
  | _ => cases hna

theorem render_reads : ReadsUniquely Named EndsPredicate render := by
  intro a b r s ha hb hr hs h
  cases hna : a.attribute? with
  | none =>
    cases hnb : b.attribute? with
    | none => exact function_reads ha hb hna hnb h
    | some n =>
      obtain ⟨t, ht⟩ := exists_render_eq_cons ha hna
      simp [ht, render_attribute hnb] at h
  | some n =>
    cases hnb : b.attribute? with
    | none =>
      obtain ⟨t, ht⟩ := exists_render_eq_cons hb hnb
      simp [ht, render_attribute hna] at h
    | some n' =>
      rw [render_attribute hna, render_attribute hnb, List.cons_append, List.cons_append,
        List.append_assoc, List.append_assoc] at h
      obtain ⟨rfl, hconditions⟩ := name_reads n n' _ _ (ha.isName hna) (hb.isName hnb)
        (a.startsOff_condition hr) (b.startsOff_condition hs) (List.tail_eq_of_cons_eq h)
      exact condition_reads hna hnb hr hs hconditions

end Predicate

theorem renderPredicates_reads :
    ReadsUniquely (fun ps : List Predicate => ∀ p ∈ ps, p.Named) (StartsOff (· == '['))
      PathTree.renderPredicates := by
  intro ps qs r s hps hqs hr hs h
  cases ps with
  | nil =>
    cases qs with
    | nil => exact ⟨rfl, h⟩
    | cons q qs =>
      obtain rfl : r = PathTree.renderPredicates (q :: qs) ++ s := h
      simp [StartsOff, PathTree.renderPredicates] at hr
  | cons p ps =>
    cases qs with
    | nil =>
      obtain rfl : s = PathTree.renderPredicates (p :: ps) ++ r := h.symm
      simp [StartsOff, PathTree.renderPredicates] at hs
    | cons q qs =>
      have hrow := Predicate.render_reads.row (by decide : ' ' ≠ ']')
        (fun r => ⟨r, .inr rfl⟩ : ∀ r, EndsPredicate (' ' :: "and ".toList ++ r))
        (fun r => ⟨r, .inl rfl⟩)
      refine hrow _ _ r s ⟨by simp, hps⟩ ⟨by simp, hqs⟩ trivial trivial ?_
      simpa [PathTree.renderPredicates] using h

end Predicates

end SelectorXPath
