import SelectorXPath.Proofs.ScanCompleteness
import SelectorXPath.Proofs.ScanSoundness

namespace SelectorXPath

open Grammar

variable {α β : Type}

def IgnoresRest (read : Text → Option (α × Text)) : Prop :=
  ∀ ⦃t u r v⦄, read (t ++ u) = some (v, r ++ u) → read t = some (v, r)

def KeepsReading (read : Text → Option (α × Text)) : Prop :=
  ∀ ⦃t r v⦄, read t = some (v, r) → ∀ u, read (t ++ u) = some (v, r ++ u)

section Combining

variable {read other : Text → Option (α × Text)}

theorem IgnoresRest.orElse (h : IgnoresRest read) (hk : KeepsReading read)
    (ho : IgnoresRest other) : IgnoresRest fun t => read t <|> other t := by
  intro t u r v hread
  simp only [Option.orElse_eq_orElse, Option.orElse_eq_or, Option.or_eq_some_iff] at hread ⊢
  rcases hread with hread | ⟨hnone, hread⟩
  · exact .inl (h hread)
  · refine .inr ⟨?_, ho hread⟩
    cases hshort : read t with
    | none => rfl
    | some found =>
      rw [hk hshort u] at hnone
      cases hnone

theorem IgnoresRest.map (h : IgnoresRest read) (f : α → β) :
    IgnoresRest fun t => (read t).map fun found => (f found.1, found.2) := by
  intro t u r v hmap
  obtain ⟨⟨w, rest⟩, hread, heq⟩ := Option.map_eq_some_iff.mp hmap
  cases heq
  simp only [h hread, Option.map_some]

theorem KeepsReading.map (h : KeepsReading read) (f : α → β) :
    KeepsReading fun t => (read t).map fun found => (f found.1, found.2) := by
  intro t r v hmap u
  obtain ⟨⟨w, rest⟩, hread, heq⟩ := Option.map_eq_some_iff.mp hmap
  cases heq
  simp only [h hread u, Option.map_some]

end Combining

section Readers

variable {a b t u v r op : Text} {q close : Char} {stop : Char → Bool}

theorem exists_append_of_suffix (h : r ++ u <:+ t) : ∃ s, t = s ++ u := by
  obtain ⟨front, rfl⟩ := h
  exact ⟨front ++ r, by simp⟩

theorem skipBlanks_suffix (t : Text) : skipBlanks t <:+ t := List.dropWhile_suffix isBlank

theorem readValue_suffix (h : readValue t = some (v, r)) : r <:+ t := by
  obtain ⟨body, a, b, -, -, -, rfl⟩ := readValue_sound h
  exact ⟨a ++ body ++ b ++ [']'], by simp⟩

theorem readArgument_suffix {argument : Option Text} (h : readArgument t = some (argument, r)) :
    r <:+ t := by
  rcases readArgument_sound h with ⟨-, w, -, rfl⟩ | ⟨v, body, a, b, -, -, -, -, rfl⟩
  · exact ⟨w ++ [')'], by simp⟩
  · exact ⟨a ++ body ++ b ++ [')'], by simp⟩

theorem skipBlanks_append_of_ne_nil (h : skipBlanks a ≠ []) :
    skipBlanks (a ++ u) = skipBlanks a ++ u := by
  obtain ⟨w, hw, ha⟩ := exists_blanks_skipBlanks a
  have hstart : StartsOff isBlank (skipBlanks a ++ u) :=
    (startsOff_append h).mpr startsOff_dropWhile
  have hskip := skipBlanks_run hw hstart
  rwa [← List.append_assoc, ← ha] at hskip

theorem skipBlanks_of_append (h : skipBlanks (a ++ u) = b ++ u) : skipBlanks a = b := by
  by_cases hnil : skipBlanks a = []
  · have hblank : ∀ c ∈ a, isBlank c = true := List.dropWhile_eq_nil_iff.mp hnil
    rw [skipBlanks, List.dropWhile_append_of_pos hblank] at h
    have hlength := length_skipBlanks_le u
    rw [skipBlanks, h, List.length_append] at hlength
    rw [hnil, List.eq_nil_of_length_eq_zero (by omega : b.length = 0)]
  · rw [skipBlanks_append_of_ne_nil hnil] at h
    exact List.append_cancel_right h

theorem readName_ignoresRest : IgnoresRest readName := by
  intro t u r v h
  obtain ⟨heq, hn, hstop⟩ := readName_sound h
  rw [← List.append_assoc] at heq
  obtain rfl := List.append_cancel_right heq
  exact readName_run hn (startsOff_of_initial (List.prefix_append r u) hstop)

theorem mem_takeWhile_append {p : Char → Bool} {c : Char} (u : Text) (h : c ∈ t.takeWhile p) :
    c ∈ (t ++ u).takeWhile p := by
  rw [List.takeWhile_append]
  split
  · exact List.mem_append_left _ (List.takeWhile_subset _ h)
  · exact h

theorem readQuoted_iff (hc : isBlank close = false) :
    readQuoted q close t = some (v, r) ↔
      ∃ w, Blanks w ∧ q ∉ v ∧ t = q :: v ++ [q] ++ w ++ close :: r := by
  constructor
  · exact readQuoted_sound
  · rintro ⟨w, hw, hq, rfl⟩
    simpa using readQuoted_run (r := r) hq hw hc

theorem readQuoted_ignoresRest (hc : isBlank close = false) :
    IgnoresRest (readQuoted q close) := by
  intro t u r v h
  obtain ⟨w, hw, hq, heq⟩ := (readQuoted_iff hc).mp h
  refine (readQuoted_iff hc).mpr ⟨w, hw, hq, ?_⟩
  rw [← List.cons_append, ← List.append_assoc] at heq
  exact List.append_cancel_right heq

theorem readQuoted_keepsReading (hc : isBlank close = false) :
    KeepsReading (readQuoted q close) := by
  intro t r v h u
  obtain ⟨w, hw, hq, rfl⟩ := (readQuoted_iff hc).mp h
  exact (readQuoted_iff hc).mpr ⟨w, hw, hq, by simp⟩

theorem readBare_iff :
    readBare stop close t = some (v, r) ↔
      ∃ run, (∀ c ∈ run, stop c = false) ∧ stop close = true ∧ v = trim run ∧
        t = run ++ close :: r := by
  constructor
  · intro h
    unfold readBare at h
    split at h
    · cases h
    · next c rest hdrop =>
      split at h
      · next hclose =>
        cases h
        have hstop := startsOff_dropWhile (p := fun c => !stop c) (t := t) c (by rw [hdrop]; rfl)
        refine ⟨t.takeWhile fun c => !stop c, ?_, ?_, rfl, ?_⟩
        · intro d hd
          simpa using List.mem_takeWhile_imp hd
        · simpa [hclose] using hstop
        · rw [← hclose, ← hdrop, List.takeWhile_append_dropWhile]
      · cases h
  · rintro ⟨run, hrun, hclose, rfl, rfl⟩
    have hin : ∀ c ∈ run, (!stop c) = true := fun c hc => by simp [hrun c hc]
    have hstop : StartsOff (fun c => !stop c) (close :: r) := by simp [StartsOff, hclose]
    rw [readBare, dropWhile_run hin hstop, takeWhile_run hin hstop]
    simp

theorem readBare_ignoresRest : IgnoresRest (readBare stop close) := by
  intro t u r v h
  obtain ⟨run, hrun, hclose, hv, heq⟩ := readBare_iff.mp h
  refine readBare_iff.mpr ⟨run, hrun, hclose, hv, ?_⟩
  rw [← List.cons_append, ← List.append_assoc] at heq
  exact List.append_cancel_right heq

theorem readBare_keepsReading : KeepsReading (readBare stop close) := by
  intro t r v h u
  obtain ⟨run, hrun, hclose, hv, rfl⟩ := readBare_iff.mp h
  exact readBare_iff.mpr ⟨run, hrun, hclose, hv, by simp⟩

theorem readValue_ignoresRest : IgnoresRest readValue := by
  have hclose : isBlank ']' = false := by decide
  exact (readQuoted_ignoresRest hclose).orElse (readQuoted_keepsReading hclose)
    ((readQuoted_ignoresRest hclose).orElse (readQuoted_keepsReading hclose) readBare_ignoresRest)

theorem readArgument_ignoresRest : IgnoresRest readArgument := by
  have hclose : isBlank ')' = false := by decide
  have hquoted {q : Char} :=
    (readQuoted_ignoresRest (q := q) hclose).map (some : Text → Option Text)
  have hkeeps {q : Char} :=
    (readQuoted_keepsReading (q := q) hclose).map (some : Text → Option Text)
  have hnonempty (found : Text × Text) :
      nonemptyArgument found = (if found.1 = [] then none else some found.1, found.2) := by
    obtain ⟨argument, rest⟩ := found
    cases argument <;> simp [nonemptyArgument]
  have hbare : IgnoresRest fun t =>
      (readBare (fun c => c == ')' || c == '\'' || c == '"') ')' t).map nonemptyArgument := by
    simp only [funext hnonempty]
    exact readBare_ignoresRest.map fun argument => if argument = [] then none else some argument
  exact hquoted.orElse hkeeps (hquoted.orElse hkeeps hbare)

theorem readArgument_append_ne_none (h : readArgument t ≠ none) (u : Text) :
    readArgument (t ++ u) ≠ none := by
  have hclose : isBlank ')' = false := by decide
  have hkeeps {read : Text → Option (Text × Text)} (hread : KeepsReading read)
      (hsome : read t ≠ none) : read (t ++ u) ≠ none := by
    obtain ⟨⟨v, r⟩, hread'⟩ := Option.ne_none_iff_exists'.mp hsome
    simp [hread hread' u]
  simp only [readArgument, Option.orElse_eq_orElse, Option.orElse_eq_or, ne_eq,
    Option.or_eq_none_iff, Option.map_eq_none_iff, not_and_or] at h ⊢
  rcases h with h | h | h
  · exact .inl (hkeeps (readQuoted_keepsReading hclose) h)
  · exact .inr (.inl (hkeeps (readQuoted_keepsReading hclose) h))
  · exact .inr (.inr (hkeeps readBare_keepsReading h))

theorem ne_nil_of_read {read : Text → Option α} {found : α} (hnil : read [] = none)
    (h : read t = some found) : t ≠ [] := by
  rintro rfl
  rw [hnil] at h
  cases h

theorem readValue_append (h : readValue t = some (v, r)) (hv : StartsOff isQuoteMark v) (u : Text) :
    readValue (t ++ u) = some (v, r ++ u) := by
  have hclose : isBlank ']' = false := by decide
  simp only [readValue, Option.orElse_eq_orElse, Option.orElse_eq_or, Option.or_eq_some_iff] at h ⊢
  rcases h with h | ⟨-, h | ⟨-, h⟩⟩
  · exact .inl (readQuoted_keepsReading hclose h u)
  · refine .inr ⟨?_, .inl (readQuoted_keepsReading hclose h u)⟩
    obtain ⟨w, -, -, rfl⟩ := readQuoted_sound h
    simp [readQuoted]
  · obtain ⟨a, b, ha, hb, -, -, ht⟩ := readBare_sound h
    have hvalue : StartsOff isQuoteMark (v ++ b ++ ']' :: (r ++ u)) :=
      startsOff_close hv hb (by decide)
    have hstart : StartsOff isQuoteMark (t ++ u) := by
      rw [ht]
      simpa using startsOff_blanks_append ha (fun _ => isQuoteMark_eq_false_of_isBlank) hvalue
    exact .inr ⟨(readQuoted_other hstart).1,
      .inr ⟨(readQuoted_other hstart).2, readBare_keepsReading h u⟩⟩

end Readers

def Fragment.opensQuote : Fragment → Bool
  | .attr _ _ (some (c :: _)) => isQuoteMark c
  | _ => false

section Rules

variable {a t u r : Text} {fragment : Fragment}

theorem attributeRule_of_append (h : attributeRule (t ++ u) = some (fragment, r ++ u)) :
    attributeRule t = some (fragment, r) := by
  rcases attributeRule_cases h with ⟨n, w₁, w₂, hn, h₁, h₂, rfl, heq⟩ |
    ⟨n, op, head, rest, v, hhead, hrun, hvalue, rfl, heq⟩
  · obtain rfl : t = '[' :: (w₁ ++ (n ++ (w₂ ++ ']' :: r))) :=
      (List.append_left_inj u).mp (by simpa using heq)
    exact attributeRule_name hn h₁ h₂
  · -- The value ends before the cut, so the rest behind the operator goes on with the cut text.
    obtain ⟨inner, hinner⟩ := exists_append_of_suffix (readValue_suffix hvalue)
    obtain ⟨rest, rfl⟩ :=
      exists_append_of_suffix ((readValue_suffix hvalue).trans (skipBlanks_suffix rest))
    rw [← List.append_assoc] at heq
    obtain rfl := List.append_cancel_right heq
    rw [hinner] at hvalue
    rw [hhead.attributeRule_append (mt (mem_takeWhile_append u) hrun), skipBlanks_of_append hinner,
      readValue_ignoresRest hvalue]
    rfl

theorem filterRule_of_append (h : filterRule (':' :: (a ++ u)) = some (fragment, r ++ u)) :
    filterRule (':' :: a) = some (fragment, r) := by
  simp only [filterRule] at h ⊢
  split at h
  · cases h
  · next name body hname =>
    split at h
    · next argument rest hargument =>
      cases h
      have hsuffix := (readArgument_suffix hargument).trans (skipBlanks_suffix body)
      obtain ⟨inner, hinner⟩ := exists_append_of_suffix (readArgument_suffix hargument)
      obtain ⟨middle, rfl⟩ := exists_append_of_suffix hsuffix
      rw [hinner] at hargument
      have hread : readName a = some (name, '(' :: middle) := readName_ignoresRest hname
      simp only [hread, skipBlanks_of_append hinner, readArgument_ignoresRest hargument]
    · next hargument =>
      simp only [Option.some.injEq, Prod.mk.injEq] at h
      obtain ⟨rfl, hrest⟩ := h
      rw [hrest] at hname
      rw [readName_ignoresRest hname]
      cases r with
      | nil => rfl
      | cons c middle =>
        cases hrest
        have hnone : readArgument (skipBlanks middle) = none := by
          by_contra hsome
          by_cases hnil : skipBlanks middle = []
          · rw [hnil] at hsome
            exact hsome rfl
          · apply readArgument_append_ne_none hsome u
            rw [← skipBlanks_append_of_ne_nil hnil]
            exact hargument
        simp only [hnone]
  · next name rest hparen hname =>
    cases h
    rw [readName_ignoresRest hname]
    cases r with
    | nil => rfl
    | cons c middle =>
      have hc : c ≠ '(' := by
        rintro rfl
        exact hparen _ rfl
      split
      · next heq => cases heq
      · next heq =>
        cases heq
        exact absurd rfl hc
      · next heq =>
        cases heq
        rfl

theorem firstMatch_of_append (h : firstMatch (t ++ u) = some (fragment, r ++ u))
    (hf : fragment.isLink = false) : firstMatch t = some (fragment, r) := by
  rcases firstMatch_sound h with ⟨kind, m, rfl, -⟩ | ⟨span, hspells, heq, hedge⟩
  · cases hf
  · rw [← List.append_assoc] at heq
    obtain rfl := List.append_cancel_right heq
    have hstop (hname : ¬ EndsOff isNameChar span) : StartsOff isNameChar r :=
      startsOff_of_initial (List.prefix_append r u) (hedge.resolve_left hname)
    cases hspells with
    | any => exact firstMatch_star r
    | element hn =>
      have hread := readName_run hn (hstop (not_endsOff_name hn []))
      obtain ⟨c, n, rfl⟩ := List.exists_cons_of_ne_nil hn.1
      rw [List.cons_append] at hread ⊢
      rw [firstMatch_name (hn.2 c (by simp)), hread]
      rfl
    | id hn =>
      rw [List.cons_append, firstMatch_hash, idRule,
        readName_run hn (hstop (not_endsOff_name hn ['#']))]
      rfl
    | className hn =>
      rw [List.cons_append, firstMatch_dot, classRule,
        readName_run hn (hstop (not_endsOff_name hn ['.']))]
      rfl
    | attr | attrValue =>
      simp only [List.cons_append, firstMatch_bracket] at h ⊢
      exact attributeRule_of_append h
    | filter | filterBlank | filterArgument =>
      simp only [List.cons_append, firstMatch_colon] at h ⊢
      exact filterRule_of_append h

theorem takeWhile_append_of_stop {p : Char → Bool} {c : Char} (hc : c ∈ t) (hp : p c = false)
    (u : Text) : (t ++ u).takeWhile p = t.takeWhile p := by
  rw [List.takeWhile_append, if_neg]
  intro hall
  have hself := (List.takeWhile_prefix p).eq_of_length hall
  rw [List.takeWhile_eq_self_iff.mp hself c hc] at hp
  cases hp

theorem attributeRule_append_of_value (h : attributeRule t = some (fragment, r))
    (hkeeps : ∀ {n op head rest v}, SpellsHead n op head → t = head ++ rest →
      fragment = .attr n (some op) (some v) → readValue (skipBlanks rest) = some (v, r) →
      readValue (skipBlanks rest ++ u) = some (v, r ++ u)) :
    attributeRule (t ++ u) = some (fragment, r ++ u) := by
  rcases attributeRule_cases h with ⟨n, w₁, w₂, hn, h₁, h₂, rfl, rfl⟩ |
    ⟨n, op, head, rest, v, hhead, hrun, hvalue, rfl, rfl⟩
  · simpa using attributeRule_name (r := r ++ u) hn h₁ h₂
  · have hne : skipBlanks rest ≠ [] := ne_nil_of_read rfl hvalue
    have hclose : ']' ∈ rest := by
      obtain ⟨body, a, b, -, -, -, heq⟩ := readValue_sound hvalue
      refine (skipBlanks_suffix rest).subset ?_
      rw [heq]
      simp
    rw [← takeWhile_append_of_stop hclose (by decide) u] at hrun
    rw [List.append_assoc, hhead.attributeRule_append hrun, skipBlanks_append_of_ne_nil hne,
      hkeeps hhead rfl rfl hvalue]
    rfl

theorem attributeRule_append (h : attributeRule t = some (fragment, r))
    (hf : fragment.opensQuote = false) (u : Text) :
    attributeRule (t ++ u) = some (fragment, r ++ u) := by
  refine attributeRule_append_of_value h fun _ _ hfragment hvalue => ?_
  refine readValue_append hvalue (fun c hc => ?_) u
  obtain ⟨more, rfl⟩ := List.head?_eq_some_iff.mp hc
  rwa [hfragment] at hf

theorem firstMatch_append_of_bracket (h : firstMatch t = some (fragment, r))
    (hlink : fragment.isLink = false)
    (hbracket : attributeRule t = some (fragment, r) →
      attributeRule (t ++ u) = some (fragment, r ++ u))
    (hparen : r.head? ≠ some '(') (hu : Stops u) :
    firstMatch (t ++ u) = some (fragment, r ++ u) := by
  rcases firstMatch_sound h with ⟨kind, m, rfl, -⟩ | ⟨span, hspells, rfl, hedge⟩
  · cases hlink
  · have hstop : EndsOff isNameChar span ∨ Stops (r ++ u) := by
      by_cases hr : r = []
      · exact .inr (by simpa [hr] using hu)
      · refine hedge.imp_right fun hname => ?_
        rw [Stops, startsOff_append hr]
        intro c hc
        refine Bool.or_eq_false_iff.mpr ⟨hname c hc, beq_eq_false_iff_ne.mpr ?_⟩
        rintro rfl
        exact hparen hc
    have hplain (hspells : Spells PlainValue fragment span) :
        firstMatch (span ++ r ++ u) = some (fragment, r ++ u) := by
      rw [List.append_assoc]
      exact hspells.firstMatch_append hstop
    cases hspells with
    | attr | attrValue =>
      simp only [List.cons_append, firstMatch_bracket] at h hbracket ⊢
      exact hbracket h
    | any => exact hplain .any
    | element hn => exact hplain (.element hn)
    | id hn => exact hplain (.id hn)
    | className hn => exact hplain (.className hn)
    | filter hn => exact hplain (.filter hn)
    | filterBlank hn hw => exact hplain (.filterBlank hn hw)
    | filterArgument hn ha h₁ h₂ => exact hplain (.filterArgument hn ha h₁ h₂)

theorem firstMatch_append (h : firstMatch t = some (fragment, r)) (hlink : fragment.isLink = false)
    (hf : fragment.opensQuote = false) (hparen : r.head? ≠ some '(') (hu : Stops u) :
    firstMatch (t ++ u) = some (fragment, r ++ u) :=
  firstMatch_append_of_bracket h hlink (fun hrule => attributeRule_append hrule hf u) hparen hu

end Rules

section Scanning

variable {started : Bool} {t u m : Text} {fragments compound ending : List Fragment}
  {kind : Combinator}

theorem SpellsLink.shorten {span : Text} (h : SpellsLink kind (m ++ u) span) :
    ∃ g, span = g ++ (m ++ u) ∧ SpellsLink kind m (g ++ m) := by
  cases h with
  | marked hk h₁ h₂ => exact ⟨_, rfl, .marked hk h₁ h₂⟩
  | blank hw hne hm => exact ⟨_, rfl, .blank hw hne (startsOff_of_initial ⟨u, rfl⟩ hm)⟩

theorem SpellsLink.extend {span : Text} (h : SpellsLink kind m span) (hm : m ≠ []) (u : Text) :
    SpellsLink kind (m ++ u) (span ++ u) := by
  cases h with
  | marked hk h₁ h₂ => simpa using SpellsLink.marked (r := m ++ u) hk h₁ h₂
  | blank hw hne hstart => simpa using SpellsLink.blank hw hne ((startsOff_append hm).mpr hstart)

theorem spellsLink_of_scan (h : scan started t = .ok [.link kind m]) :
    started = true ∧ SpellsLink kind m t := by
  rcases scan_ok_cases h with ⟨-, hnil⟩ | ⟨kind', m', rest, hmatch, -, hstarted, hlink⟩ |
    ⟨fragment, rest, more, -, hfragment, -, hlink⟩
  · cases hnil
  · cases hlink
    refine ⟨hstarted, ?_⟩
    rcases firstMatch_sound hmatch with ⟨_, _, heq, hspells, -⟩ | ⟨span, hspells, -⟩
    · cases heq
      exact hspells
    · exact absurd hspells.isLink_eq_false (by simp [Fragment.isLink])
  · cases hlink
    cases hfragment

theorem eq_nil_of_scan (h : scan started t = .ok []) : t = [] := by
  rcases scan_ok_cases h with ⟨hnil, -⟩ | ⟨_, _, _, -, -, -, hcons⟩ | ⟨_, _, _, -, -, -, hcons⟩
  · exact hnil
  · cases hcons
  · cases hcons

theorem compound_ne_nil_of_scan (h : scan false t = .ok (compound ++ ending)) (ht : t ≠ [])
    (hending : ∀ f ∈ ending, f.isLink = true) : compound ≠ [] := by
  rintro rfl
  rcases scan_ok_cases h with ⟨hnil, -⟩ | ⟨_, _, _, -, -, hstarted, -⟩ |
    ⟨fragment, _, more, -, hfragment, -, hcons⟩
  · exact ht hnil
  · cases hstarted
  · have hlink := hending fragment (by simp [show ending = fragment :: more from hcons])
    rw [hlink] at hfragment
    cases hfragment

theorem head?_ne_paren_of_scan (h : scan started t = .ok fragments) : t.head? ≠ some '(' := by
  have hmatched {fragment : Fragment} {r : Text} (hmatch : firstMatch t = some (fragment, r)) :
      t.head? ≠ some '(' := by
    intro hparen
    rcases firstMatch_sound hmatch with ⟨kind, m, -, hspells, -⟩ | ⟨span, hspells, rfl, -⟩
    · exact absurd (hspells.stops _ hparen) (by decide)
    · cases hword : fragment.isBareWord with
      | true =>
        obtain ⟨c, s, rfl, hc⟩ := hspells.starts_name hword
        cases hparen
        exact absurd hc (by decide)
      | false =>
        obtain ⟨c, s, rfl, -, -, hc⟩ := hspells.starts
        cases hparen
        exact absurd (hc hword) (by decide)
  rcases scan_ok_cases h with ⟨rfl, -⟩ | ⟨_, _, _, hmatch, -⟩ | ⟨_, _, _, hmatch, -⟩
  · simp
  · exact hmatched hmatch
  · exact hmatched hmatch

theorem scan_cut (h : scan started t = .ok (compound ++ [.link kind m])) :
    ∃ body tail, t = body ++ tail ∧ SpellsLink kind m tail ∧ EndsOff isBlank body ∧
      (body = [] → started = true) ∧
      ∀ {l u more}, tail = l ++ u → scan true l = .ok more →
        scan started (body ++ l) = .ok (compound ++ more) := by
  induction compound generalizing started t with
  | nil =>
    obtain ⟨rfl, hspells⟩ := spellsLink_of_scan h
    exact ⟨[], t, rfl, hspells, by simp [EndsOff], fun _ => rfl, fun _ hl => hl⟩
  | cons first compound ih =>
    rcases scan_ok_cases h with ⟨-, hnil⟩ | ⟨kind', m', rest, -, -, -, hlink⟩ |
      ⟨fragment, rest, more, hmatch, hfragment, hmore, hcons⟩
    · cases hnil
    · simp at hlink
    · cases hcons
      obtain ⟨body, tail, rfl, hspells, hend, -, hread⟩ := ih hmore
      rcases firstMatch_sound hmatch with ⟨_, _, rfl, -⟩ | ⟨span, hspan, rfl, -⟩
      · cases hfragment
      · refine ⟨span ++ body, tail, by simp, hspells, ?_, ?_, ?_⟩
        · cases body with
          | nil => simpa using hspan.endsOff_blank
          | cons c body => exact (endsOff_append (by simp)).mpr hend
        · intro hnil
          exact absurd (List.append_eq_nil_iff.mp hnil).1 hspan.ne_nil
        · rintro l u more rfl hl
          have hshort : firstMatch (span ++ (body ++ l)) = some (first, body ++ l) := by
            apply firstMatch_of_append (u := u) _ hfragment
            simpa using hmatch
          rw [List.append_assoc, scan_fragment hshort hfragment, hread rfl hl]
          rfl

theorem scan_append (h : scan started t = .ok (compound ++ ending))
    (hcompound : ∀ f ∈ compound, f.isLink = false ∧ f.opensQuote = false)
    (hstarted : started = true ∨ compound ≠ []) (hu : Stops u) :
    ∃ tail, scan true tail = .ok ending ∧ ∀ {more}, scan true (tail ++ u) = .ok more →
      scan started (t ++ u) = .ok (compound ++ more) := by
  induction compound generalizing started t with
  | nil =>
    obtain rfl := hstarted.resolve_right (by simp)
    exact ⟨t, h, fun hmore => hmore⟩
  | cons first compound ih =>
    obtain ⟨⟨hlink, hquote⟩, hcompound⟩ := List.forall_mem_cons.mp hcompound
    rcases scan_ok_cases h with ⟨-, hnil⟩ | ⟨kind, r, rest, -, -, -, hone⟩ |
      ⟨fragment, rest, more, hmatch, -, hmore, hcons⟩
    · cases hnil
    · obtain ⟨rfl, -⟩ := List.cons.inj hone
      cases hlink
    · cases hcons
      obtain ⟨tail, htail, hread⟩ := ih hmore hcompound (.inl rfl)
      refine ⟨tail, htail, fun hend => ?_⟩
      have hlong := firstMatch_append hmatch hlink hquote (head?_ne_paren_of_scan hmore) hu
      rw [scan_fragment hlong hlink, hread hend]
      rfl

end Scanning

end SelectorXPath
