import SelectorXPath.Proofs.JoinedFragments

namespace SelectorXPath

namespace PathTree

def ofSelectorBehind (links : Nat) : Text → Anchor → Except SelectorError PathTree :=
  ofSelectorWithin (maxLinks + 1 - links)

theorem ofSelectorBehind_zero : ofSelectorBehind 0 = ofSelector := rfl

theorem ofSelectorBehind_eq (links : Nat) (s : Text) (anchor : Anchor) :
    ofSelectorBehind links s anchor =
      if maxLinks < links then .error .tooDeep
      else
        match parseSelector s with
        | .ok fragments => refine (ofSelectorBehind (links + 1)) (empty anchor) fragments
        | .error e => .error e := by
  split
  · next hdeep =>
    rw [ofSelectorBehind, show maxLinks + 1 - links = 0 by omega, ofSelectorWithin]
  · next hlinks =>
    rw [ofSelectorBehind, show maxLinks + 1 - links = maxLinks + 1 - (links + 1) + 1 by omega,
      ofSelectorWithin]
    rfl

def Carries (tree : PathTree) (anchor : Anchor) : Combinator → Text → Prop
  | .multiple, r => ∃ other, ofSelector r anchor = .ok other ∧ tree.alternatives = [other]
  | .child, r => ∃ child, ofSelector r .root = .ok child ∧ tree.children.getLast? = some child
  | .descendant, r =>
    ∃ child, ofSelector r .anywhere = .ok child ∧ tree.children.getLast? = some child
  | .adjacent, _ => False
  | .sibling, _ => False

section Links

variable {s r : Text} {anchor : Anchor} {own tree : PathTree} {compound : List Fragment}
  {kind : Combinator} {links more : Nat}

theorem ofSelectorBehind_of_le (hle : links ≤ more)
    (h : ofSelectorBehind more s anchor ≠ .error .tooDeep) :
    ofSelectorBehind links s anchor = ofSelectorBehind more s anchor :=
  ofSelectorWithin_of_le h (by omega)

theorem ofSelector_of_behind_one (h : ofSelectorBehind 1 s anchor = .ok tree) :
    ofSelector s anchor = .ok tree := by
  have hfits : ofSelectorBehind 1 s anchor ≠ .error .tooDeep := by simp [h]
  rw [← ofSelectorBehind_zero, ofSelectorBehind_of_le (Nat.zero_le 1) hfits, h]

theorem applyLink_of_ofSelector (hparse : parseSelector s = .ok (compound ++ [.link kind r]))
    (h : ofSelector s anchor = .ok tree) :
    applyLink (ofSelectorBehind 1) ((empty anchor).extend compound) kind r = .ok tree := by
  have hcompound := isLink_of_parseSelector_link hparse
  rw [← ofSelectorBehind_zero, ofSelectorBehind_eq, if_neg (Nat.not_lt_zero _), hparse] at h
  simp only [refine_append _ _ hcompound] at h
  split at h
  · cases h
  · next own hown =>
    rw [eq_extend_of_refine _ _ hcompound hown] at h
    exact h

theorem carries_of_applyLink (hanchor : own.anchor = anchor) (halternatives : own.alternatives = [])
    (h : applyLink (ofSelectorBehind 1) own kind r = .ok tree) : tree.Carries anchor kind r := by
  cases kind with
  | multiple =>
    obtain ⟨other, hother, rfl⟩ := map_eq_ok h
    rw [hanchor] at hother
    exact ⟨other, ofSelector_of_behind_one hother, by simp [addAlternative, halternatives]⟩
  | child =>
    obtain ⟨child, hchild, rfl⟩ := map_eq_ok h
    exact ⟨child, ofSelector_of_behind_one hchild, by simp [addChild]⟩
  | descendant =>
    obtain ⟨child, hchild, rfl⟩ := map_eq_ok h
    exact ⟨child, ofSelector_of_behind_one hchild, by simp [addChild]⟩
  | adjacent => cases h
  | sibling => cases h

end Links

end PathTree

open PathTree

theorem ofSelector_depth (s : Text) (anchor : Anchor) :
    (∀ links more, links ≤ more → ofSelectorBehind more s anchor ≠ .error .tooDeep →
      ofSelectorBehind links s anchor = ofSelectorBehind more s anchor) ∧
    ∀ tree compound kind r, ofSelector s anchor = .ok tree →
      parseSelector s = .ok (compound ++ [.link kind r]) → tree.Carries anchor kind r := by
  refine ⟨fun links more hle h => ofSelectorBehind_of_le hle h, ?_⟩
  intro tree compound kind r htree hparse
  exact carries_of_applyLink rfl rfl (applyLink_of_ofSelector hparse htree)

-- Behind 254 links all three levels still fit, behind one more the last does not.
theorem ofSelector_depth_union :
    ∃ tree other,
      ofSelectorBehind 254 "a:parent, b > c".toList .anywhere = .ok tree ∧
      ofSelectorBehind 0 "a:parent, b > c".toList .anywhere = .ok tree ∧
      ofSelectorBehind 255 "a:parent, b > c".toList .anywhere = .error .tooDeep ∧
      ofSelector "b > c".toList .anywhere = .ok other ∧ tree.alternatives = [other] := by
  have hfirst : readLevel "a:parent, b > c".toList =
      .ok ⟨[.element "a".toList, .filter "parent".toList none],
        some (.multiple, "b > c".toList)⟩ := by
    decide +kernel
  have hsecond : readLevel "b > c".toList =
      .ok ⟨[.element "b".toList], some (.child, "c".toList)⟩ := by
    decide +kernel
  have hthird : readLevel "c".toList = .ok ⟨[.element "c".toList], none⟩ := by decide +kernel
  have hbuilds : Builds 3 "a:parent, b > c".toList .anywhere _ :=
    .union hfirst rfl (.step hsecond rfl rfl (.compound hthird rfl))
  have hfails : Fails 2 "a:parent, b > c".toList .tooDeep :=
    .link hfirst rfl (.link hsecond rfl .deep)
  have hbehind : ofSelectorBehind 254 "a:parent, b > c".toList .anywhere = .ok _ :=
    hbuilds.ofSelectorWithin_eq
  obtain ⟨hdepth, hlink⟩ := ofSelector_depth "a:parent, b > c".toList .anywhere
  have hfits : ofSelectorBehind 254 "a:parent, b > c".toList .anywhere ≠ .error .tooDeep := by
    rw [hbehind]
    nofun
  have hfront := hdepth 0 254 (by decide) hfits
  rw [hbehind] at hfront
  obtain ⟨other, hother, halternatives⟩ :=
    hlink _ _ _ _ hfront (parseSelector_of_readLevel hfirst)
  exact ⟨_, other, hbehind, hfront, hfails.ofSelectorWithin_eq _, hother, halternatives⟩

end SelectorXPath
