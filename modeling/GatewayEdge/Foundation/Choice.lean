import Mathlib.Tactic.Common

/-!
# Choice — picking one of the options that are available

A picker answers with an option of a menu, depending on which options are available at the moment.
Two properties make it dependable:

* it *settles* its menu: what it picks is on the menu and available, and it picks nothing only when
  nothing on the menu is available (`Settles`);
* it is *steady*: taking away options it has not picked does not change its pick (`Steady`,
  contraction consistency in the theory of choice).

Both hold of the first available entry of a list, of a contest between two options, and of a picker
with a fallback whenever they hold of its parts.
-/

namespace GatewayEdge
namespace Foundation

variable {α : Type*}

/-- `pick` is a sound and complete answer for `menu`. -/
structure Settles (menu : α → Prop) (avail : α → Bool) (pick : Option α) : Prop where
  sound : ∀ x, pick = some x → menu x ∧ avail x = true
  complete : pick = none → ∀ x, menu x → avail x = false

/-- What was picked and is still available is picked again. -/
def Steady (avail' : α → Bool) (pick pick' : Option α) : Prop :=
  ∀ x, pick = some x → avail' x = true → pick' = some x

namespace Settles

variable {menu menu' : α → Prop} {avail : α → Bool} {pick pick' : Option α}

theorem isNone_iff (h : Settles menu avail pick) :
    pick = none ↔ ∀ x, menu x → avail x = false := by
  refine ⟨h.complete, fun hnone => ?_⟩
  cases hpick : pick with
  | none => rfl
  | some x =>
      have hx := h.sound x hpick
      rw [hnone x hx.1] at hx
      cases hx.2

/-- Only what is on the menu matters. -/
theorem congr (h : Settles menu avail pick) (hmenu : ∀ x, menu x ↔ menu' x) :
    Settles menu' avail pick where
  sound x hx := ⟨(hmenu x).1 (h.sound x hx).1, (h.sound x hx).2⟩
  complete hnone x hx := h.complete hnone x ((hmenu x).2 hx)

/-- A fallback serves the joint menu. -/
theorem orElse (h : Settles menu avail pick) (h' : Settles menu' avail pick') :
    Settles (fun x => menu x ∨ menu' x) avail (pick.or pick') := by
  cases hpick : pick with
  | some y =>
      refine ⟨fun x hx => ?_, fun hnone => by simp at hnone⟩
      have hy := h.sound x (by simpa [hpick] using hx)
      exact ⟨Or.inl hy.1, hy.2⟩
  | none =>
      refine ⟨fun x hx => ?_, fun hnone x hx => ?_⟩
      · have hy := h'.sound x (by simpa using hx)
        exact ⟨Or.inr hy.1, hy.2⟩
      · rcases hx with hx | hx
        · exact h.complete hpick x hx
        · exact h'.complete (by simpa using hnone) x hx

/-- Where less is available, a picker that found nothing still finds nothing. -/
theorem none_of_le {avail' : α → Bool} (h : Settles menu avail pick)
    (h' : Settles menu avail' pick') (hle : ∀ x, avail' x = true → avail x = true)
    (hnone : pick = none) : pick' = none := by
  apply h'.isNone_iff.2
  intro x hx
  have hgone := h.complete hnone x hx
  by_contra havail
  rw [hle x (by simpa using havail)] at hgone
  cases hgone

end Settles

namespace Steady

variable {avail' : α → Bool} {p p' q q' : Option α}

theorem refl (p : Option α) : Steady avail' p p := fun _ hx _ => hx

/-- A fallback is steady when its parts are and its first part finds nothing new. -/
theorem orElse (hp : Steady avail' p p') (hq : Steady avail' q q') (hnone : p = none → p' = none) :
    Steady avail' (p.or q) (p'.or q') := by
  intro x hx havail
  cases hpick : p with
  | some y =>
      have hyx : y = x := by simpa [hpick] using hx
      have hsame := hp x (by rw [hpick, hyx]) havail
      simp [hsame]
  | none =>
      have hsecond : q = some x := by simpa [hpick] using hx
      simp [hnone hpick, hq x hsecond havail]

end Steady

/-! ## The first available entry of a list -/

theorem settles_find? (l : List α) (avail : α → Bool) :
    Settles (· ∈ l) avail (l.find? avail) where
  sound x hx := ⟨List.mem_of_find?_eq_some hx, List.find?_some hx⟩
  complete hnone x hx := by simpa using List.find?_eq_none.1 hnone x hx

theorem steady_find? (l : List α) {avail avail' : α → Bool}
    (hle : ∀ x, avail' x = true → avail x = true) :
    Steady avail' (l.find? avail) (l.find? avail') := by
  intro x hx havail
  rcases List.find?_eq_some_iff_append.1 hx with ⟨_, before, after, rfl, hbefore⟩
  refine List.find?_eq_some_iff_append.2 ⟨havail, before, after, rfl, fun y hy => ?_⟩
  -- Nothing passed over before has become available since.
  have hgone := hbefore y hy
  by_contra hback
  simp [hle y (by simpa using hback)] at hgone

/-! ## The better of two -/

/-- With both of two distinct options available, `second` says which wins; with one, that one. -/
def twoChoice [DecidableEq α] (a b : α) (second : Prop) [Decidable second] (avail : α → Bool) :
    Option α :=
  if avail a = true ∧ avail b = true ∧ a ≠ b then some (if second then b else a)
  else if avail a = true then some a
  else if avail b = true then some b
  else none

section TwoChoice

variable [DecidableEq α] {a b : α} {second second' : Prop} [Decidable second] [Decidable second']
  {avail avail' : α → Bool}

theorem settles_twoChoice : Settles (fun x => x = a ∨ x = b) avail (twoChoice a b second avail) := by
  unfold twoChoice
  by_cases hboth : avail a = true ∧ avail b = true ∧ a ≠ b
  · rw [if_pos hboth]
    refine ⟨fun x hx => ?_, fun hnone => by cases hnone⟩
    by_cases hsecond : second
    · have hbx : b = x := by simpa [hsecond] using hx
      exact hbx ▸ ⟨Or.inr rfl, hboth.2.1⟩
    · have hax : a = x := by simpa [hsecond] using hx
      exact hax ▸ ⟨Or.inl rfl, hboth.1⟩
  · rw [if_neg hboth]
    by_cases ha : avail a = true
    · rw [if_pos ha]
      refine ⟨fun x hx => ?_, fun hnone => by cases hnone⟩
      have hax : a = x := Option.some.inj hx
      exact hax ▸ ⟨Or.inl rfl, ha⟩
    · rw [if_neg ha]
      by_cases hb : avail b = true
      · rw [if_pos hb]
        refine ⟨fun x hx => ?_, fun hnone => by cases hnone⟩
        have hbx : b = x := Option.some.inj hx
        exact hbx ▸ ⟨Or.inr rfl, hb⟩
      · rw [if_neg hb]
        refine ⟨fun x hx => (by cases hx), fun _ x hx => ?_⟩
        rcases hx with rfl | rfl
        · simpa using ha
        · simpa using hb

/-- The verdict of the contest may change, as long as it stays while both are available. -/
theorem steady_twoChoice (hle : ∀ x, avail' x = true → avail x = true)
    (hsame : avail' a = true → avail' b = true → (second' ↔ second)) :
    Steady avail' (twoChoice a b second avail) (twoChoice a b second' avail') := by
  intro x hx havail
  rcases settles_twoChoice.sound x hx with ⟨rfl | rfl, _⟩
  · by_cases hb : avail' b = true
    · by_cases hne : x = b
      · simp [twoChoice, hb, hne]
      · have hlost : ¬ second' := by
          intro hwon
          have hsecond := (hsame havail hb).1 hwon
          simp [twoChoice, hle x havail, hle b hb, hne, hsecond, Ne.symm hne] at hx
        simp [twoChoice, havail, hb, hlost]
    · simp [twoChoice, havail, hb]
  · by_cases ha : avail' a = true
    · by_cases hne : a = x
      · simp [twoChoice, havail, hne]
      · have hwon : second' := by
          apply (hsame ha havail).2
          by_contra hlost
          simp [twoChoice, hle a ha, hle x havail, hne, hlost] at hx
        simp [twoChoice, ha, havail, hne, hwon]
    · simp [twoChoice, havail, ha]

end TwoChoice

end Foundation
end GatewayEdge
