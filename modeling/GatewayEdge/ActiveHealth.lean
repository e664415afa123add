import GatewayEdge.Foundation.Streak
import GatewayEdge.Health
import Mathlib.Data.List.Induction
import Mathlib.Order.MinMax

/-!
# ActiveHealth — when probe results flip the health flag

A slot that starts up, under any sequence of probe results.  Both streak counters run on in both states,
and each is reset by the opposite result only; what a flip has used up is never counted again, because
the way back starts with a result of the other kind.
-/

namespace GatewayEdge
namespace Health

open Foundation

/-! ## A slot and its results -/

/-- A probe result of the past, and what `apply_probe` has answered. -/
structure Probed where
  ok : Bool
  answer : Option Bool
  deriving DecidableEq, Repr

/-- The slot, with the results it has seen, newest first. -/
structure Watched where
  slot : UpstreamHealth := { healthy := 1 }
  past : List Probed := []
  deriving DecidableEq, Repr

def Watched.isUp (w : Watched) : Prop := w.slot.healthy = 1

instance (w : Watched) : Decidable w.isUp := inferInstanceAs (Decidable (_ = _))

/-- Failures in a row since the last success or flip. -/
def failuresInRow (past : List Probed) : ℕ :=
  streak (fun r => !r.ok) (fun r => r.ok || r.answer.isSome) past

/-- Successes in a row since the last failure or flip. -/
def successesInRow (past : List Probed) : ℕ :=
  streak (fun r => r.ok) (fun r => !r.ok || r.answer.isSome) past

section Probes

variable (unhealthyThreshold healthyThreshold : UInt32)

/-- `N` and `M`: a threshold of zero counts as one. -/
def downAfter : ℕ := max unhealthyThreshold.toNat 1

def upAfter : ℕ := max healthyThreshold.toNat 1

/-- One probe: when it was made, and whether the upstream answered. -/
def Watched.probe (w : Watched) (e : ℕ × Bool) : Watched :=
  let result := applyProbe e.1 e.2 unhealthyThreshold.toNat healthyThreshold.toNat w.slot
  { slot := result.1, past := { ok := e.2, answer := result.2 } :: w.past }

/-- What `apply_probe` answers to the next probe. -/
def Watched.answer (w : Watched) (e : ℕ × Bool) : Option Bool :=
  (applyProbe e.1 e.2 unhealthyThreshold.toNat healthyThreshold.toNat w.slot).2

/-- The automaton of the flag, in one state of a slot. -/
structure FlagLaw (w : Watched) : Prop where
  /-- An up flag goes down at the result that completes `N` failures, and at no other. -/
  falls : w.isUp → ∀ e, ¬ (w.probe unhealthyThreshold healthyThreshold e).isUp ↔
    e.2 = false ∧ failuresInRow w.past + 1 = downAfter unhealthyThreshold
  /-- A down flag goes up at the result that completes `M` successes, and at no other. -/
  rises : ¬ w.isUp → ∀ e, (w.probe unhealthyThreshold healthyThreshold e).isUp ↔
    e.2 = true ∧ successesInRow w.past + 1 = upAfter healthyThreshold
  /-- The answer is the new flag when it has flipped, and nothing otherwise. -/
  answers : ∀ e up, w.answer unhealthyThreshold healthyThreshold e = some up ↔
    (up = true ↔ (w.probe unhealthyThreshold healthyThreshold e).isUp) ∧
      ¬ (w.isUp ↔ (w.probe unhealthyThreshold healthyThreshold e).isUp)
  /-- After `N` failures on end the flag is down. -/
  down : downAfter unhealthyThreshold ≤ w.past.length →
    (∀ r ∈ w.past.take (downAfter unhealthyThreshold), r.ok = false) → ¬ w.isUp
  /-- After `M` successes on end it is up. -/
  up : upAfter healthyThreshold ≤ w.past.length →
    (∀ r ∈ w.past.take (upAfter healthyThreshold), r.ok = true) → w.isUp

end Probes

/-! ## One probe -/

section ApplyProbe

variable (nowMs unhealthyThreshold healthyThreshold : ℕ) {h : UpstreamHealth}

theorem applyProbe_ok_of_up (hup : h.healthy = 1) :
    applyProbe nowMs true unhealthyThreshold healthyThreshold h =
      ({ h with lastCheckMs := nowMs, consecFails := 0, consecOks := (h.consecOks + 1) % 2 ^ 32 },
        none) := by
  simp [applyProbe, hup]

theorem applyProbe_failed_of_up (hup : h.healthy = 1) :
    applyProbe nowMs false unhealthyThreshold healthyThreshold h =
      if max unhealthyThreshold 1 ≤ (h.consecFails + 1) % 2 ^ 32 then
        ({ healthy := 0, consecFails := (h.consecFails + 1) % 2 ^ 32, consecOks := 0,
            lastCheckMs := nowMs }, some false)
      else
        ({ h with lastCheckMs := nowMs, consecFails := (h.consecFails + 1) % 2 ^ 32, consecOks := 0 },
          none) := by
  simp [applyProbe, hup]

theorem applyProbe_ok_of_down (hdown : h.healthy ≠ 1) :
    applyProbe nowMs true unhealthyThreshold healthyThreshold h =
      if max healthyThreshold 1 ≤ (h.consecOks + 1) % 2 ^ 32 then
        ({ healthy := 1, consecFails := 0, consecOks := (h.consecOks + 1) % 2 ^ 32,
            lastCheckMs := nowMs }, some true)
      else
        ({ h with lastCheckMs := nowMs, consecFails := 0, consecOks := (h.consecOks + 1) % 2 ^ 32 },
          none) := by
  simp [applyProbe, hdown]

theorem applyProbe_failed_of_down (hdown : h.healthy ≠ 1) :
    applyProbe nowMs false unhealthyThreshold healthyThreshold h =
      ({ h with lastCheckMs := nowMs, consecFails := (h.consecFails + 1) % 2 ^ 32, consecOks := 0 },
        none) := by
  simp [applyProbe, hdown]

end ApplyProbe

/-! ## What the counters say -/

/-- Failures in a row, flips or not. -/
def failuresOnEnd (past : List Probed) : ℕ := streak (fun r => !r.ok) (fun r => r.ok) past

def successesOnEnd (past : List Probed) : ℕ := streak (fun r => r.ok) (fun r => !r.ok) past

variable {unhealthyThreshold healthyThreshold : UInt32} {w : Watched}

/-- The counter that can flip the flag is the streak since the last flip, and below its threshold; the
other one says nothing. -/
inductive Follows (unhealthyThreshold healthyThreshold : UInt32) (w : Watched) : Prop
  | up (hup : w.slot.healthy = 1) (hcount : w.slot.consecFails = failuresInRow w.past)
      (hend : failuresOnEnd w.past = failuresInRow w.past)
      (hbelow : failuresInRow w.past < downAfter unhealthyThreshold)
  | down (hdown : w.slot.healthy = 0) (hcount : w.slot.consecOks = successesInRow w.past)
      (hend : successesOnEnd w.past = successesInRow w.past)
      (hbelow : successesInRow w.past < upAfter healthyThreshold)

theorem downAfter_pos (threshold : UInt32) : 0 < downAfter threshold :=
  lt_of_lt_of_le Nat.zero_lt_one (le_max_right _ _)

theorem upAfter_pos (threshold : UInt32) : 0 < upAfter threshold := downAfter_pos threshold

/-- Neither threshold is out of reach of a counter of 32 bits. -/
theorem succ_mod_of_lt {count : ℕ} {threshold : UInt32} (h : count < downAfter threshold) :
    (count + 1) % 2 ^ 32 = count + 1 := by
  have hrange : downAfter threshold < 2 ^ 32 := max_lt threshold.toNat_lt (by decide)
  exact Nat.mod_eq_of_lt (lt_of_le_of_lt h hrange)

theorem probe_eq {e : ℕ × Bool} {r : UpstreamHealth × Option Bool}
    (h : applyProbe e.1 e.2 unhealthyThreshold.toNat healthyThreshold.toNat w.slot = r) :
    w.probe unhealthyThreshold healthyThreshold e =
      { slot := r.1, past := { ok := e.2, answer := r.2 } :: w.past } := by
  rw [← h]
  rfl

/-- A failure that an up flag survives, and the one that it does not. -/
theorem failed_of_up (healthyThreshold : UInt32) (hup : w.slot.healthy = 1)
    (hcount : w.slot.consecFails = failuresInRow w.past)
    (hbelow : failuresInRow w.past < downAfter unhealthyThreshold) (nowMs : ℕ) :
    applyProbe nowMs false unhealthyThreshold.toNat healthyThreshold.toNat w.slot =
      if failuresInRow w.past + 1 = downAfter unhealthyThreshold then
        ({ healthy := 0, consecFails := failuresInRow w.past + 1, consecOks := 0,
            lastCheckMs := nowMs }, some false)
      else
        ({ w.slot with
            lastCheckMs := nowMs, consecFails := failuresInRow w.past + 1, consecOks := 0 }, none) := by
  have hlast : max unhealthyThreshold.toNat 1 ≤ failuresInRow w.past + 1 ↔
      failuresInRow w.past + 1 = downAfter unhealthyThreshold :=
    ⟨fun hle => le_antisymm hbelow hle, fun heq => le_of_eq heq.symm⟩
  simp only [applyProbe_failed_of_up _ _ _ hup, hcount, succ_mod_of_lt hbelow, hlast]

/-- A success that a down flag does not get up at, and the one at which it does. -/
theorem ok_of_down (unhealthyThreshold : UInt32) (hdown : w.slot.healthy ≠ 1)
    (hcount : w.slot.consecOks = successesInRow w.past)
    (hbelow : successesInRow w.past < upAfter healthyThreshold) (nowMs : ℕ) :
    applyProbe nowMs true unhealthyThreshold.toNat healthyThreshold.toNat w.slot =
      if successesInRow w.past + 1 = upAfter healthyThreshold then
        ({ healthy := 1, consecFails := 0, consecOks := successesInRow w.past + 1,
            lastCheckMs := nowMs }, some true)
      else
        ({ w.slot with
            lastCheckMs := nowMs, consecFails := 0, consecOks := successesInRow w.past + 1 }, none) := by
  have hlast : max healthyThreshold.toNat 1 ≤ successesInRow w.past + 1 ↔
      successesInRow w.past + 1 = upAfter healthyThreshold :=
    ⟨fun hle => le_antisymm hbelow hle, fun heq => le_of_eq heq.symm⟩
  simp only [applyProbe_ok_of_down _ _ _ hdown, hcount, succ_mod_of_lt hbelow, hlast]

theorem follows_probe (hw : Follows unhealthyThreshold healthyThreshold w) (e : ℕ × Bool) :
    Follows unhealthyThreshold healthyThreshold (w.probe unhealthyThreshold healthyThreshold e) := by
  rcases e with ⟨nowMs, ok⟩
  cases hw with
  | up hup hcount hend hbelow =>
      cases ok with
      | true =>
          -- A success leaves an up flag alone and starts its count over.
          rw [probe_eq (applyProbe_ok_of_up nowMs _ _ hup)]
          refine .up hup (streak_of_reset rfl).symm ?_ ?_
          · exact (streak_of_reset rfl).trans (streak_of_reset rfl).symm
          · exact lt_of_eq_of_lt (streak_of_reset rfl) (downAfter_pos _)
      | false =>
          rw [probe_eq (failed_of_up _ hup hcount hbelow nowMs)]
          by_cases hlast : failuresInRow w.past + 1 = downAfter unhealthyThreshold
          · -- The flip: from here on successes count, and there are none yet.
            rw [if_pos hlast]
            refine .down rfl (streak_of_reset rfl).symm ?_ ?_
            · exact (streak_of_reset rfl).trans (streak_of_reset rfl).symm
            · exact lt_of_eq_of_lt (streak_of_reset rfl) (upAfter_pos _)
          · rw [if_neg hlast]
            have hrow : failuresInRow ({ ok := false, answer := none } :: w.past) =
                failuresInRow w.past + 1 := streak_of_count rfl rfl
            have hmore : failuresOnEnd ({ ok := false, answer := none } :: w.past) =
                failuresOnEnd w.past + 1 := streak_of_count rfl rfl
            refine .up hup hrow.symm ?_ ?_
            · rw [hrow, hmore, hend]
            · exact lt_of_eq_of_lt hrow (lt_of_le_of_ne hbelow hlast)
  | down hdown hcount hend hbelow =>
      have hnot : w.slot.healthy ≠ 1 := by
        rw [hdown]
        decide
      cases ok with
      | true =>
          rw [probe_eq (ok_of_down _ hnot hcount hbelow nowMs)]
          by_cases hlast : successesInRow w.past + 1 = upAfter healthyThreshold
          · rw [if_pos hlast]
            refine .up rfl (streak_of_reset rfl).symm ?_ ?_
            · exact (streak_of_reset rfl).trans (streak_of_reset rfl).symm
            · exact lt_of_eq_of_lt (streak_of_reset rfl) (downAfter_pos _)
          · rw [if_neg hlast]
            have hrow : successesInRow ({ ok := true, answer := none } :: w.past) =
                successesInRow w.past + 1 := streak_of_count rfl rfl
            have hmore : successesOnEnd ({ ok := true, answer := none } :: w.past) =
                successesOnEnd w.past + 1 := streak_of_count rfl rfl
            refine .down hdown hrow.symm ?_ ?_
            · rw [hrow, hmore, hend]
            · exact lt_of_eq_of_lt hrow (lt_of_le_of_ne hbelow hlast)
      | false =>
          -- A failure leaves a down flag alone and starts its successes over.
          rw [probe_eq (applyProbe_failed_of_down nowMs _ _ hnot)]
          refine .down hdown (streak_of_reset rfl).symm ?_ ?_
          · exact (streak_of_reset rfl).trans (streak_of_reset rfl).symm
          · exact lt_of_eq_of_lt (streak_of_reset rfl) (upAfter_pos _)

/-! ## The automaton -/

/-- What a probe comes to: the flag stays and nothing is answered, or it flips and the answer says so. -/
theorem probe_cases (hw : Follows unhealthyThreshold healthyThreshold w) (e : ℕ × Bool) :
    (w.isUp ∧ ¬(e.2 = false ∧ failuresInRow w.past + 1 = downAfter unhealthyThreshold) ∧
        (w.probe unhealthyThreshold healthyThreshold e).isUp ∧
        w.answer unhealthyThreshold healthyThreshold e = none) ∨
      (w.isUp ∧ (e.2 = false ∧ failuresInRow w.past + 1 = downAfter unhealthyThreshold) ∧
        ¬ (w.probe unhealthyThreshold healthyThreshold e).isUp ∧
        w.answer unhealthyThreshold healthyThreshold e = some false) ∨
      (¬ w.isUp ∧ ¬(e.2 = true ∧ successesInRow w.past + 1 = upAfter healthyThreshold) ∧
        ¬ (w.probe unhealthyThreshold healthyThreshold e).isUp ∧
        w.answer unhealthyThreshold healthyThreshold e = none) ∨
      (¬ w.isUp ∧ (e.2 = true ∧ successesInRow w.past + 1 = upAfter healthyThreshold) ∧
        (w.probe unhealthyThreshold healthyThreshold e).isUp ∧
        w.answer unhealthyThreshold healthyThreshold e = some true) := by
  rcases e with ⟨nowMs, ok⟩
  cases hw with
  | up hup hcount hend hbelow =>
      cases ok with
      | true =>
          have hprobe := applyProbe_ok_of_up nowMs unhealthyThreshold.toNat healthyThreshold.toNat hup
          refine Or.inl ⟨hup, ?_, ?_, congrArg Prod.snd hprobe⟩
          · rintro ⟨hfailed, -⟩
            cases hfailed
          · rw [probe_eq hprobe]
            exact hup
      | false =>
          have hprobe := failed_of_up healthyThreshold hup hcount hbelow nowMs
          by_cases hlast : failuresInRow w.past + 1 = downAfter unhealthyThreshold
          · rw [if_pos hlast] at hprobe
            refine Or.inr (Or.inl ⟨hup, ⟨rfl, hlast⟩, ?_, congrArg Prod.snd hprobe⟩)
            rw [probe_eq hprobe]
            intro hzero
            cases hzero
          · rw [if_neg hlast] at hprobe
            refine Or.inl ⟨hup, fun hfailed => hlast hfailed.2, ?_, congrArg Prod.snd hprobe⟩
            rw [probe_eq hprobe]
            exact hup
  | down hdown hcount hend hbelow =>
      have hnot : w.slot.healthy ≠ 1 := by
        rw [hdown]
        decide
      cases ok with
      | true =>
          have hprobe := ok_of_down unhealthyThreshold hnot hcount hbelow nowMs
          by_cases hlast : successesInRow w.past + 1 = upAfter healthyThreshold
          · rw [if_pos hlast] at hprobe
            refine Or.inr (Or.inr (Or.inr ⟨hnot, ⟨rfl, hlast⟩, ?_, congrArg Prod.snd hprobe⟩))
            rw [probe_eq hprobe]
            rfl
          · rw [if_neg hlast] at hprobe
            refine Or.inr (Or.inr (Or.inl
              ⟨hnot, fun hok => hlast hok.2, ?_, congrArg Prod.snd hprobe⟩))
            rw [probe_eq hprobe]
            exact hnot
      | false =>
          have hprobe := applyProbe_failed_of_down nowMs unhealthyThreshold.toNat
            healthyThreshold.toNat hnot
          refine Or.inr (Or.inr (Or.inl ⟨hnot, ?_, ?_, congrArg Prod.snd hprobe⟩))
          · rintro ⟨hok, -⟩
            cases hok
          · rw [probe_eq hprobe]
            exact hnot

theorem flagLaw_of_follows (hw : Follows unhealthyThreshold healthyThreshold w) :
    FlagLaw unhealthyThreshold healthyThreshold w := by
  refine ⟨?_, ?_, ?_, ?_, ?_⟩
  · intro hup e
    rcases probe_cases hw e with ⟨-, hnot, hstay, -⟩ | ⟨-, hlast, hflip, -⟩ | ⟨hdown, -⟩ | ⟨hdown, -⟩
    · exact ⟨fun h => absurd hstay h, fun h => absurd h hnot⟩
    · exact ⟨fun _ => hlast, fun _ => hflip⟩
    · exact absurd hup hdown
    · exact absurd hup hdown
  · intro hdown e
    rcases probe_cases hw e with ⟨hup, -⟩ | ⟨hup, -⟩ | ⟨-, hnot, hstay, -⟩ | ⟨-, hlast, hflip, -⟩
    · exact absurd hup hdown
    · exact absurd hup hdown
    · exact ⟨fun h => absurd h hstay, fun h => absurd h hnot⟩
    · exact ⟨fun _ => hlast, fun _ => hflip⟩
  · intro e up
    rcases probe_cases hw e with
      ⟨hup, -, hstay, hanswer⟩ | ⟨hup, -, hflip, hanswer⟩ | ⟨hdown, -, hstay, hanswer⟩ |
        ⟨hdown, -, hflip, hanswer⟩
    · simp [hanswer, hup, hstay]
    · simp [hanswer, hup, hflip, eq_comm]
    · simp [hanswer, hdown, hstay]
    · simp [hanswer, hdown, hflip, eq_comm]
  · intro hlength hfailed hup
    have hlong : downAfter unhealthyThreshold ≤ failuresOnEnd w.past :=
      le_streak hlength fun r hr => ⟨hfailed r hr, by simp [hfailed r hr]⟩
    cases hw with
    | up _ _ hend hbelow => exact absurd (hend ▸ hlong) (not_le.2 hbelow)
    | down hdown _ _ _ => cases hdown.symm.trans hup
  · intro hlength hok
    have hlong : upAfter healthyThreshold ≤ successesOnEnd w.past :=
      le_streak hlength fun r hr => ⟨by simp [hok r hr], hok r hr⟩
    cases hw with
    | up hup _ _ _ => exact hup
    | down _ _ hend hbelow => exact absurd (hend ▸ hlong) (not_le.2 hbelow)

/-- Whatever the thresholds and the results so far, the flag obeys its automaton. -/
theorem flag_law (unhealthyThreshold healthyThreshold : UInt32) (probes : List (ℕ × Bool)) :
    FlagLaw unhealthyThreshold healthyThreshold
      (probes.foldl (Watched.probe unhealthyThreshold healthyThreshold) {}) := by
  apply flagLaw_of_follows
  induction probes using List.reverseRecOn with
  | nil => exact .up rfl rfl rfl (downAfter_pos _)
  | append_singleton probes e ih =>
      rw [List.foldl_append]
      exact follows_probe ih e

end Health
end GatewayEdge
