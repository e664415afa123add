import GatewayEdge.SentinelLoop
import Mathlib.Algebra.Order.Field.Rat
import Mathlib.Data.Nat.Cast.Order.Ring
import Mathlib.Tactic.GCongr
import Mathlib.Tactic.Positivity

/-!
# ThreatAssessment — how the target posture depends on the signals

`compute_target` counts major and minor triggers and forgets which signal they came from.  Stronger
signals can trade a minor trigger for a major one but never lose one, and that is all its verdict needs to
grow.  The count is not that of the signals, though: upstreams that are down and responses that fail share
one branch, and count once when both are strong.
-/

namespace GatewayEdge
namespace Sentinel

/-! ## The verdict on two counts -/

def verdict (major minor : ℕ) : ℕ :=
  if major > 0 then (if major ≥ 2 then l4Lockdown else l3Guarded)
  else if minor ≥ 2 then l3Guarded
  else if minor = 1 then l2Elevated
  else l0Normal

/-- Triggers may turn from minor to major, and more may join them. -/
theorem verdict_mono {major minor major' minor' : ℕ} (hmajor : major ≤ major')
    (hall : major + minor ≤ major' + minor') : verdict major minor ≤ verdict major' minor' := by
  unfold verdict l4Lockdown l3Guarded l2Elevated l0Normal
  grind

theorem verdict_eq_lockdown {major minor : ℕ} : verdict major minor = l4Lockdown ↔ 2 ≤ major := by
  unfold verdict l4Lockdown l3Guarded l2Elevated l0Normal
  grind

/-! ## The triggers of each signal -/

def errRate (s : Signals) : ℚ := if s.requests > 0 then s.serverErrors / s.requests else 0

/-! The four strong conditions of a snapshot. -/

def DownStrong (s : Signals) (t : Thresholds) : Prop := t.downRatioMajor ≤ s.downRatio

def ErrorsStrong (s : Signals) (t : Thresholds) : Prop :=
  s.requests > 100 ∧ t.errorRateMajor ≤ errRate s

def WafStrong (s : Signals) (t : Thresholds) : Prop := t.wafBlocksMajor ≤ s.wafBlocks

def SaturationStrong (s : Signals) (t : Thresholds) : Prop := t.saturationMajor ≤ s.saturation

variable (s : Signals) (t : Thresholds)

instance : Decidable (DownStrong s t) := inferInstanceAs (Decidable (_ ≤ _))

instance : Decidable (ErrorsStrong s t) := inferInstanceAs (Decidable (_ ∧ _))

instance : Decidable (WafStrong s t) := inferInstanceAs (Decidable (_ ≤ _))

instance : Decidable (SaturationStrong s t) := inferInstanceAs (Decidable (_ ≤ _))

/-- Upstreams that are down and failing responses, in one branch. -/
def originTriggers : ℕ × ℕ :=
  graded (DownStrong s t ∨ ErrorsStrong s t)
    (t.downRatioMinor ≤ s.downRatio ∨ (s.requests > 100 ∧ t.errorRateMinor ≤ errRate s))

def breakerTriggers : ℕ × ℕ := if s.globalCbState = 1 then (0, 1) else (0, 0)

def wafTriggers : ℕ × ℕ := graded (WafStrong s t) (t.wafBlocksMinor ≤ s.wafBlocks)

def saturationTriggers : ℕ × ℕ := graded (SaturationStrong s t) (t.saturationMinor ≤ s.saturation)

theorem computeTarget_eq : computeTarget s t =
    verdict
      ((originTriggers s t).1 + (breakerTriggers s).1 + (wafTriggers s t).1 + (saturationTriggers s t).1)
      ((originTriggers s t).2 + (breakerTriggers s).2 + (wafTriggers s t).2 +
        (saturationTriggers s t).2) := rfl

/-! ## Stronger signals -/

/-- As many requests, and every signal at least as strong. -/
structure Signals.Below (s s' : Signals) : Prop where
  requests : s.requests = s'.requests
  downRatio : s.downRatio ≤ s'.downRatio
  breaker : s.globalCbState = 1 → s'.globalCbState = 1
  wafBlocks : s.wafBlocks ≤ s'.wafBlocks
  serverErrors : s.serverErrors ≤ s'.serverErrors
  saturation : s.saturation ≤ s'.saturation

/-- No trigger gets lost, and no major one becomes minor. -/
def TriggersGrow (g g' : ℕ × ℕ) : Prop := g.1 ≤ g'.1 ∧ g.1 + g.2 ≤ g'.1 + g'.2

theorem graded_grow {major minor major' minor' : Prop} [Decidable major] [Decidable minor]
    [Decidable major'] [Decidable minor'] (hmajor : major → major') (hminor : minor → minor') :
    TriggersGrow (graded major minor) (graded major' minor') := by
  unfold TriggersGrow graded
  -- A major trigger stays one; a minor one stays or becomes major.
  by_cases h : major
  · simp [h, hmajor h]
  · by_cases hweak : minor
    · by_cases h' : major'
      · simp [h, hweak, h']
      · simp [h, hweak, h', hminor hweak]
    · simp [h, hweak]

variable {s t} {s' : Signals}

theorem errRate_mono (h : s.Below s') : errRate s ≤ errRate s' := by
  unfold errRate
  rw [h.requests]
  split
  · have herrors : (s.serverErrors : ℚ) ≤ s'.serverErrors := Nat.cast_le.2 h.serverErrors
    gcongr
  · exact le_rfl

theorem originTriggers_grow (h : s.Below s') :
    TriggersGrow (originTriggers s t) (originTriggers s' t) := by
  have hrate := errRate_mono h
  have hmany : s.requests > 100 → s'.requests > 100 := fun hmany => h.requests ▸ hmany
  apply graded_grow
  · rintro (hdown | ⟨hrequests, herrors⟩)
    · exact Or.inl (hdown.trans h.downRatio)
    · exact Or.inr ⟨hmany hrequests, herrors.trans hrate⟩
  · rintro (hdown | ⟨hrequests, herrors⟩)
    · exact Or.inl (hdown.trans h.downRatio)
    · exact Or.inr ⟨hmany hrequests, herrors.trans hrate⟩

theorem breakerTriggers_grow (h : s.Below s') : TriggersGrow (breakerTriggers s) (breakerTriggers s') := by
  unfold TriggersGrow breakerTriggers
  by_cases hopen : s.globalCbState = 1
  · simp [hopen, h.breaker hopen]
  · simp [hopen]

/-- Stronger signals never lower the target. -/
theorem computeTarget_mono (h : s.Below s') (t : Thresholds) : computeTarget s t ≤ computeTarget s' t := by
  have horigin := originTriggers_grow (t := t) h
  have hbreaker := breakerTriggers_grow h
  have hwaf : TriggersGrow (wafTriggers s t) (wafTriggers s' t) :=
    graded_grow (fun hle => hle.trans h.wafBlocks) fun hle => hle.trans h.wafBlocks
  have hsaturation : TriggersGrow (saturationTriggers s t) (saturationTriggers s' t) :=
    graded_grow (fun hle => hle.trans h.saturation) fun hle => hle.trans h.saturation
  rw [computeTarget_eq, computeTarget_eq]
  apply verdict_mono
  · exact Nat.add_le_add (Nat.add_le_add (Nat.add_le_add horigin.1 hbreaker.1) hwaf.1) hsaturation.1
  · have hsum := Nat.add_le_add (Nat.add_le_add (Nat.add_le_add horigin.2 hbreaker.2) hwaf.2)
      hsaturation.2
    omega

/-- A node under load whose breaker opens while the WAF blocks more. -/
def strained : Signals where
  downRatio := 3 / 10
  globalCbState := 0
  wafBlocks := 60
  serverErrors := 12
  requests := 400
  saturation := 1 / 2

def stormy : Signals := { strained with globalCbState := 1, wafBlocks := 250 }

theorem strained_below_stormy : strained.Below stormy where
  requests := rfl
  downRatio := le_rfl
  breaker _ := rfl
  wafBlocks := by decide
  serverErrors := le_rfl
  saturation := le_rfl

theorem storm_raises_target : computeTarget strained {} ≤ computeTarget stormy {} :=
  computeTarget_mono strained_below_stormy {}

/-! ## Two strong signals -/

/-- How many of the four conditions hold. -/
def strongSignals (s : Signals) (t : Thresholds) : ℕ :=
  (if DownStrong s t then 1 else 0) + (if ErrorsStrong s t then 1 else 0) +
    (if WafStrong s t then 1 else 0) + (if SaturationStrong s t then 1 else 0)

theorem graded_fst (major minor : Prop) [Decidable major] [Decidable minor] :
    (graded major minor).1 = if major then 1 else 0 := by
  unfold graded
  split
  · rfl
  · split
    · rfl
    · rfl

/-- Lockdown takes two of three: strong upstream or response trouble, strong blocking, and strong
saturation. -/
theorem lockdown_iff (s : Signals) (t : Thresholds) : computeTarget s t = l4Lockdown ↔
    2 ≤ (if DownStrong s t ∨ ErrorsStrong s t then 1 else 0) + (if WafStrong s t then 1 else 0) +
      (if SaturationStrong s t then 1 else 0) := by
  have hbreaker : (breakerTriggers s).1 = 0 := by
    unfold breakerTriggers
    split
    · rfl
    · rfl
  rw [computeTarget_eq, verdict_eq_lockdown, hbreaker, Nat.add_zero]
  unfold originTriggers wafTriggers saturationTriggers
  rw [graded_fst, graded_fst, graded_fst]

/-- The target is lockdown exactly when two of the four conditions hold, but for the one pair that shares
a branch and stands alone. -/
theorem two_strong_lock_down_iff (s : Signals) (t : Thresholds) :
    (computeTarget s t = l4Lockdown ↔ 2 ≤ strongSignals s t) ↔
      ¬(DownStrong s t ∧ ErrorsStrong s t ∧ ¬ WafStrong s t ∧ ¬ SaturationStrong s t) := by
  rw [lockdown_iff]
  unfold strongSignals
  -- The two counts differ only where both conditions of the shared branch hold.
  by_cases hdown : DownStrong s t
  · by_cases herrors : ErrorsStrong s t
    · by_cases hwaf : WafStrong s t
      · simpa [hdown, herrors, hwaf] using Nat.le_add_right_of_le (by decide : 2 ≤ 3)
      · by_cases hsaturation : SaturationStrong s t
        · simp [hdown, herrors, hwaf, hsaturation]
        · simp [hdown, herrors, hwaf, hsaturation]
    · simp [hdown, herrors]
  · simp [hdown]

/-- Most upstreams are down, half of the responses are errors, and nothing else is wrong. -/
def outageSignals : Signals where
  downRatio := 3 / 5
  globalCbState := 0
  wafBlocks := 0
  serverErrors := 150
  requests := 300
  saturation := 1 / 10

theorem outage_is_not_locked_down :
    ¬(computeTarget outageSignals {} = l4Lockdown ↔ 2 ≤ strongSignals outageSignals {}) := by
  decide +kernel

end Sentinel
end GatewayEdge
