import GatewayEdge.PostureDecay
import GatewayEdge.ThreatAssessment

/-!
# PostureLevels — which values the posture takes

The levels are numbered 0, 2, 3 and 4, and a decay takes one off the number.  From L2 that leads to 1,
which is no level, unless the target holds it up; and below L2 there is only one target.  Everything else
moves between levels.

Over the mutex of the code no iteration comes to its end, so the posture stays a level
(`posture_stays_a_level`).  Over a reentrant one the gap would be met, and only there
(`posture_levels_iff`).
-/

namespace GatewayEdge
namespace Sentinel

open Foundation
open PostureDecay (breakerSample)

/-! ## Levels -/

def IsLevel (posture : ℕ) : Prop :=
  posture = l0Normal ∨ posture = l2Elevated ∨ posture = l3Guarded ∨ posture = l4Lockdown

instance : DecidablePred IsLevel := fun _ => inferInstanceAs (Decidable (_ ∨ _))

/-- The next of the four levels downwards. -/
def nextLower (posture : ℕ) : ℕ :=
  if posture = l4Lockdown then l3Guarded else if posture = l3Guarded then l2Elevated else l0Normal

theorem verdict_isLevel (major minor : ℕ) : IsLevel (verdict major minor) := by
  unfold verdict IsLevel
  split
  · split
    · exact Or.inr (Or.inr (Or.inr rfl))
    · exact Or.inr (Or.inr (Or.inl rfl))
  · split
    · exact Or.inr (Or.inr (Or.inl rfl))
    · split
      · exact Or.inr (Or.inl rfl)
      · exact Or.inl rfl

theorem computeTarget_isLevel (s : Signals) (t : Thresholds) : IsLevel (computeTarget s t) := by
  rw [computeTarget_eq]
  exact verdict_isLevel _ _

theorem target_isLevel (st : State) (s : Sample) : IsLevel (st.target s) := by
  unfold State.target escalated
  split
  · exact Or.inr (Or.inl rfl)
  · exact computeTarget_isLevel _ _

/-! ## One iteration -/

/-- A decay goes to the next lower level, or stops at the target. -/
def DecaysByLevel (reentrant : Bool) (st : State) (s : Sample) : Prop :=
  ∀ st', loopStep reentrant st s = some st' → st'.posture < st.posture →
    st'.posture = nextLower st.posture ∨ st'.posture = st.target s

/-- No decay from L2 that the target does not stop. -/
def AvoidsGap (st : State) (s : Sample) : Prop :=
  ¬(st.posture = l2Elevated ∧ st.target s = l0Normal ∧ st.Settled s)

theorem loopStep_eq_some {reentrant : Bool} {st st' : State} {s : Sample} :
    loopStep reentrant st s = some st' ↔ reentrant = true ∧ st' = sampleStep s st := by
  cases reentrant with
  | true => simp [loopStep, iteration_reentrant, Except.toOption, eq_comm]
  | false => simp [loopStep, (iteration_blocks st).1 s, Except.toOption]

/-- A level is followed by a level exactly if the gap is avoided. -/
theorem isLevel_next_iff {st : State} (h : IsLevel st.posture) (s : Sample) :
    IsLevel (sampleStep s st).posture ↔ AvoidsGap st s := by
  have htarget := target_isLevel st s
  rcases sampleStep_cases s st with
    ⟨habove, hraised, -⟩ | ⟨hbelow, hsettled, hlowered, -⟩ | ⟨-, hnot, hkept, -⟩
  · -- A raise goes to the target, which is above L0.
    rw [hraised]
    refine ⟨fun _ hgap => ?_, fun _ => htarget⟩
    rw [hgap.2.1] at habove
    exact Nat.not_lt_zero _ habove
  · -- One off the number of a level is a level again, or 1, or below a target that is a level.
    rw [hlowered]
    unfold AvoidsGap
    unfold IsLevel l0Normal l2Elevated l3Guarded l4Lockdown at *
    constructor
    · rintro hlevel ⟨htwo, hzero, -⟩
      omega
    · intro hgap
      have hnotBoth : ¬(st.posture = 2 ∧ st.target s = 0) := fun hboth =>
        hgap ⟨hboth.1, hboth.2, hsettled⟩
      omega
  · rw [hkept]
    refine ⟨fun _ hgap => ?_, fun _ => h⟩
    have hdown : st.target s < st.posture := by
      rw [hgap.1, hgap.2.1]
      decide
    exact hnot ⟨hdown, hgap.2.2⟩

theorem decaysByLevel_of_avoidsGap {reentrant : Bool} {st : State} {s : Sample}
    (h : IsLevel st.posture) (hgap : AvoidsGap st s) : DecaysByLevel reentrant st s := by
  intro st' hstep hlower
  rcases loopStep_eq_some.1 hstep with ⟨-, rfl⟩
  have htarget := target_isLevel st s
  have hnext := (isLevel_next_iff h s).2 hgap
  rcases sampleStep_cases s st with
    ⟨-, hraised, -⟩ | ⟨hbelow, -, hlowered, -⟩ | ⟨-, -, hkept, -⟩
  · exact Or.inr hraised
  · rw [hlowered] at hnext ⊢
    unfold nextLower
    unfold IsLevel l0Normal l2Elevated l3Guarded l4Lockdown at *
    split
    · omega
    · split
      · omega
      · omega
  · exact absurd hlower hkept.not_lt

/-! ## Whole runs -/

/-- In a run of the loop the posture is a level throughout and comes down by levels exactly if no decay
from L2 is left to the numbering. -/
theorem posture_levels_iff (reentrant : Bool) (samples : List Sample) :
    (Throughout (loopStep reentrant) (fun st => IsLevel st.posture) {} samples ∧
        Along (loopStep reentrant) (DecaysByLevel reentrant) {} samples) ↔
      Along (loopStep reentrant) AvoidsGap {} samples := by
  -- Over the standard mutex the loop is still in its first state.
  have hstart : ∀ st s st', (reentrant = false → st.posture = l0Normal) →
      loopStep reentrant st s = some st' → reentrant = false → st'.posture = l0Normal := by
    intro st s st' _ hstep hfalse
    exact absurd (hfalse.symm.trans (loopStep_eq_some.1 hstep).1) Bool.false_ne_true
  have hlevels : Throughout (loopStep reentrant) (fun st => IsLevel st.posture) {} samples ↔
      Along (loopStep reentrant) AvoidsGap {} samples := by
    apply throughout_iff_along (I := fun st => reentrant = false → st.posture = l0Normal)
      (fun st s st' hst _ _ hstep => hstart st s st' hst hstep)
    · intro st s hfirst hlevel
      cases reentrant with
      | true =>
          constructor
          · intro h
            exact (isLevel_next_iff hlevel s).1 (h _ (loopStep_eq_some.2 ⟨rfl, rfl⟩))
          · intro hgap st' hstep
            rw [(loopStep_eq_some.1 hstep).2]
            exact (isLevel_next_iff hlevel s).2 hgap
      | false =>
          -- Nothing to avoid at L0, and no next state to be a level.
          constructor
          · rintro - ⟨htwo, -⟩
            exact absurd ((hfirst rfl).symm.trans htwo) (by decide)
          · intro _ st' hstep
            exact absurd (loopStep_eq_some.1 hstep).1 Bool.false_ne_true
    · exact fun _ => rfl
    · exact Or.inl rfl
  constructor
  · rintro ⟨hthroughout, -⟩
    exact hlevels.1 hthroughout
  · intro hgap
    refine ⟨hlevels.2 hgap, ?_⟩
    apply along_mono (I := fun st => IsLevel st.posture) (P := AvoidsGap) ?_ ?_ (Or.inl rfl) hgap
    · intro st s st' hlevel hgap hstep
      rw [(loopStep_eq_some.1 hstep).2]
      exact (isLevel_next_iff hlevel s).2 hgap
    · intro st s hlevel hgap
      exact decaysByLevel_of_avoidsGap hlevel hgap

/-- Over the mutex of the code the posture is a level in every state that is reached, and every decay goes
down by levels: the loop is held up before its first posture update and the posture stays at L0. -/
theorem posture_stays_a_level (samples : List Sample) :
    Throughout (loopStep false) (fun st => IsLevel st.posture) {} samples ∧
      Along (loopStep false) (DecaysByLevel false) {} samples := by
  apply (posture_levels_iff false samples).2
  cases samples with
  | nil => exact trivial
  | cons s samples =>
      constructor
      · rintro ⟨htwo, -⟩
        exact absurd htwo (by decide)
      · intro st' hstep
        exact absurd (loopStep_eq_some.1 hstep).1 Bool.false_ne_true

/-! Were the mutex reentrant, the gap in the numbering would be met. -/

/-- The breaker is open for a second, and a minute later all is quiet. -/
def briefStorm : List Sample := [breakerSample 1 1000000, breakerSample 0 1060000]

theorem brief_storm_leaves_the_levels :
    ¬(Throughout (loopStep true) (fun st => IsLevel st.posture) {} briefStorm ∧
        Along (loopStep true) (DecaysByLevel true) {} briefStorm) := by
  rintro ⟨hlevels, -⟩
  have hposture : (run (loopStep true) {} briefStorm).map State.posture = some 1 := by decide +kernel
  rcases Option.map_eq_some_iff.1 hposture with ⟨st, hrun, hone⟩
  have hlevel : IsLevel st.posture := hlevels briefStorm [] st (List.append_nil _).symm hrun
  rw [hone] at hlevel
  exact absurd hlevel (by decide)

end Sentinel
end GatewayEdge
