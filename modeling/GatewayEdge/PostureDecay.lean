import GatewayEdge.SentinelLoop

/-!
# PostureDecay — how the posture comes down again

The sentinel over its samples, apart from its locking: beside the state of its thread stands what each
sample of the past asked for and what became of it.

A posture is to come down only after a minute of samples that all asked for less.  The two timers of
the loop do not say that: a sample that asks for just the posture in force restarts neither of them.
Everything else holds, so the rule is kept exactly by the runs in which no such sample falls into the
minute before the posture could come down.
-/

namespace GatewayEdge
namespace PostureDecay

open Foundation
open Sentinel (Sample State iteration iteration_reentrant sampleStep sampleStep_cases)

/-! ## The sentinel and its past -/

/-- A sample of the past: when it was taken, the target it came to, the posture it found and the one it
left, and the clock reading that a change of the posture was stamped with. -/
structure Record where
  time : ℕ
  target : ℕ
  inForce : ℕ
  after : ℕ
  setMs : ℕ
  deriving DecidableEq, Repr

structure Watch where
  st : State := {}
  /-- The latest reading of the clock. -/
  clock : ℕ := 0
  past : List Record := []

/-- One sample; the clock does not go back. -/
def step (w : Watch) (s : Sample) : Option Watch :=
  if w.clock ≤ s.nowMs ∧ s.nowMs ≤ s.setLevelMs then
    match iteration true s w.st with
    | .error _ => none
    | .ok st =>
      some
        { st := st
          clock := s.setLevelMs
          past :=
            { time := s.nowMs
              target := w.st.target s
              inForce := w.st.posture
              after := st.posture
              setMs := s.setLevelMs } :: w.past }
  else none

theorem step_eq_some {w w' : Watch} {s : Sample} :
    step w s = some w' ↔
      (w.clock ≤ s.nowMs ∧ s.nowMs ≤ s.setLevelMs) ∧
        w' =
          { st := sampleStep s w.st
            clock := s.setLevelMs
            past :=
              { time := s.nowMs
                target := w.st.target s
                inForce := w.st.posture
                after := (sampleStep s w.st).posture
                setMs := s.setLevelMs } :: w.past } := by
  by_cases hclock : w.clock ≤ s.nowMs ∧ s.nowMs ≤ s.setLevelMs
  · simp [step, hclock, iteration_reentrant, eq_comm]
  · simp [step, hclock]

/-! ## The rule and what keeps it -/

/-- The rule for one sample, taken in `w` and leaving `w'`. -/
structure CleanMinute (w : Watch) (s : Sample) (w' : Watch) : Prop where
  /-- Each sample of the minute before a lowering had asked for less than was in force. -/
  below : w'.st.posture < w.st.posture →
    ∀ p ∈ w.past, s.nowMs < p.time + 60000 → p.target < p.inForce
  /-- No change of the posture falls into that minute. -/
  still : w'.st.posture < w.st.posture →
    ∀ p ∈ w.past, s.nowMs < p.setMs + 60000 → p.after = p.inForce
  /-- What asks for more gets it at once. -/
  raised : w.st.posture < w.st.target s → w'.st.posture = w.st.target s

def DecaysCleanly (w : Watch) (s : Sample) : Prop :=
  ∀ w', step w s = some w' → CleanMinute w s w'

/-- When a sample asks for less and both timers have run out, no sample of the last minute has asked
for just the posture in force. -/
def NoPlateau (w : Watch) (s : Sample) : Prop :=
  w.clock ≤ s.nowMs → s.nowMs ≤ s.setLevelMs → w.st.target s < w.st.posture → w.st.Settled s →
    ∀ p ∈ w.past, s.nowMs < p.time + 60000 → p.target ≠ p.inForce

/-! ## What the timers know of the past -/

structure Inv (w : Watch) : Prop where
  since_le : w.st.postureSinceMs ≤ w.clock
  changed : ∀ p ∈ w.past, p.after ≠ p.inForce → p.setMs ≤ w.st.postureSinceMs
  timely : ∀ p ∈ w.past, p.time ≤ p.setMs
  raised : ∀ p ∈ w.past, p.inForce < p.target → p.after ≠ p.inForce

theorem inv_start : Inv {} where
  since_le := le_rfl
  changed := by simp
  timely := by simp
  raised := by simp

/-- A change of the posture is stamped with the clock, and nothing else touches the stamp. -/
theorem since_of_sample (s : Sample) (st : State) :
    (sampleStep s st).postureSinceMs = s.setLevelMs ∨
      ((sampleStep s st).posture = st.posture ∧
        (sampleStep s st).postureSinceMs = st.postureSinceMs) := by
  rcases sampleStep_cases s st with h | h | h
  · exact Or.inl h.2.2
  · exact Or.inl h.2.2.2
  · exact Or.inr h.2.2

/-- A target above the posture becomes the posture. -/
theorem posture_of_raise {s : Sample} {st : State} (h : st.posture < st.target s) :
    (sampleStep s st).posture = st.target s := by
  rcases sampleStep_cases s st with hcase | hcase | hcase
  · exact hcase.2.1
  · exact absurd h hcase.1.not_gt
  · exact absurd h hcase.1.not_gt

/-- The posture comes down exactly when less is asked for and both timers have run out. -/
theorem lowered_iff (s : Sample) (st : State) :
    (sampleStep s st).posture < st.posture ↔ st.target s < st.posture ∧ st.Settled s := by
  rcases sampleStep_cases s st with
    ⟨habove, hraised, -⟩ | ⟨hbelow, hsettled, hlowered, -⟩ | ⟨-, hnot, hkept, -⟩
  · constructor
    · intro hlow
      omega
    · rintro ⟨hbelow, _⟩
      omega
  · exact ⟨fun _ => ⟨hbelow, hsettled⟩, fun _ => by omega⟩
  · exact ⟨fun hlow => absurd hkept hlow.ne, fun hdecay => absurd hdecay hnot⟩

theorem inv_step {w w' : Watch} {s : Sample} (h : Inv w) (hstep : step w s = some w') : Inv w' := by
  rcases step_eq_some.1 hstep with ⟨⟨hclock, hset⟩, rfl⟩
  have hold : w.st.postureSinceMs ≤ s.setLevelMs := h.since_le.trans (hclock.trans hset)
  have hsince : w.st.postureSinceMs ≤ (sampleStep s w.st).postureSinceMs ∧
      (sampleStep s w.st).postureSinceMs ≤ s.setLevelMs := by
    rcases since_of_sample s w.st with hstamp | ⟨_, hkept⟩
    · exact ⟨hstamp ▸ hold, hstamp.le⟩
    · exact ⟨hkept.ge, hkept ▸ hold⟩
  refine ⟨hsince.2, ?_, ?_, ?_⟩
  · intro p hp hchange
    rcases List.mem_cons.1 hp with rfl | hp
    · rcases since_of_sample s w.st with hstamp | ⟨hkept, _⟩
      · exact hstamp.ge
      · exact absurd hkept hchange
    · exact (h.changed p hp hchange).trans hsince.1
  · intro p hp
    rcases List.mem_cons.1 hp with rfl | hp
    · exact hset
    · exact h.timely p hp
  · intro p hp habove
    rcases List.mem_cons.1 hp with rfl | hp
    · exact ((posture_of_raise habove).trans_gt habove).ne'
    · exact h.raised p hp habove

/-- Once the timers have run out, the last change of the posture is a minute old. -/
theorem Inv.changed_of_settled {w : Watch} (h : Inv w) {s : Sample} (hsettled : w.st.Settled s)
    {p : Record} (hp : p ∈ w.past) (hchange : p.after ≠ p.inForce) : p.setMs + 60000 ≤ s.nowMs := by
  have hstamp := h.changed p hp hchange
  have hminute : s.nowMs - w.st.postureSinceMs ≥ 60000 := hsettled.2
  omega

/-- And no sample of the last minute has asked for more than was in force. -/
theorem Inv.not_above_of_settled {w : Watch} (h : Inv w) {s : Sample} (hsettled : w.st.Settled s)
    {p : Record} (hp : p ∈ w.past) (hrecent : s.nowMs < p.time + 60000) : p.target ≤ p.inForce := by
  by_contra habove
  have hchange := h.raised p hp (not_le.1 habove)
  have hold := h.changed_of_settled hsettled hp hchange
  have htimely := h.timely p hp
  omega

/-- One sample keeps the rule exactly when it keeps clear of a plateau. -/
theorem decaysCleanly_iff {w : Watch} (h : Inv w) (s : Sample) :
    DecaysCleanly w s ↔ NoPlateau w s := by
  constructor
  · intro hclean hclock hset hbelow hsettled p hp hrecent
    have hlow := (lowered_iff s w.st).2 ⟨hbelow, hsettled⟩
    exact ((hclean _ (step_eq_some.2 ⟨⟨hclock, hset⟩, rfl⟩)).below hlow p hp hrecent).ne
  · intro hplateau w' hstep
    rcases step_eq_some.1 hstep with ⟨⟨hclock, hset⟩, rfl⟩
    refine ⟨fun hlow p hp hrecent => ?_, fun hlow p hp hrecent => ?_, posture_of_raise⟩
    · rcases (lowered_iff s w.st).1 hlow with ⟨hbelow, hsettled⟩
      have hne := hplateau hclock hset hbelow hsettled p hp hrecent
      exact lt_of_le_of_ne (h.not_above_of_settled hsettled hp hrecent) hne
    · rcases (lowered_iff s w.st).1 hlow with ⟨_, hsettled⟩
      by_contra hchange
      exact absurd (h.changed_of_settled hsettled hp hchange) (not_le.2 hrecent)

/-! ## Whole runs -/

/-- A run of the sentinel keeps the rule throughout exactly when it keeps clear of plateaus. -/
theorem decays_cleanly_iff_no_plateau (samples : List Sample) :
    Along step DecaysCleanly {} samples ↔ Along step NoPlateau {} samples := by
  apply along_congr (I := Inv)
  · intro w s w' h hstep
    exact inv_step h hstep
  · intro w s h
    exact decaysCleanly_iff h s
  · exact inv_start

/-- A second with the global breaker in the given state and nothing else going on. -/
def breakerSample (globalState nowMs : ℕ) : Sample where
  nowMs := nowMs
  snapshot := {}
  wafTotal := 0
  downRatio := 0
  globalState := globalState
  inFlight := 0
  globalMaxConcurrency := 100
  setLevelMs := nowMs

/-- For a minute the breaker is open, and the second after it is not. -/
def stormMinute : List Sample := (List.range 60).map fun k => breakerSample 1 (1000000 + 1000 * k)

theorem storm_minute_decays :
    ¬ Along step DecaysCleanly {} (stormMinute ++ [breakerSample 0 1060000]) := by
  intro h
  have hstorm : (run step {} stormMinute).any fun w =>
      decide (w.clock ≤ 1060000 ∧ w.st.target (breakerSample 0 1060000) < w.st.posture ∧
        w.st.Settled (breakerSample 0 1060000) ∧
        ∃ p ∈ w.past, 1060000 < p.time + 60000 ∧ p.target = p.inForce) := by
    decide +kernel
  cases hrun : run step {} stormMinute with
  | none =>
      rw [hrun] at hstorm
      cases hstorm
  | some w =>
      rw [hrun] at hstorm
      rcases of_decide_eq_true hstorm with ⟨hclock, hbelow, hsettled, p, hp, hrecent, hplateau⟩
      have hlow := (lowered_iff (breakerSample 0 1060000) w.st).2 ⟨hbelow, hsettled⟩
      have hclean := h.at hrun _ (step_eq_some.2 ⟨⟨hclock, le_rfl⟩, rfl⟩)
      exact (hclean.below hlow p hp hrecent).ne hplateau

end PostureDecay
end GatewayEdge
