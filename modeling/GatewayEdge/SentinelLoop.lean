import GatewayEdge.Backpressure
import GatewayEdge.Baselines
import GatewayEdge.Foundation.Mutex
import GatewayEdge.Foundation.Run
import GatewayEdge.Sentinel
import GatewayEdge.Telemetry

/-!
# SentinelLoop — the thread that sets the posture

Once a second the sentinel thread reads the node's signals, judges them against the learned baselines
and moves the posture.  The baselines are behind a mutex.  An iteration takes it, calls helpers that
take it again, and only then feeds the baselines and lets it go.

The iteration is written once, over a mutex that is reentrant or not.  Over the standard one no
iteration comes to its end; over a reentrant one it is `sampleStep`, which is what the thread computes
apart from its locking.
-/

namespace GatewayEdge
namespace Sentinel

open Foundation
open Foundation.Locked (Acts Blocks withLock read update)

/-! ## Signals and their verdict -/

structure Signals where
  /-- The part of the upstreams that the probes have marked down. -/
  downRatio : ℚ
  globalCbState : ℕ
  wafBlocks : ℕ
  serverErrors : ℕ
  requests : ℕ
  saturation : ℚ
  deriving DecidableEq, Repr

structure Thresholds where
  downRatioMajor : ℚ := 1 / 2
  downRatioMinor : ℚ := 1 / 4
  errorRateMajor : ℚ := 1 / 5
  errorRateMinor : ℚ := 1 / 20
  wafBlocksMajor : ℕ := 200
  wafBlocksMinor : ℕ := 50
  saturationMajor : ℚ := 19 / 20
  saturationMinor : ℚ := 4 / 5
  deriving DecidableEq, Repr

/-- How many major and how many minor triggers one signal contributes. -/
def graded (major minor : Prop) [Decidable major] [Decidable minor] : ℕ × ℕ :=
  if major then (1, 0) else if minor then (0, 1) else (0, 0)

def computeTarget (s : Signals) (t : Thresholds) : ℕ :=
  let errRate : ℚ := if s.requests > 0 then s.serverErrors / s.requests else 0
  let origin := graded
    (t.downRatioMajor ≤ s.downRatio ∨ (s.requests > 100 ∧ t.errorRateMajor ≤ errRate))
    (t.downRatioMinor ≤ s.downRatio ∨ (s.requests > 100 ∧ t.errorRateMinor ≤ errRate))
  -- An open passive breaker is a minor trigger of its own.
  let breaker : ℕ × ℕ := if s.globalCbState = 1 then (0, 1) else (0, 0)
  let waf := graded (t.wafBlocksMajor ≤ s.wafBlocks) (t.wafBlocksMinor ≤ s.wafBlocks)
  let saturation := graded (t.saturationMajor ≤ s.saturation) (t.saturationMinor ≤ s.saturation)
  let triggersMajor := origin.1 + breaker.1 + waf.1 + saturation.1
  let triggersMinor := origin.2 + breaker.2 + waf.2 + saturation.2
  if triggersMajor > 0 then (if triggersMajor ≥ 2 then l4Lockdown else l3Guarded)
  else if triggersMinor ≥ 2 then l3Guarded
  else if triggersMinor = 1 then l2Elevated
  else l0Normal

/-! ## The learned baselines and their lock -/

structure Baselines where
  waf : MadBaseline := .new
  errors : MadBaseline := .new
  saturation : MadBaseline := .new

def anomalousWaf (reentrant : Bool) (v : ℕ) : Locked Baselines Bool :=
  withLock reentrant (read fun bl => bl.waf.isAnomalous (.num v) 6 50)

/-- A guard inside `&&` or `||` does not outlive its operand. -/
def anomalousErrors (reentrant : Bool) (v requests : ℕ) : Locked Baselines Bool :=
  if requests < 100 then pure false
  else
    (pure (decide ((1 / 20 : ℚ) ≤ v / requests)) <&&>
      withLock reentrant (read fun bl => bl.errors.isAnomalous (.num v) 6 20)) <||>
    withLock reentrant (read fun bl => bl.errors.isAnomalous (.num v) 6 200)

def anomalousSaturation (reentrant : Bool) (v : ℚ) : Locked Baselines Bool :=
  withLock reentrant (read fun bl => bl.saturation.isAnomalous (.num v) 4 (4 / 5))

/-- The block of the loop that judges the signals and then feeds the baselines, all of it in the scope
of the guard `bl`. -/
def judge (reentrant : Bool) (wafDelta errDelta reqDelta : ℕ) (saturation : ℚ) :
    Locked Baselines (Bool × Bool × Bool) :=
  withLock reentrant do
    let wafAnom ← anomalousWaf reentrant wafDelta
    let errAnom ← anomalousErrors reentrant errDelta reqDelta
    let satAnom ← anomalousSaturation reentrant saturation
    update fun bl =>
      { waf := bl.waf.observe (.num wafDelta)
        errors := bl.errors.observe (.num errDelta)
        saturation := bl.saturation.observe (.num saturation) }
    pure (wafAnom, errAnom, satAnom)

/-! ## The loop -/

/-- What an iteration reads from the rest of the node. -/
structure Sample where
  nowMs : ℕ
  snapshot : Telemetry.Metrics
  wafTotal : ℕ
  downRatio : ℚ
  globalState : ℕ
  inFlight : ℤ
  globalMaxConcurrency : ℕ
  /-- The clock as `set_level` reads it. -/
  setLevelMs : ℕ

/-- The locals of the loop, and the statics that only its thread writes. -/
structure State where
  baselines : Mutex Baselines := { data := {} }
  posture : ℕ := l0Normal
  postureSinceMs : ℕ := 0
  transitionsTotal : ℕ := 0
  prevWaf : ℕ := 0
  prev5xx : ℕ := 0
  prevReq : ℕ := 0
  lastRaiseMs : ℕ := 0
  cleanMinutes : ℕ := 0

/-- `set_level`: the state afterwards, and whether the posture has changed. -/
def setLevel (new clockMs : ℕ) (st : State) : State × Bool :=
  if st.posture ≠ new then
    ({ st with
        posture := new
        postureSinceMs := clockMs
        transitionsTotal := st.transitionsTotal + 1 }, true)
  else (st, false)

def backpressureSaturation (s : Sample) : ℚ :=
  min (s.inFlight / (max s.globalMaxConcurrency 1 : ℕ)) (3 / 2)

namespace State

/-! The deltas saturate, as natural subtraction does. -/

def wafDelta (st : State) (s : Sample) : ℕ := s.wafTotal - st.prevWaf

def errDelta (st : State) (s : Sample) : ℕ := s.snapshot.requests5xx - st.prev5xx

def reqDelta (st : State) (s : Sample) : ℕ := s.snapshot.requestsTotal - st.prevReq

def signals (st : State) (s : Sample) : Signals where
  downRatio := s.downRatio
  -- `as u8`
  globalCbState := s.globalState % 256
  wafBlocks := st.wafDelta s
  serverErrors := st.errDelta s
  requests := st.reqDelta s
  saturation := backpressureSaturation s

/-- A minute has passed since the last raise, and one since the last change of the posture. -/
def Settled (st : State) (s : Sample) : Prop :=
  s.nowMs - st.lastRaiseMs ≥ 60000 ∧ s.nowMs - st.postureSinceMs ≥ 60000

instance (st : State) (s : Sample) : Decidable (st.Settled s) :=
  inferInstanceAs (Decidable (_ ∧ _))

end State

/-- The target of `compute_target`, lifted to L2 by any learned anomaly. -/
def escalated (target : ℕ) (wafAnom errAnom satAnom : Bool) : ℕ :=
  if target < l2Elevated ∧ (wafAnom || errAnom || satAnom) then l2Elevated else target

/-- The hysteresis at the end of an iteration. -/
def updatePosture (target : ℕ) (s : Sample) (st : State) : State :=
  let current := st.posture
  if target > current then
    match setLevel target s.setLevelMs st with
    | (st, true) => { st with lastRaiseMs := s.nowMs, cleanMinutes := 0 }
    | (st, false) => st
  else if target < current then
    if st.Settled s then
      let st := { st with cleanMinutes := st.cleanMinutes + 1 }
      if st.cleanMinutes ≥ 1 then
        let next := max (current - 1) target
        { (setLevel next s.setLevelMs st).1 with cleanMinutes := 0 }
      else st
    else st
  -- A target equal to the posture leaves both timers as they are.
  else st

/-- One iteration of `sentinel_loop`. -/
def iteration (reentrant : Bool) (s : Sample) (st : State) : Except LockError State := do
  let ((wafAnom, errAnom, satAnom), baselines) ←
    judge reentrant (st.wafDelta s) (st.errDelta s) (st.reqDelta s) (backpressureSaturation s)
      st.baselines
  let target := escalated (computeTarget (st.signals s) {}) wafAnom errAnom satAnom
  pure (updatePosture target s
    { st with
      baselines := baselines
      prevWaf := s.wafTotal
      prev5xx := s.snapshot.requests5xx
      prevReq := s.snapshot.requestsTotal })

/-- The loop as a system: each event is a sample. -/
def loopStep (reentrant : Bool) (st : State) (s : Sample) : Option State :=
  (iteration reentrant s st).toOption

/-! ## The verdicts, apart from the lock -/

namespace Baselines

def wafVerdict (bl : Baselines) (v : ℕ) : Bool := bl.waf.isAnomalous (.num v) 6 50

def errorsVerdict (bl : Baselines) (v requests : ℕ) : Bool :=
  if requests < 100 then false
  else
    decide ((1 / 20 : ℚ) ≤ v / requests) && bl.errors.isAnomalous (.num v) 6 20 ||
      bl.errors.isAnomalous (.num v) 6 200

def saturationVerdict (bl : Baselines) (v : ℚ) : Bool := bl.saturation.isAnomalous (.num v) 4 (4 / 5)

/-- The baselines after an iteration has fed them. -/
def fed (bl : Baselines) (wafDelta errDelta : ℕ) (saturation : ℚ) : Baselines where
  waf := bl.waf.observe (.num wafDelta)
  errors := bl.errors.observe (.num errDelta)
  saturation := bl.saturation.observe (.num saturation)

end Baselines

section Helpers

variable {P : ℕ → Prop} {reentrant : Bool}

/-! Each helper takes the lock and lets it go again, so it goes through wherever the lock does. -/

theorem anomalousWaf_acts (hfree : ∀ n, P n → reentrant = true ∨ n = 0) (v : ℕ) :
    Acts P (anomalousWaf reentrant v) fun bl => (bl.wafVerdict v, bl) := by
  apply Acts.withLock hfree
  apply Locked.acts_read

theorem anomalousErrors_acts (hfree : ∀ n, P n → reentrant = true ∨ n = 0) (v requests : ℕ) :
    Acts P (anomalousErrors reentrant v requests) fun bl => (bl.errorsVerdict v requests, bl) := by
  have hlocked : ∀ f : Baselines → Bool, Acts P (withLock reentrant (read f)) fun bl => (f bl, bl) :=
    fun f => Acts.withLock hfree (Locked.acts_read f)
  by_cases hthin : requests < 100
  · simpa [anomalousErrors, Baselines.errorsVerdict, hthin] using Locked.acts_pure false
  · simpa [anomalousErrors, Baselines.errorsVerdict, hthin] using
      ((hlocked _).and (decide ((1 / 20 : ℚ) ≤ v / requests))).or (hlocked _)

theorem anomalousSaturation_acts (hfree : ∀ n, P n → reentrant = true ∨ n = 0) (v : ℚ) :
    Acts P (anomalousSaturation reentrant v) fun bl => (bl.saturationVerdict v, bl) := by
  apply Acts.withLock hfree
  apply Locked.acts_read

end Helpers

/-! ## Over the standard mutex -/

/-- The first helper is called in the scope of `bl` and waits for it. -/
theorem judge_blocks (wafDelta errDelta reqDelta : ℕ) (saturation : ℚ) :
    Blocks (fun _ => True) (judge false wafDelta errDelta reqDelta saturation) := by
  have hfirst : Blocks (fun n => n ≠ 0) (anomalousWaf false wafDelta) :=
    Locked.blocks_withLock_of_held _
  exact Blocks.withLock (hfirst.bind _)

/-- No iteration comes to its posture update, whatever it samples and whatever the baselines hold; so
the thread computes nothing at all. -/
theorem iteration_blocks (st : State) :
    (∀ s, iteration false s st = .error .relock) ∧
      ∀ samples st', run (loopStep false) st samples = some st' → samples = [] ∧ st' = st := by
  have hblocks : ∀ s, iteration false s st = .error .relock := by
    intro s
    have hjudge := judge_blocks (st.wafDelta s) (st.errDelta s) (st.reqDelta s)
      (backpressureSaturation s) st.baselines trivial
    simp only [iteration, hjudge]
    rfl
  refine ⟨hblocks, fun samples st' hrun => ?_⟩
  cases samples with
  | nil => exact ⟨rfl, (Option.some.inj hrun).symm⟩
  | cons s samples =>
      rcases run_cons_eq_some.1 hrun with ⟨st₁, hstep, _⟩
      simp [loopStep, hblocks s, Except.toOption] at hstep

/-- A second in which nothing happens. -/
def quietSample : Sample where
  nowMs := 1000
  snapshot := {}
  wafTotal := 0
  downRatio := 0
  globalState := 0
  inFlight := 0
  globalMaxConcurrency := 100
  setLevelMs := 1000

theorem quiet_sample_blocks : ¬ ∃ st', iteration false quietSample {} = .ok st' := by
  rintro ⟨st', hok⟩
  have herror : iteration false quietSample {} = .error .relock := rfl
  cases herror.symm.trans hok

/-! ## Over a reentrant mutex -/

namespace State

/-- The target that an iteration compares with the posture. -/
def target (st : State) (s : Sample) : ℕ :=
  escalated (computeTarget (st.signals s) {})
    (st.baselines.data.wafVerdict (st.wafDelta s))
    (st.baselines.data.errorsVerdict (st.errDelta s) (st.reqDelta s))
    (st.baselines.data.saturationVerdict (backpressureSaturation s))

/-- The state when an iteration comes to its posture update. -/
def sampled (st : State) (s : Sample) : State :=
  { st with
    baselines :=
      { st.baselines with
        data := st.baselines.data.fed (st.wafDelta s) (st.errDelta s) (backpressureSaturation s) }
    prevWaf := s.wafTotal
    prev5xx := s.snapshot.requests5xx
    prevReq := s.snapshot.requestsTotal }

end State

/-- What an iteration computes. -/
def sampleStep (s : Sample) (st : State) : State :=
  updatePosture (st.target s) s (st.sampled s)

theorem judge_acts (wafDelta errDelta reqDelta : ℕ) (saturation : ℚ) :
    Acts (fun _ => True) (judge true wafDelta errDelta reqDelta saturation) fun bl =>
      ((bl.wafVerdict wafDelta, bl.errorsVerdict errDelta reqDelta, bl.saturationVerdict saturation),
        bl.fed wafDelta errDelta saturation) := by
  have hfree : ∀ n : ℕ, (∃ k, True ∧ n = k + 1) → true = true ∨ n = 0 := fun _ _ => Or.inl rfl
  have hbody :=
    (anomalousWaf_acts hfree wafDelta).bind fun wafAnom =>
      (anomalousErrors_acts hfree errDelta reqDelta).bind fun errAnom =>
        (anomalousSaturation_acts hfree saturation).bind fun satAnom =>
          (Locked.acts_update fun bl => bl.fed wafDelta errDelta saturation).bind fun _ =>
            Locked.acts_pure (wafAnom, errAnom, satAnom)
  exact Acts.withLock (fun _ _ => Or.inl rfl) hbody

/-- Where the lock may be taken again, an iteration computes `sampleStep`. -/
theorem iteration_reentrant (s : Sample) (st : State) :
    iteration true s st = .ok (sampleStep s st) := by
  have hjudge := judge_acts (st.wafDelta s) (st.errDelta s) (st.reqDelta s)
    (backpressureSaturation s) st.baselines trivial
  simp only [iteration, hjudge]
  rfl

/-- What the hysteresis does to the posture and to the time of its last change: a higher target is taken
over at once, a lower one pulls the posture down a level once both timers have run out, and otherwise
both stay. -/
theorem updatePosture_cases (target : ℕ) (s : Sample) (st : State) :
    (st.posture < target ∧ (updatePosture target s st).posture = target ∧
        (updatePosture target s st).postureSinceMs = s.setLevelMs) ∨
      (target < st.posture ∧ st.Settled s ∧
        (updatePosture target s st).posture = max (st.posture - 1) target ∧
        (updatePosture target s st).postureSinceMs = s.setLevelMs) ∨
      (target ≤ st.posture ∧ ¬(target < st.posture ∧ st.Settled s) ∧
        (updatePosture target s st).posture = st.posture ∧
        (updatePosture target s st).postureSinceMs = st.postureSinceMs) := by
  rcases lt_trichotomy target st.posture with hbelow | hequal | habove
  · by_cases hsettled : st.Settled s
    · have hnext : st.posture ≠ max (st.posture - 1) target := by omega
      refine Or.inr (Or.inl ⟨hbelow, hsettled, ?_⟩)
      simp [updatePosture, setLevel, hnext, hbelow.not_gt, hbelow, hsettled]
    · refine Or.inr (Or.inr ⟨hbelow.le, fun h => hsettled h.2, ?_⟩)
      simp [updatePosture, hbelow.not_gt, hsettled]
  · refine Or.inr (Or.inr ⟨hequal.le, fun h => h.1.ne hequal, ?_⟩)
    simp [updatePosture, hequal]
  · refine Or.inl ⟨habove, ?_⟩
    simp [updatePosture, setLevel, habove, habove.ne]

/-- The same of a whole iteration; what comes before the hysteresis leaves the posture and both timers. -/
theorem sampleStep_cases (s : Sample) (st : State) :
    (st.posture < st.target s ∧ (sampleStep s st).posture = st.target s ∧
        (sampleStep s st).postureSinceMs = s.setLevelMs) ∨
      (st.target s < st.posture ∧ st.Settled s ∧
        (sampleStep s st).posture = max (st.posture - 1) (st.target s) ∧
        (sampleStep s st).postureSinceMs = s.setLevelMs) ∨
      (st.target s ≤ st.posture ∧ ¬(st.target s < st.posture ∧ st.Settled s) ∧
        (sampleStep s st).posture = st.posture ∧
        (sampleStep s st).postureSinceMs = st.postureSinceMs) :=
  updatePosture_cases (st.target s) s (st.sampled s)

/-- The hysteresis leaves alone what the loop remembers of the counters. -/
theorem updatePosture_previous (target : ℕ) (s : Sample) (st : State) :
    (updatePosture target s st).prevWaf = st.prevWaf ∧
      (updatePosture target s st).prev5xx = st.prev5xx ∧
        (updatePosture target s st).prevReq = st.prevReq := by
  unfold updatePosture setLevel
  grind

end Sentinel
end GatewayEdge
