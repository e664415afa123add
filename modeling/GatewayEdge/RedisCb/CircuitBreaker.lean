import GatewayEdge.RedisCb.Window

/-!
# RedisCb.CircuitBreaker — acquire and release, each as one step

The breaker of one worker process.  `acquire` and `release` are taken as if nothing happened in between
their accesses, at one reading of the clock.  `acquire_acquired` and `release_released` say everything a call
can do.
-/

namespace GatewayEdge
namespace RedisCb

open Foundation

inductive CircuitState
  | closed
  | opened
  | halfOpen
  deriving DecidableEq, Repr

structure CircuitBreaker where
  state : CircuitState := .closed
  /-- When the circuit opened. -/
  openedAtMs : Nat := 0
  /-- The cooldown of this OPEN period, jitter included. -/
  cooldownMs : Nat := 0
  consecutiveFail : UInt32 := 0
  consecutiveTimeout : UInt32 := 0
  /-- Probes dispatched in HALF_OPEN. -/
  probesDispatched : UInt32 := 0
  halfOpenSuccesses : UInt32 := 0
  halfOpenStartedAtMs : Nat := 0
  window : RollingWindow
  inflight : Int := 0
  redisRequestsTotal : Nat := 0
  redisSuccessTotal : Nat := 0
  redisErrorsTotal : Nat := 0
  redisTimeoutsTotal : Nat := 0
  circuitOpenTotal : Nat := 0
  circuitHalfOpenTotal : Nat := 0
  circuitRejectedTotal : Nat := 0
  deriving DecidableEq, Repr

namespace CircuitBreaker

/-- `new`; the configuration itself stays outside the state. -/
def new (cfg : CbConfig) : CircuitBreaker where
  window := RollingWindow.new (clamp 1 maxWindowBuckets cfg.windowSecs)

variable (cfg : CbConfig) (pid : Nat)

/-- Base cooldown and jitter, drawn from the process id and the clock. -/
def jitteredCooldown (now : Nat) : Nat :=
  if 0 < cfg.cooldownJitterMs then
    let seed := (pid * 6364136223846793005 + now) % 2 ^ 64
    cfg.openCooldownMs + (seed >>> 33) % cfg.cooldownJitterMs
  else cfg.openCooldownMs

/-- `circuit_rejected_total.fetch_add(1)`. -/
def rejected (b : CircuitBreaker) : CircuitBreaker :=
  { b with circuitRejectedTotal := b.circuitRejectedTotal + 1 }

/-- What follows the exchange that moved the state to OPEN. -/
def openedAt (now : Nat) (b : CircuitBreaker) : CircuitBreaker :=
  { b with
    state := .opened
    openedAtMs := now
    cooldownMs := jitteredCooldown cfg pid now
    circuitOpenTotal := b.circuitOpenTotal + 1 }

/-- `trip_open`: an OPEN circuit keeps its cooldown. -/
def tripOpen (now : Nat) (b : CircuitBreaker) : CircuitBreaker :=
  if b.state = .opened then b else b.openedAt cfg pid now

/-! ## Acquire -/

/-- `acquire_half_open`. -/
def acquireHalfOpen (now : Nat) (b : CircuitBreaker) :
    CircuitBreaker × Except RedisCallOutcome Unit :=
  if cfg.halfOpenMaxMs ≤ now - b.halfOpenStartedAtMs then
    -- The probing has lasted too long: re-arm, and turn this call away.
    let b := if b.state = .halfOpen then b.openedAt cfg pid now else b
    (b.rejected, .error .circuitOpen)
  else
    let dispatched := b.probesDispatched
    let b := { b with probesDispatched := dispatched + 1 }
    if cfg.halfOpenProbes ≤ dispatched.toNat then
      (rejected { b with probesDispatched := b.probesDispatched - 1 }, .error .circuitOpen)
    else
      let inflight := b.inflight
      let b := { b with inflight := inflight + 1 }
      if (cfg.halfOpenProbes : Int) ≤ inflight then
        let b := { b with inflight := b.inflight - 1 }
        (rejected { b with probesDispatched := b.probesDispatched - 1 }, .error .concurrencyRejected)
      else (b, .ok ())

/-- What follows the exchange that moved the state from OPEN to HALF_OPEN. -/
def enteredHalfOpen (now : Nat) (b : CircuitBreaker) : CircuitBreaker :=
  { b with
    state := .halfOpen
    probesDispatched := 0
    halfOpenSuccesses := 0
    halfOpenStartedAtMs := now
    circuitHalfOpenTotal := b.circuitHalfOpenTotal + 1 }

/-- `acquire`. -/
def acquire (now : Nat) (b : CircuitBreaker) : CircuitBreaker × Except RedisCallOutcome Unit :=
  match b.state with
  | .closed =>
    let inflight := b.inflight
    let b := { b with inflight := inflight + 1 }
    if cfg.maxInflight ≤ inflight then
      (rejected { b with inflight := b.inflight - 1 }, .error .concurrencyRejected)
    else (b, .ok ())
  | .opened =>
    -- Undisturbed, the exchange of OPEN for HALF_OPEN succeeds.
    if b.cooldownMs ≤ now - b.openedAtMs then acquireHalfOpen cfg pid now (b.enteredHalfOpen now)
    else (b.rejected, .error .circuitOpen)
  | .halfOpen => acquireHalfOpen cfg pid now b

/-! ## Release -/

/-- `check_statistical_open` would trip. -/
def shouldOpen (stats : WindowStats) : Bool :=
  cfg.errorRateOpen.le stats.errorRate || cfg.timeoutRateOpen.le stats.timeoutRate ||
    decide (cfg.p99UsOpen ≤ stats.percentileUs 99)

def checkStatisticalOpen (now : Nat) (b : CircuitBreaker) : CircuitBreaker :=
  let stats := b.window.aggregate cfg.windowSecs (currentTs now)
  if stats.total < cfg.minSamples then b
  else if shouldOpen cfg stats then tripOpen cfg pid now b
  else b

/-- The first four accesses of `release`. -/
def completed (now : Nat) (outcome : RedisCallOutcome) (latencyUs : Nat) (b : CircuitBreaker) :
    CircuitBreaker :=
  { b with
    inflight := b.inflight - 1
    window := b.window.record outcome latencyUs (currentTs now)
    redisRequestsTotal := b.redisRequestsTotal + 1 }

/-- The health signals that let a HALF_OPEN circuit close. -/
def recovered (stats : WindowStats) : Bool :=
  (F64.num (stats.percentileUs 99)).le cfg.p99UsRecovery && stats.errorRate.le cfg.errorRateRecovery

/-- The branch of `release` for a success. -/
def releaseSuccess (now : Nat) (b : CircuitBreaker) : CircuitBreaker :=
  let b := { b with
    redisSuccessTotal := b.redisSuccessTotal + 1
    consecutiveFail := 0
    consecutiveTimeout := 0 }
  if b.state = .halfOpen then
    let b := { b with halfOpenSuccesses := b.halfOpenSuccesses + 1 }
    let stats := b.window.aggregate cfg.windowSecs (currentTs now)
    if cfg.recoverySuccesses ≤ b.halfOpenSuccesses.toNat ∧ recovered cfg stats = true then
      { b with state := .closed }
    else b
  else checkStatisticalOpen cfg pid now b

/-- The branch for a timeout. -/
def releaseTimeout (now : Nat) (b : CircuitBreaker) : CircuitBreaker :=
  let b := { b with
    redisTimeoutsTotal := b.redisTimeoutsTotal + 1
    consecutiveFail := b.consecutiveFail + 1
    consecutiveTimeout := b.consecutiveTimeout + 1 }
  if b.state = .halfOpen then tripOpen cfg pid now b
  else if cfg.consecutiveToOpen ≤ b.consecutiveTimeout.toNat ∨
      cfg.consecutiveFailOpen ≤ b.consecutiveFail.toNat then
    tripOpen cfg pid now b
  else checkStatisticalOpen cfg pid now b

/-- The branch for an error. -/
def releaseError (now : Nat) (b : CircuitBreaker) : CircuitBreaker :=
  let b := { b with
    redisErrorsTotal := b.redisErrorsTotal + 1
    consecutiveFail := b.consecutiveFail + 1 }
  if b.state = .halfOpen then tripOpen cfg pid now b
  else if cfg.consecutiveFailOpen ≤ b.consecutiveFail.toNat then tripOpen cfg pid now b
  else checkStatisticalOpen cfg pid now b

/-- `release`. -/
def release (now : Nat) (outcome : RedisCallOutcome) (latencyUs : Nat) (b : CircuitBreaker) :
    CircuitBreaker :=
  let b := b.completed now outcome latencyUs
  match outcome with
  | .success => releaseSuccess cfg pid now b
  | .timeout => releaseTimeout cfg pid now b
  | .redisError => releaseError cfg pid now b
  -- The two rejections are recorded in the window and change nothing else.
  | .circuitOpen => b
  | .concurrencyRejected => b

/-! ## The jitter -/

theorem jitteredCooldown_mem (now : Nat) :
    cfg.openCooldownMs ≤ jitteredCooldown cfg pid now ∧
      jitteredCooldown cfg pid now ≤ cfg.openCooldownMs + cfg.cooldownJitterMs := by
  unfold jitteredCooldown
  by_cases hjitter : 0 < cfg.cooldownJitterMs
  · have hmod := Nat.mod_lt (((pid * 6364136223846793005 + now) % 2 ^ 64) >>> 33) hjitter
    rw [if_pos hjitter]
    dsimp only
    omega
  · rw [if_neg hjitter]
    omega

/-! ## Everything a call can do -/

/-- An acquire in one step: which branch it took, and what it left behind. -/
inductive Acquired (now : Nat) (b : CircuitBreaker) :
    CircuitBreaker × Except RedisCallOutcome Unit → Prop
  | closedOk (hstate : b.state = .closed) (hroom : b.inflight < cfg.maxInflight) :
      Acquired now b ({ b with inflight := b.inflight + 1 }, .ok ())
  | closedFull (hstate : b.state = .closed) (hfull : cfg.maxInflight ≤ b.inflight) :
      Acquired now b (b.rejected, .error .concurrencyRejected)
  | stillOpen (hstate : b.state = .opened) (hcool : now - b.openedAtMs < b.cooldownMs) :
      Acquired now b (b.rejected, .error .circuitOpen)
  | firstProbe (hstate : b.state = .opened) (hcool : b.cooldownMs ≤ now - b.openedAtMs)
      (hroom : b.inflight < cfg.halfOpenProbes) :
      Acquired now b
        ({ b.enteredHalfOpen now with probesDispatched := 1, inflight := b.inflight + 1 }, .ok ())
  | enteredFull (hstate : b.state = .opened) (hcool : b.cooldownMs ≤ now - b.openedAtMs)
      (hfull : cfg.halfOpenProbes ≤ b.inflight) :
      Acquired now b ((b.enteredHalfOpen now).rejected, .error .concurrencyRejected)
  | rearmed (hstate : b.state = .halfOpen) (htime : cfg.halfOpenMaxMs ≤ now - b.halfOpenStartedAtMs) :
      Acquired now b ((b.openedAt cfg pid now).rejected, .error .circuitOpen)
  | probe (hstate : b.state = .halfOpen) (htime : now - b.halfOpenStartedAtMs < cfg.halfOpenMaxMs)
      (hbudget : b.probesDispatched.toNat < cfg.halfOpenProbes) (hroom : b.inflight < cfg.halfOpenProbes) :
      Acquired now b
        ({ b with probesDispatched := b.probesDispatched + 1, inflight := b.inflight + 1 }, .ok ())
  | probeRefused (hstate : b.state = .halfOpen)
      (htime : now - b.halfOpenStartedAtMs < cfg.halfOpenMaxMs)
      (hfull : cfg.halfOpenProbes ≤ b.probesDispatched.toNat ∨ cfg.halfOpenProbes ≤ b.inflight)
      (e : RedisCallOutcome) : Acquired now b (b.rejected, .error e)

variable {cfg pid}

theorem acquireHalfOpen_acquired (now : Nat) {b : CircuitBreaker} (hstate : b.state = .halfOpen) :
    Acquired cfg pid now b (acquireHalfOpen cfg pid now b) := by
  unfold acquireHalfOpen
  by_cases hdeadline : cfg.halfOpenMaxMs ≤ now - b.halfOpenStartedAtMs
  · rw [if_pos hdeadline, hstate]
    exact .rearmed hstate hdeadline
  · rw [if_neg hdeadline]
    dsimp only
    by_cases hbudget : cfg.halfOpenProbes ≤ b.probesDispatched.toNat
    · rw [if_pos hbudget]
      have hundo : ({ b with probesDispatched := b.probesDispatched + 1 - 1 } : CircuitBreaker) = b := by
        simp
      rw [hundo]
      exact .probeRefused hstate (not_le.1 hdeadline) (Or.inl hbudget) .circuitOpen
    · rw [if_neg hbudget]
      by_cases hfull : (cfg.halfOpenProbes : Int) ≤ b.inflight
      · rw [if_pos hfull]
        -- Both increments are undone.
        have hundo : ({ b with
            probesDispatched := b.probesDispatched + 1 - 1
            inflight := b.inflight + 1 - 1 } : CircuitBreaker) = b := by
          simp
        rw [hundo]
        exact .probeRefused hstate (not_le.1 hdeadline) (Or.inr hfull) .concurrencyRejected
      · rw [if_neg hfull]
        exact .probe hstate (not_le.1 hdeadline) (not_le.1 hbudget) (not_le.1 hfull)

theorem acquire_acquired (pid : Nat) (hcfg : cfg.Valid) (now : Nat) (b : CircuitBreaker) :
    Acquired cfg pid now b (acquire cfg pid now b) := by
  unfold acquire
  cases hstate : b.state with
  | closed =>
      dsimp only
      rw [← hstate]
      by_cases hfull : cfg.maxInflight ≤ b.inflight
      · rw [if_pos hfull]
        have hundo : ({ b with inflight := b.inflight + 1 - 1 } : CircuitBreaker) = b := by simp
        rw [hundo]
        exact .closedFull hstate hfull
      · rw [if_neg hfull]
        exact .closedOk hstate (not_le.1 hfull)
  | opened =>
      dsimp only
      by_cases hcool : b.cooldownMs ≤ now - b.openedAtMs
      · rw [if_pos hcool]
        have hmax := hcfg.halfOpenMaxMs
        have hprobes := hcfg.halfOpenProbes
        -- The episode starts now, with nothing dispatched.
        have hdeadline : ¬ cfg.halfOpenMaxMs ≤ now - (b.enteredHalfOpen now).halfOpenStartedAtMs := by
          change ¬ cfg.halfOpenMaxMs ≤ now - now
          omega
        have hbudget : ¬ cfg.halfOpenProbes ≤ (b.enteredHalfOpen now).probesDispatched.toNat := by
          change ¬ cfg.halfOpenProbes ≤ 0
          omega
        unfold acquireHalfOpen
        rw [if_neg hdeadline]
        dsimp only
        rw [if_neg hbudget]
        by_cases hfull : (cfg.halfOpenProbes : Int) ≤ (b.enteredHalfOpen now).inflight
        · rw [if_pos hfull]
          have hundo : ({ b.enteredHalfOpen now with
              probesDispatched := (b.enteredHalfOpen now).probesDispatched + 1 - 1
              inflight := (b.enteredHalfOpen now).inflight + 1 - 1 } : CircuitBreaker) =
                b.enteredHalfOpen now := by
            simp
          rw [hundo]
          exact .enteredFull hstate hcool hfull
        · rw [if_neg hfull]
          exact .firstProbe hstate hcool (not_le.1 hfull)
      · rw [if_neg hcool]
        exact .stillOpen hstate (not_le.1 hcool)
  | halfOpen => exact acquireHalfOpen_acquired now hstate

section Acquired

variable {now : Nat} {b : CircuitBreaker} {r : CircuitBreaker × Except RedisCallOutcome Unit}

/-- An OPEN circuit refuses until the cooldown is over; then it probes, and the call is let through if there is
room. -/
theorem Acquired.of_opened (h : Acquired cfg pid now b r) (hstate : b.state = .opened) :
    now - b.openedAtMs < b.cooldownMs ∧ r = (b.rejected, .error .circuitOpen) ∨
      b.cooldownMs ≤ now - b.openedAtMs ∧ r.1.state = .halfOpen ∧
        (b.inflight < cfg.halfOpenProbes → r.2.isOk = true) := by
  cases h with
  | stillOpen _ hearly => exact Or.inl ⟨hearly, rfl⟩
  | firstProbe _ hcool _ => exact Or.inr ⟨hcool, rfl, fun _ => rfl⟩
  | enteredFull _ hcool hfull => exact Or.inr ⟨hcool, rfl, fun hroom => absurd hroom (not_lt.2 hfull)⟩
  | closedOk hother _ => cases hstate.symm.trans hother
  | closedFull hother _ => cases hstate.symm.trans hother
  | rearmed hother _ => cases hstate.symm.trans hother
  | probe hother _ _ _ => cases hstate.symm.trans hother
  | probeRefused hother _ _ _ => cases hstate.symm.trans hother

/-- No acquire closes the circuit. -/
theorem Acquired.not_closes (h : Acquired cfg pid now b r) (hstate : b.state = .halfOpen) :
    r.1.state ≠ .closed := by
  intro hclosed
  cases h with
  | rearmed _ _ => cases hclosed
  | probe _ _ _ _ => cases hstate.symm.trans hclosed
  | probeRefused _ _ _ _ => cases hstate.symm.trans hclosed
  | closedOk hother _ => cases hstate.symm.trans hother
  | closedFull hother _ => cases hstate.symm.trans hother
  | stillOpen hother _ => cases hstate.symm.trans hother
  | firstProbe hother _ _ => cases hstate.symm.trans hother
  | enteredFull hother _ _ => cases hstate.symm.trans hother

/-- An episode starts with no successes; within one an acquire counts none. -/
theorem Acquired.halfOpenSuccesses (h : Acquired cfg pid now b r) (hafter : r.1.state = .halfOpen) :
    r.1.halfOpenSuccesses = 0 ∨ b.state = .halfOpen ∧ r.1.halfOpenSuccesses = b.halfOpenSuccesses := by
  cases h with
  | firstProbe _ _ _ => exact Or.inl rfl
  | enteredFull _ _ _ => exact Or.inl rfl
  | probe hstate _ _ _ => exact Or.inr ⟨hstate, rfl⟩
  | probeRefused hstate _ _ _ => exact Or.inr ⟨hstate, rfl⟩
  | closedOk hstate _ => cases hstate.symm.trans hafter
  | closedFull hstate _ => cases hstate.symm.trans hafter
  | stillOpen hstate _ => cases hstate.symm.trans hafter
  | rearmed _ _ => cases hafter

end Acquired

/-- The counters of a release, before any change of state. -/
def counted (now : Nat) (outcome : RedisCallOutcome) (latencyUs : Nat) (b : CircuitBreaker) :
    CircuitBreaker :=
  { b.completed now outcome latencyUs with
    redisSuccessTotal := b.redisSuccessTotal + if outcome = .success then 1 else 0
    redisErrorsTotal := b.redisErrorsTotal + if outcome = .redisError then 1 else 0
    redisTimeoutsTotal := b.redisTimeoutsTotal + if outcome = .timeout then 1 else 0
    consecutiveFail :=
      if outcome = .success then 0
      else if outcome = .redisError ∨ outcome = .timeout then b.consecutiveFail + 1
      else b.consecutiveFail
    consecutiveTimeout :=
      if outcome = .success then 0
      else if outcome = .timeout then b.consecutiveTimeout + 1
      else b.consecutiveTimeout
    halfOpenSuccesses :=
      if outcome = .success ∧ b.state = .halfOpen then b.halfOpenSuccesses + 1
      else b.halfOpenSuccesses }

/-- A release in one step: the counters, and at most one change of state. -/
inductive Released (cfg : CbConfig) (pid now : Nat) (outcome : RedisCallOutcome) (latencyUs : Nat)
    (b : CircuitBreaker) : CircuitBreaker → Prop
  | kept : Released cfg pid now outcome latencyUs b (b.counted now outcome latencyUs)
  | tripped (hstate : b.state ≠ .opened) :
      Released cfg pid now outcome latencyUs b ((b.counted now outcome latencyUs).openedAt cfg pid now)
  | closed (hstate : b.state = .halfOpen) (houtcome : outcome = .success)
      (hsuccesses : cfg.recoverySuccesses ≤ (b.counted now outcome latencyUs).halfOpenSuccesses.toNat)
      (hrecovered : recovered cfg
        ((b.window.record outcome latencyUs (currentTs now)).aggregate cfg.windowSecs (currentTs now)) =
          true) :
      Released cfg pid now outcome latencyUs b
        { b.counted now outcome latencyUs with state := .closed }

theorem tripOpen_released {now : Nat} {outcome : RedisCallOutcome} {latencyUs : Nat}
    {b b' : CircuitBreaker} (h : b' = b.counted now outcome latencyUs) :
    Released cfg pid now outcome latencyUs b (tripOpen cfg pid now b') := by
  subst h
  unfold tripOpen
  by_cases hstate : (b.counted now outcome latencyUs).state = .opened
  · rw [if_pos hstate]
    exact .kept
  · rw [if_neg hstate]
    exact .tripped hstate

theorem checkStatisticalOpen_released {now : Nat} {outcome : RedisCallOutcome} {latencyUs : Nat}
    {b b' : CircuitBreaker} (h : b' = b.counted now outcome latencyUs) :
    Released cfg pid now outcome latencyUs b (checkStatisticalOpen cfg pid now b') := by
  unfold checkStatisticalOpen
  dsimp only
  split
  · exact h ▸ .kept
  · split
    · exact tripOpen_released h
    · exact h ▸ .kept

/-- The detector leaves a circuit that is not OPEN alone exactly when the sample is too small or every signal
is below its threshold. -/
theorem checkStatisticalOpen_quiet_iff {now : Nat} {b : CircuitBreaker} (hstate : b.state ≠ .opened) :
    (checkStatisticalOpen cfg pid now b).state ≠ .opened ↔
      (b.window.aggregate cfg.windowSecs (currentTs now)).total < cfg.minSamples ∨
        shouldOpen cfg (b.window.aggregate cfg.windowSecs (currentTs now)) = false := by
  unfold checkStatisticalOpen
  dsimp only
  generalize b.window.aggregate cfg.windowSecs (currentTs now) = stats
  by_cases hsmall : stats.total < cfg.minSamples
  · simp [hsmall, hstate]
  · cases hopen : shouldOpen cfg stats with
    | true => simp [hsmall, tripOpen, hstate, openedAt]
    | false => simp [hsmall, hstate]

theorem release_released (cfg : CbConfig) (pid now : Nat) (outcome : RedisCallOutcome) (latencyUs : Nat)
    (b : CircuitBreaker) :
    Released cfg pid now outcome latencyUs b (release cfg pid now outcome latencyUs b) := by
  unfold release
  cases outcome with
  | success =>
      unfold releaseSuccess
      dsimp only
      by_cases hhalf : (b.completed now .success latencyUs).state = .halfOpen
      · rw [if_pos hhalf]
        change b.state = .halfOpen at hhalf
        have hcounted : ({ b.completed now .success latencyUs with
            redisSuccessTotal := b.redisSuccessTotal + 1
            consecutiveFail := 0
            consecutiveTimeout := 0
            halfOpenSuccesses := b.halfOpenSuccesses + 1 } : CircuitBreaker) =
              b.counted now .success latencyUs := by
          simp [counted, completed, hhalf]
        split
        · rename_i hclose
          have hclosed : Released cfg pid now .success latencyUs b _ :=
            .closed hhalf rfl (by rw [← hcounted]; exact hclose.1) hclose.2
          rw [← hcounted] at hclosed
          exact hclosed
        · have hkept : Released cfg pid now .success latencyUs b _ := .kept
          rw [← hcounted] at hkept
          exact hkept
      · rw [if_neg hhalf]
        change b.state ≠ .halfOpen at hhalf
        exact checkStatisticalOpen_released (by simp [counted, completed, hhalf])
  | timeout =>
      unfold releaseTimeout
      dsimp only
      split
      · exact tripOpen_released (by simp [counted, completed])
      · split
        · exact tripOpen_released (by simp [counted, completed])
        · exact checkStatisticalOpen_released (by simp [counted, completed])
  | redisError =>
      unfold releaseError
      dsimp only
      split
      · exact tripOpen_released (by simp [counted, completed])
      · split
        · exact tripOpen_released (by simp [counted, completed])
        · exact checkStatisticalOpen_released (by simp [counted, completed])
  | circuitOpen =>
      have hcounted : b.completed now .circuitOpen latencyUs = b.counted now .circuitOpen latencyUs := by
        simp [counted, completed]
      exact hcounted ▸ .kept
  | concurrencyRejected =>
      have hcounted : b.completed now .concurrencyRejected latencyUs =
          b.counted now .concurrencyRejected latencyUs := by
        simp [counted, completed]
      exact hcounted ▸ .kept

end CircuitBreaker

end RedisCb
end GatewayEdge
