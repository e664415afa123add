import GatewayEdge.Foundation.Streak
import GatewayEdge.RedisCb.CircuitBreaker

/-!
# RedisCb.FastDetection — the consecutive counters of a CLOSED circuit

Acquires and releases as atomic steps, in any order, paired or not, at any readings of the clock.  Late
releases keep moving the two counters while the circuit is OPEN or HALF_OPEN, and nothing resets them when
it closes.  It does not have to: only a success closes the circuit, and a success has just reset them.
-/

namespace GatewayEdge
namespace RedisCb

open Foundation

/-! ## Calls -/

inductive Call
  | acquire (now : Nat)
  | release (now : Nat) (outcome : RedisCallOutcome) (latencyUs : Nat)
  deriving DecidableEq, Repr

namespace Call

def apply (cfg : CbConfig) (pid : Nat) (b : CircuitBreaker) : Call → CircuitBreaker
  | .acquire now => (b.acquire cfg pid now).1
  | .release now outcome latencyUs => b.release cfg pid now outcome latencyUs

/-- A release that reports this outcome. -/
def reports (outcome : RedisCallOutcome) : Call → Bool
  | .acquire _ => false
  | .release _ reported _ => reported == outcome

end Call

/-- The failures reported since the last success, timeouts included; the newest call comes first. -/
def failuresSince (past : List Call) : Nat :=
  streak (fun c => c.reports .redisError || c.reports .timeout) (Call.reports .success) past

/-- The timeouts among them. -/
def timeoutsSince (past : List Call) : Nat := streak (Call.reports .timeout) (Call.reports .success) past

/-- What the counters of a CLOSED circuit say. -/
structure Counted (cfg : CbConfig) (b : CircuitBreaker) (past : List Call) : Prop where
  failures : b.consecutiveFail.toNat = failuresSince past
  timeouts : b.consecutiveTimeout.toNat = timeoutsSince past
  fewFailures : b.consecutiveFail.toNat < cfg.consecutiveFailOpen
  fewTimeouts : b.consecutiveTimeout.toNat < cfg.consecutiveToOpen

/-- The ranges of the two thresholds. -/
structure CbConfig.Fast (cfg : CbConfig) : Prop where
  fail : 1 ≤ cfg.consecutiveFailOpen ∧ cfg.consecutiveFailOpen ≤ 100
  timeout : 1 ≤ cfg.consecutiveToOpen ∧ cfg.consecutiveToOpen ≤ 100

/-- They hold whatever is in the environment. -/
theorem CbConfig.fromEnv_fast (env : EnvVars) : (CbConfig.fromEnv env).Fast := by
  have hfail := le_clamp 1 100 (by decide)
    (envUnsigned 32 env "REDIS_CB_CONSECUTIVE_FAIL_OPEN" 5)
  have htimeout := le_clamp 1 100 (by decide)
    (envUnsigned 32 env "REDIS_CB_CONSECUTIVE_TIMEOUT_OPEN" 3)
  unfold CbConfig.fromEnv CbConfig.normalize
  split
  · exact ⟨hfail, htimeout⟩
  · exact ⟨hfail, htimeout⟩

namespace CircuitBreaker

variable {cfg : CbConfig} {pid now latencyUs : Nat} {outcome : RedisCallOutcome} {b b' : CircuitBreaker}

/-! ## What leaves the circuit CLOSED -/

/-- No acquire closes the circuit, and none touches the counters. -/
theorem Acquired.of_closed {r : CircuitBreaker × Except RedisCallOutcome Unit}
    (h : Acquired cfg pid now b r) (hclosed : r.1.state = .closed) :
    b.state = .closed ∧ r.1.consecutiveFail = b.consecutiveFail ∧
      r.1.consecutiveTimeout = b.consecutiveTimeout := by
  cases h with
  | closedOk hstate _ => exact ⟨hstate, rfl, rfl⟩
  | closedFull hstate _ => exact ⟨hstate, rfl, rfl⟩
  | stillOpen hstate _ => cases hstate.symm.trans hclosed
  | firstProbe _ _ _ => cases hclosed
  | enteredFull _ _ _ => cases hclosed
  | rearmed _ _ => cases hclosed
  | probe hstate _ _ _ => cases hstate.symm.trans hclosed
  | probeRefused hstate _ _ _ => cases hstate.symm.trans hclosed

/-- A release that leaves the circuit CLOSED has found it so, unless it was a success. -/
theorem Released.of_closed (h : Released cfg pid now outcome latencyUs b b')
    (hclosed : b'.state = .closed) :
    (outcome = .success ∨ b.state = .closed) ∧
      b'.consecutiveFail = (b.counted now outcome latencyUs).consecutiveFail ∧
      b'.consecutiveTimeout = (b.counted now outcome latencyUs).consecutiveTimeout := by
  cases h with
  | kept => exact ⟨Or.inr hclosed, rfl, rfl⟩
  | tripped _ => cases hclosed
  | closed _ houtcome _ _ => exact ⟨Or.inl houtcome, rfl, rfl⟩

theorem tripOpen_state (now : Nat) (b : CircuitBreaker) : (tripOpen cfg pid now b).state = .opened := by
  unfold tripOpen
  split
  · assumption
  · rfl

/-- An error that leaves the circuit CLOSED was not the last one allowed. -/
theorem releaseError_below (hclosed : (releaseError cfg pid now b).state = .closed) :
    (b.consecutiveFail + 1).toNat < cfg.consecutiveFailOpen := by
  -- Either way of tripping leaves OPEN behind.
  unfold releaseError at hclosed
  dsimp only at hclosed
  split at hclosed
  · rw [tripOpen_state] at hclosed
    cases hclosed
  · split at hclosed
    · rw [tripOpen_state] at hclosed
      cases hclosed
    · rename_i hbelow
      exact not_le.1 hbelow

/-- Nor was such a timeout. -/
theorem releaseTimeout_below (hclosed : (releaseTimeout cfg pid now b).state = .closed) :
    (b.consecutiveTimeout + 1).toNat < cfg.consecutiveToOpen ∧
      (b.consecutiveFail + 1).toNat < cfg.consecutiveFailOpen := by
  unfold releaseTimeout at hclosed
  dsimp only at hclosed
  split at hclosed
  · rw [tripOpen_state] at hclosed
    cases hclosed
  · split at hclosed
    · rw [tripOpen_state] at hclosed
      cases hclosed
    · rename_i hbelow
      rw [not_or, not_le, not_le] at hbelow
      exact hbelow

end CircuitBreaker

/-! ## Whole runs -/

variable {cfg : CbConfig} {pid : Nat} {b : CircuitBreaker} {past : List Call}

/-- Far below the end of the counter, one more is one more. -/
theorem toNat_add_one {n : UInt32} (h : n.toNat < 100) : (n + 1).toNat = n.toNat + 1 := by
  rw [UInt32.toNat_add, UInt32.toNat_one, Nat.mod_eq_of_lt (by omega)]

/-- A call that reports nothing that counts, and leaves the counters as they are. -/
theorem Counted.skip {b' : CircuitBreaker} {c : Call} (h : Counted cfg b past)
    (hfail : b'.consecutiveFail = b.consecutiveFail)
    (htimeout : b'.consecutiveTimeout = b.consecutiveTimeout)
    (hsuccess : c.reports .success = false)
    (hcounts : (c.reports .redisError || c.reports .timeout) = false) : Counted cfg b' (c :: past) := by
  have hskip : failuresSince (c :: past) = failuresSince past := streak_of_skip hsuccess hcounts
  have hskip' : timeoutsSince (c :: past) = timeoutsSince past :=
    streak_of_skip hsuccess (Bool.or_eq_false_iff.1 hcounts).2
  refine ⟨?_, ?_, ?_, ?_⟩
  · rw [hfail, hskip, h.failures]
  · rw [htimeout, hskip', h.timeouts]
  · rw [hfail]
    exact h.fewFailures
  · rw [htimeout]
    exact h.fewTimeouts

theorem counted_acquire (hcfg : cfg.Valid) (h : b.state = .closed → Counted cfg b past) (now : Nat)
    (hclosed : ((Call.acquire now).apply cfg pid b).state = .closed) :
    Counted cfg ((Call.acquire now).apply cfg pid b) (.acquire now :: past) := by
  rcases (CircuitBreaker.acquire_acquired pid hcfg now b).of_closed hclosed with
    ⟨hstate, hfail, htimeout⟩
  exact (h hstate).skip hfail htimeout rfl rfl

theorem counted_release (hfast : cfg.Fast) (h : b.state = .closed → Counted cfg b past)
    (now : Nat) (outcome : RedisCallOutcome) (latencyUs : Nat)
    (hclosed : ((Call.release now outcome latencyUs).apply cfg pid b).state = .closed) :
    Counted cfg ((Call.release now outcome latencyUs).apply cfg pid b)
      (.release now outcome latencyUs :: past) := by
  rcases (CircuitBreaker.release_released cfg pid now outcome latencyUs b).of_closed hclosed with
    ⟨hstate, hfail, htimeout⟩
  cases outcome with
  | success =>
      -- Whatever the counters had come to, they are zero now, and so are the counts.
      refine ⟨?_, ?_, ?_, ?_⟩
      · exact (congrArg UInt32.toNat hfail).trans (streak_of_reset rfl).symm
      · exact (congrArg UInt32.toNat htimeout).trans (streak_of_reset rfl).symm
      · exact lt_of_eq_of_lt (congrArg UInt32.toNat hfail) hfast.fail.1
      · exact lt_of_eq_of_lt (congrArg UInt32.toNat htimeout) hfast.timeout.1
  | redisError =>
      rcases h (hstate.resolve_left (by simp)) with ⟨hfailures, htimeouts, hfew, hfewTimeouts⟩
      -- A timeout count goes on through an error: only a success ends it.
      have hone := toNat_add_one (lt_of_lt_of_le hfew hfast.fail.2)
      have hcount : failuresSince (.release now .redisError latencyUs :: past) =
          failuresSince past + 1 := streak_of_count rfl rfl
      have hskip : timeoutsSince (.release now .redisError latencyUs :: past) = timeoutsSince past :=
        streak_of_skip rfl rfl
      have hreleased : (CircuitBreaker.releaseError cfg pid now
          (b.completed now .redisError latencyUs)).state = .closed := hclosed
      have hbelow := CircuitBreaker.releaseError_below hreleased
      unfold Call.apply
      refine ⟨?_, ?_, ?_, ?_⟩
      · rw [hfail, hcount, ← hfailures]
        exact hone
      · rw [htimeout, hskip, ← htimeouts]
        rfl
      · rw [hfail]
        exact hbelow
      · rw [htimeout]
        exact hfewTimeouts
  | timeout =>
      rcases h (hstate.resolve_left (by simp)) with ⟨hfailures, htimeouts, hfew, hfewTimeouts⟩
      have hone := toNat_add_one (lt_of_lt_of_le hfew hfast.fail.2)
      have hone' := toNat_add_one (lt_of_lt_of_le hfewTimeouts hfast.timeout.2)
      have hcount : failuresSince (.release now .timeout latencyUs :: past) = failuresSince past + 1 :=
        streak_of_count rfl rfl
      have hcount' : timeoutsSince (.release now .timeout latencyUs :: past) = timeoutsSince past + 1 :=
        streak_of_count rfl rfl
      have hreleased : (CircuitBreaker.releaseTimeout cfg pid now
          (b.completed now .timeout latencyUs)).state = .closed := hclosed
      have hbelow := CircuitBreaker.releaseTimeout_below hreleased
      unfold Call.apply
      refine ⟨?_, ?_, ?_, ?_⟩
      · rw [hfail, hcount, ← hfailures]
        exact hone
      · rw [htimeout, hcount', ← htimeouts]
        exact hone'
      · rw [hfail]
        exact hbelow.2
      · rw [htimeout]
        exact hbelow.1
  | circuitOpen => exact (h (hstate.resolve_left (by simp))).skip hfail htimeout rfl rfl
  | concurrencyRejected => exact (h (hstate.resolve_left (by simp))).skip hfail htimeout rfl rfl

theorem counted_calls (hcfg : cfg.Valid) (hfast : cfg.Fast) (pid : Nat) (calls : List Call)
    (hclosed : (calls.foldl (Call.apply cfg pid) (CircuitBreaker.new cfg)).state = .closed) :
    Counted cfg (calls.foldl (Call.apply cfg pid) (CircuitBreaker.new cfg)) calls.reverse := by
  induction calls using List.reverseRecOn with
  | nil => exact ⟨rfl, rfl, hfast.fail.1, hfast.timeout.1⟩
  | append_singleton calls call ih =>
      rw [List.foldl_append] at hclosed ⊢
      rw [List.reverse_append]
      cases call with
      | acquire now => exact counted_acquire hcfg ih now hclosed
      | release now outcome latencyUs => exact counted_release hfast ih now outcome latencyUs hclosed

/-- Whatever has been acquired and released, a CLOSED circuit stands below both thresholds of the fast
detector, and its two counters are the failures and the timeouts since the last success. -/
theorem closed_counts (env : EnvVars) (pid : Nat) (calls : List Call)
    (hclosed : (calls.foldl (Call.apply (CbConfig.fromEnv env) pid)
      (CircuitBreaker.new (CbConfig.fromEnv env))).state = .closed) :
    Counted (CbConfig.fromEnv env)
      (calls.foldl (Call.apply (CbConfig.fromEnv env) pid) (CircuitBreaker.new (CbConfig.fromEnv env)))
      calls.reverse :=
  counted_calls (CbConfig.fromEnv_valid env) (CbConfig.fromEnv_fast env) pid calls hclosed

/-- A timeout and an error after a success, with one call still out. -/
def troubledCalls : List Call := [
  .acquire 1000, .release 1000 .success 400, .acquire 1001, .acquire 1002, .acquire 1003,
  .release 1004 .timeout 90000, .release 1005 .redisError 700]

theorem troubled_counts :
    Counted (CbConfig.fromEnv fun _ => none)
      (troubledCalls.foldl (Call.apply (CbConfig.fromEnv fun _ => none) 7)
        (CircuitBreaker.new (CbConfig.fromEnv fun _ => none)))
      troubledCalls.reverse :=
  closed_counts (fun _ => none) 7 troubledCalls (by decide)

end RedisCb
end GatewayEdge
