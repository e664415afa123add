import GatewayEdge.Config
import GatewayEdge.Foundation.F64

/-!
# RedisCb.Config — thresholds of the Redis circuit breaker

Every threshold is an environment variable with a default and a range.  `fromEnv_valid` says what the
breaker may rely on, whatever the environment holds.
-/

namespace GatewayEdge
namespace RedisCb

open Foundation

structure CbConfig where
  windowSecs : Nat
  minSamples : Nat
  consecutiveFailOpen : Nat
  consecutiveToOpen : Nat
  errorRateOpen : F64
  timeoutRateOpen : F64
  p99UsOpen : Nat
  p99UsRecovery : F64
  errorRateRecovery : F64
  openCooldownMs : Nat
  cooldownJitterMs : Nat
  halfOpenProbes : Nat
  recoverySuccesses : Nat
  maxInflight : Int
  halfOpenMaxMs : Nat
  deriving DecidableEq, Repr

/-! ## Reading the environment -/

/-- `env_u64` and `env_u32`. -/
def envUnsigned (bits : Nat) (env : EnvVars) (name : String) (dflt : Nat) : Nat :=
  ((env name).bind (parseUnsigned bits)).getD dflt

def envF64 (env : EnvVars) (name : String) (dflt : F64) : F64 :=
  ((env name).bind F64.parse).getD dflt

/-- `Ord::clamp`. -/
def clamp {α : Type*} [LT α] [DecidableLT α] (lo hi x : α) : α :=
  if x < lo then lo else if hi < x then hi else x

/-- `as i64`. -/
def asI64 (n : Nat) : Int := if n < 2 ^ 63 then n else (n : Int) - 2 ^ 64

/-- `normalize`; the warnings about the other thresholds change nothing. -/
def CbConfig.normalize (c : CbConfig) : CbConfig :=
  if c.halfOpenProbes < c.recoverySuccesses then { c with recoverySuccesses := c.halfOpenProbes } else c

/-- `from_env`, before `normalize`. -/
def CbConfig.read (env : EnvVars) : CbConfig where
  windowSecs := clamp 1 60 (envUnsigned 64 env "REDIS_CB_WINDOW_SECS" 10)
  minSamples := clamp 5 1000 (envUnsigned 64 env "REDIS_CB_MIN_SAMPLES" 20)
  consecutiveFailOpen := clamp 1 100 (envUnsigned 32 env "REDIS_CB_CONSECUTIVE_FAIL_OPEN" 5)
  consecutiveToOpen := clamp 1 100 (envUnsigned 32 env "REDIS_CB_CONSECUTIVE_TIMEOUT_OPEN" 3)
  errorRateOpen := F64.clamp (.num 0) (.num 1) (envF64 env "REDIS_CB_ERROR_RATE_OPEN" (.num (1 / 2)))
  timeoutRateOpen :=
    F64.clamp (.num 0) (.num 1) (envF64 env "REDIS_CB_TIMEOUT_RATE_OPEN" (.num (2 / 5)))
  p99UsOpen := clamp 1000 60000000 (envUnsigned 64 env "REDIS_CB_P99_US_OPEN" 200000)
  p99UsRecovery :=
    F64.clamp (.num 1000) (.num 60000000) (envF64 env "REDIS_CB_P99_US_RECOVERY" (.num 30000))
  errorRateRecovery :=
    F64.clamp (.num 0) (.num 1) (envF64 env "REDIS_CB_ERROR_RATE_RECOVERY" (.num (1 / 10)))
  openCooldownMs := clamp 100 300000 (envUnsigned 64 env "REDIS_CB_OPEN_COOLDOWN_MS" 5000)
  cooldownJitterMs := clamp 0 60000 (envUnsigned 64 env "REDIS_CB_COOLDOWN_JITTER_MS" 2000)
  halfOpenProbes := clamp 1 20 (envUnsigned 32 env "REDIS_CB_HALF_OPEN_PROBES" 3)
  recoverySuccesses := clamp 1 20 (envUnsigned 32 env "REDIS_CB_RECOVERY_SUCCESSES" 3)
  maxInflight := clamp 1 10000 (asI64 (envUnsigned 64 env "REDIS_CB_MAX_INFLIGHT" 32))
  halfOpenMaxMs := clamp 1000 600000 (envUnsigned 64 env "REDIS_CB_HALF_OPEN_MAX_MS" 10000)

/-- `from_env`. -/
def CbConfig.fromEnv (env : EnvVars) : CbConfig := (CbConfig.read env).normalize

/-! ## What the breaker relies on -/

/-- The ranges the proofs about the breaker use. -/
structure CbConfig.Valid (c : CbConfig) : Prop where
  windowSecs : 1 ≤ c.windowSecs ∧ c.windowSecs ≤ 60
  minSamples : 1 ≤ c.minSamples
  openCooldownMs : 1 ≤ c.openCooldownMs
  halfOpenProbes : 1 ≤ c.halfOpenProbes ∧ c.halfOpenProbes ≤ 20
  recoverySuccesses : 1 ≤ c.recoverySuccesses ∧ c.recoverySuccesses ≤ c.halfOpenProbes
  maxInflight : 1 ≤ c.maxInflight
  halfOpenMaxMs : 1 ≤ c.halfOpenMaxMs

theorem le_clamp (lo hi : Nat) (h : lo ≤ hi) (x : Nat) : lo ≤ clamp lo hi x ∧ clamp lo hi x ≤ hi := by
  unfold clamp
  split
  · exact ⟨le_rfl, h⟩
  · split <;> omega

theorem le_clamp_int (lo hi : Int) (h : lo ≤ hi) (x : Int) : lo ≤ clamp lo hi x := by
  unfold clamp
  split
  · exact le_rfl
  · split <;> omega

theorem CbConfig.fromEnv_valid (env : EnvVars) : (CbConfig.fromEnv env).Valid := by
  have hwindow := le_clamp 1 60 (by decide) (envUnsigned 64 env "REDIS_CB_WINDOW_SECS" 10)
  have hsamples := le_clamp 5 1000 (by decide)
    (envUnsigned 64 env "REDIS_CB_MIN_SAMPLES" 20)
  have hcooldown := le_clamp 100 300000 (by decide)
    (envUnsigned 64 env "REDIS_CB_OPEN_COOLDOWN_MS" 5000)
  have hprobes := le_clamp 1 20 (by decide)
    (envUnsigned 32 env "REDIS_CB_HALF_OPEN_PROBES" 3)
  have hrecovery := le_clamp 1 20 (by decide)
    (envUnsigned 32 env "REDIS_CB_RECOVERY_SUCCESSES" 3)
  have hinflight := le_clamp_int 1 10000 (by decide)
    (asI64 (envUnsigned 64 env "REDIS_CB_MAX_INFLIGHT" 32))
  have hmax := le_clamp 1000 600000 (by decide)
    (envUnsigned 64 env "REDIS_CB_HALF_OPEN_MAX_MS" 10000)
  have hsamples' : 1 ≤ (CbConfig.read env).minSamples := le_trans (by decide) hsamples.1
  have hcooldown' : 1 ≤ (CbConfig.read env).openCooldownMs := le_trans (by decide) hcooldown.1
  have hmax' : 1 ≤ (CbConfig.read env).halfOpenMaxMs := le_trans (by decide) hmax.1
  unfold CbConfig.fromEnv CbConfig.normalize
  split
  · exact ⟨hwindow, hsamples', hcooldown', hprobes, ⟨hprobes.1, le_rfl⟩, hinflight, hmax'⟩
  · rename_i hle
    exact ⟨hwindow, hsamples', hcooldown', hprobes, ⟨hrecovery.1, not_lt.1 hle⟩, hinflight, hmax'⟩

/-- The second normalisation, in `CircuitBreaker::new`, finds nothing to do. -/
theorem CbConfig.Valid.normalize_eq {c : CbConfig} (h : c.Valid) : c.normalize = c :=
  if_neg (not_lt.2 h.recoverySuccesses.2)

/-- An environment in which the first failure opens the circuit. -/
def impatientEnv : EnvVars := fun name =>
  if name = "REDIS_CB_CONSECUTIVE_FAIL_OPEN" then some "1" else none

end RedisCb
end GatewayEdge
