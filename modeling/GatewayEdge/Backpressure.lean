import GatewayEdge.Config
import GatewayEdge.LoadBalancing.CircuitBreaker

/-!
# Backpressure — the worker's in-flight gauge

`IN_FLIGHT` is a signed gauge of one worker.  A slot is taken before anything else is looked at
and given back on every rejecting path.
-/

namespace GatewayEdge
namespace Backpressure

open CircuitBreaker (stateClosed stateHalfOpen stateOpen)

/-- `usize as i64`. -/
def asI64 (n : Nat) : Int :=
  if n % 2 ^ 64 < 2 ^ 63 then (n % 2 ^ 64 : Nat) else (n % 2 ^ 64 : Nat) - 2 ^ 64

/-- The concurrency limit in the given global breaker state; `none` rejects all traffic. -/
def limit (cfg : GatewayConfig) (cb : Nat) : Option Int :=
  if cb = stateHalfOpen then some (asI64 (max (cfg.globalMaxConcurrency / 10) 1))
  else if cb = stateClosed then some (asI64 cfg.globalMaxConcurrency)
  else none

/-- `acquire`: the gauge afterwards, and whether the request may proceed. -/
def acquire (cfg : GatewayConfig) (cb : Nat) (inFlight : Int) : Int × Bool :=
  match limit cfg cb with
  | none => (inFlight, false)
  | some limit =>
    -- `fetch_add` comes first; a refused request takes its increment back.
    let current := inFlight
    let inFlight := inFlight + 1
    if current ≥ limit then (inFlight - 1, false) else (inFlight, true)

def release (inFlight : Int) : Int := inFlight - 1

/-- Admission takes exactly one slot, refusal none. -/
theorem acquire_fst (cfg : GatewayConfig) (cb : Nat) (inFlight : Int) :
    (acquire cfg cb inFlight).1 = inFlight + (if (acquire cfg cb inFlight).2 then 1 else 0) := by
  unfold acquire
  cases limit cfg cb with
  | none => simp
  | some l =>
      by_cases h : inFlight ≥ l
      · simp [h]
      · simp [h]

/-- A request proceeds exactly when the gauge was below the limit of the moment. -/
theorem acquire_snd_iff {cfg : GatewayConfig} {cb : Nat} {inFlight : Int} :
    (acquire cfg cb inFlight).2 = true ↔ ∃ l, limit cfg cb = some l ∧ inFlight < l := by
  unfold acquire
  cases limit cfg cb with
  | none => simp
  | some l =>
      by_cases h : inFlight ≥ l
      · simp [h]
      · simp [h, lt_of_not_ge h]

/-- An OPEN global breaker rejects everything. -/
theorem acquire_of_open (cfg : GatewayConfig) (inFlight : Int) :
    acquire cfg stateOpen inFlight = (inFlight, false) := by
  simp [acquire, limit, stateOpen, stateHalfOpen, stateClosed]

end Backpressure
end GatewayEdge
