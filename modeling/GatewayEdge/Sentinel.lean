import Mathlib.Data.Nat.Notation

/-!
# Sentinel — the node's defensive posture, as the hot path reads it

The posture is one byte per worker process; what it changes is the per-IP budget of the WAF and
whether anonymous requests are shed.
-/

namespace GatewayEdge
namespace Sentinel

def l0Normal : ℕ := 0
def l2Elevated : ℕ := 2
def l3Guarded : ℕ := 3
def l4Lockdown : ℕ := 4

def shedAnonymous (posture : ℕ) : Bool := l3Guarded ≤ posture

/-- The reciprocal of `waf_budget_factor`, which is 0.25, 0.5 or 1. -/
def wafBudgetDivisor (posture : ℕ) : ℕ :=
  if l4Lockdown ≤ posture then 4 else if l2Elevated ≤ posture then 2 else 1

end Sentinel
end GatewayEdge
