import Mathlib.Algebra.Group.Nat.Defs
import Mathlib.Logic.Function.Basic
import Mathlib.Tactic.Common

/-!
# Health — the active health flag of an upstream

A second mapped file, one slot per hashed address.  A slot that was never probed is zero; it is
seeded to "up" the first time it is touched, and consecutive probe results flip the flag.
-/

namespace GatewayEdge
namespace Health

def slots : Nat := 4096

structure UpstreamHealth where
  /-- 1 = up, 0 = actively probed down. -/
  healthy : Int := 0
  consecFails : Nat := 0
  consecOks : Nat := 0
  lastCheckMs : Nat := 0
  deriving DecidableEq, Repr

abbrev Shm := Nat → UpstreamHealth

def slotOf (fxHash : String → Nat) (address : String) : Nat := fxHash address % slots

/-- `slot`: seed an untouched slot to "up". -/
def touch (h : UpstreamHealth) : UpstreamHealth :=
  if h.lastCheckMs = 0 ∧ h.healthy = 0 then { h with healthy := 1 } else h

/-- `is_healthy`: the address's slot is touched, then read. -/
def isHealthy (fxHash : String → Nat) (address : String) (shm : Shm) : Shm × Bool :=
  let h := touch (shm (slotOf fxHash address))
  (Function.update shm (slotOf fxHash address) h, h.healthy == 1)

/-- `apply_probe`: one probe result, and the new state of the flag when it flips. -/
def applyProbe (nowMs : Nat) (ok : Bool) (unhealthyThreshold healthyThreshold : Nat)
    (h : UpstreamHealth) : UpstreamHealth × Option Bool :=
  let h := { h with lastCheckMs := nowMs }
  let was := h.healthy == 1
  if ok then
    let oks := (h.consecOks + 1) % 2 ^ 32
    let h := { h with consecFails := 0, consecOks := oks }
    if ¬ was ∧ max healthyThreshold 1 ≤ oks then ({ h with healthy := 1 }, some true) else (h, none)
  else
    let fails := (h.consecFails + 1) % 2 ^ 32
    let h := { h with consecOks := 0, consecFails := fails }
    if was ∧ max unhealthyThreshold 1 ≤ fails then ({ h with healthy := 0 }, some false)
    else (h, none)

/-- A probe of an address works on its slot, which is touched first. -/
def probe (fxHash : String → Nat) (nowMs : Nat) (address : String) (ok : Bool)
    (unhealthyThreshold healthyThreshold : Nat) (shm : Shm) : Shm :=
  Function.update shm (slotOf fxHash address)
    (applyProbe nowMs ok unhealthyThreshold healthyThreshold
      (touch (shm (slotOf fxHash address)))).1

end Health
end GatewayEdge
