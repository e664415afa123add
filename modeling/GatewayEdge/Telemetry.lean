import Mathlib.Algebra.Group.Nat.Defs
import Mathlib.Data.List.Basic

/-!
# Telemetry — the node's shared request counters
-/

namespace GatewayEdge
namespace Telemetry

def histBucketsUs : List Nat := [100, 250, 500, 1000, 2500, 5000, 10000]

structure Metrics where
  requestsTotal : Nat := 0
  requests401 : Nat := 0
  requests429 : Nat := 0
  requests5xx : Nat := 0
  latencyUsSum : Nat := 0
  latencyUsCount : Nat := 0
  /-- Cumulative, one per entry of `histBucketsUs`. -/
  latencyBuckets : List Nat := histBucketsUs.map fun _ => 0
  deriving DecidableEq, Repr

/-- `fetch_add` on a 64-bit counter, which wraps around. -/
def fetchAdd (v counter : Nat) : Nat := (counter + v) % 2 ^ 64

/-- `record_request`. -/
def recordRequest (status : Int) (latencyUs : Nat) (m : Metrics) : Metrics where
  requestsTotal := fetchAdd 1 m.requestsTotal
  requests401 := if status = 401 then fetchAdd 1 m.requests401 else m.requests401
  requests429 := if status = 429 then fetchAdd 1 m.requests429 else m.requests429
  requests5xx :=
    if 500 ≤ status ∧ status ≤ 599 then fetchAdd 1 m.requests5xx else m.requests5xx
  latencyUsSum := fetchAdd latencyUs m.latencyUsSum
  latencyUsCount := fetchAdd 1 m.latencyUsCount
  latencyBuckets :=
    List.zipWith (fun bound n => if latencyUs ≤ bound then fetchAdd 1 n else n) histBucketsUs
      m.latencyBuckets

end Telemetry
end GatewayEdge
