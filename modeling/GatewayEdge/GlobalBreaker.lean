import GatewayEdge.Admission
import GatewayEdge.Foundation.Run

/-!
# GlobalBreaker — the node-wide breaker over whole runs

Admission reads the raw state of the `"__GLOBAL__"` slot.  The only operation that moves a slot
from OPEN to HALF_OPEN is the probe of the selector, and it is asked about upstream addresses
only, by requests that have already been admitted.
-/

namespace GatewayEdge
namespace GlobalBreaker

open Foundation
open CircuitBreaker (slotOf globalName stateOpen stateClosed resetTimeoutSecs failureThreshold)
open Gateway (Platform World Args OutBuffers processRequest processRequest_of_open reportTelemetry strArg)

/-! ## Runs of a node -/

/-- What can happen at a node: a new request, a telemetry report, the load-balancing step of a
request that was admitted earlier, the clock moving on. -/
inductive Event
  | arrival (a : Args) (out : OutBuffers)
  | report (status : Int) (latencyUs : Nat) (upstream : Option Bytes)
  | select (service : ServiceConfig) (region : String) (userId : Option String) (canaryHint : String)
  | tick (clockMs : Nat)

/-- No address of the service shares the breaker slot of the whole node. -/
def Apart (p : Platform) (service : ServiceConfig) : Prop :=
  ∀ pool ∈ service.regionalUpstreams, ∀ up ∈ pool.2,
    slotOf p.fxHash globalName ≠ slotOf p.fxHash up.address

instance (p : Platform) (service : ServiceConfig) : Decidable (Apart p service) :=
  inferInstanceAs (Decidable (∀ pool ∈ service.regionalUpstreams, ∀ up ∈ pool.2, _ ≠ _))

/-- The clock never runs backwards, and only services that keep apart from the node's slot are
selected for. -/
def step (p : Platform) (w : World) : Event → Option World
  | .arrival a out => some (processRequest p w a out).world
  | .report status latencyUs upstream => some (reportTelemetry p status latencyUs upstream w)
  | .select service region userId canaryHint =>
    if Apart p service then
      let u := (Selector.selectUpstream (w.selectContext p) service region userId canaryHint
        w.usability).1
      some { w with shm := { w.shm with cb := u.cb, health := u.health } }
    else none
  | .tick clockMs => if w.clockMs ≤ clockMs then some { w with clockMs := clockMs } else none

def IsOpen (p : Platform) (w : World) : Prop := w.globalState p = stateOpen

/-- Admission would let a request through now. -/
def Admits (p : Platform) (w : World) : Prop :=
  (Backpressure.acquire w.worker.config (w.globalState p) w.worker.inFlight).2 = true

/-- More than the reset timeout has passed since the failure that opened the breaker. -/
def CooledDown (p : Platform) (w : World) : Prop :=
  (w.shm.cb (slotOf p.fxHash globalName)).lastFailureTime + resetTimeoutSecs < w.nowSecs

/-- Some continuation leads to a state that admits. -/
def CanRecover (p : Platform) (w : World) : Prop :=
  ∃ es t, run (step p) w es = some t ∧ Admits p t

/-! ## OPEN is absorbing -/

/-- A report leaves an OPEN slot as it is, whatever it is about. -/
theorem reportTelemetry_of_open (p : Platform) {status : Int} {latencyUs : Nat}
    {upstream : Option Bytes} {w : World} (hopen : IsOpen p w) :
    IsOpen p (reportTelemetry p status latencyUs upstream w) := by
  have hslot : (w.shm.cb (slotOf p.fxHash globalName)).state = stateOpen := hopen
  have hsuccess := CircuitBreaker.recordSuccessFor_of_open p.fxHash (strArg upstream) hslot
  have hfailure := CircuitBreaker.recordFailureFor_of_open p.fxHash w.nowSecs (strArg upstream) hslot
  unfold IsOpen World.globalState CircuitBreaker.globalState reportTelemetry at *
  dsimp only
  split
  · split
    · exact (congrArg CircuitBreaker.UpstreamCB.state hfailure.2).trans hopen
    · exact (congrArg CircuitBreaker.UpstreamCB.state hsuccess.2).trans hopen
  · split
    · exact (congrArg CircuitBreaker.UpstreamCB.state hfailure.1).trans hopen
    · exact (congrArg CircuitBreaker.UpstreamCB.state hsuccess.1).trans hopen

/-- No event at all moves the node's slot out of OPEN. -/
theorem isOpen_step (p : Platform) (w : World) (e : Event) (w' : World) (hopen : IsOpen p w)
    (hs : step p w e = some w') : IsOpen p w' := by
  cases e with
  | arrival a out =>
      cases hs
      rw [processRequest_of_open p w a out hopen]
      exact hopen
  | report status latencyUs upstream =>
      cases hs
      exact reportTelemetry_of_open p hopen
  | select service region userId canaryHint =>
      unfold step at hs
      dsimp only at hs
      split at hs
      · rename_i hapart
        cases hs
        have hslots : ∀ pool ∈ service.regionalUpstreams, ∀ up ∈ pool.2,
            slotOf p.fxHash globalName ≠ slotOf (w.selectContext p).fxHash up.address := hapart
        have hframe := Selector.selectUpstream_sameSlot hslots region userId canaryHint w.usability
        exact (congrArg CircuitBreaker.UpstreamCB.state hframe).trans hopen
      · cases hs
  | tick clockMs =>
      unfold step at hs
      dsimp only at hs
      split at hs
      · cases hs
        exact hopen
      · cases hs

theorem isOpen_run {p : Platform} {w t : World} {es : List Event} (hopen : IsOpen p w)
    (hrun : run (step p) w es = some t) : IsOpen p t :=
  invariant_run (isOpen_step p) hopen hrun

theorem not_admits_of_open {p : Platform} {w : World} (hopen : IsOpen p w) : ¬ Admits p w := by
  unfold IsOpen at hopen
  unfold Admits
  rw [hopen, Backpressure.acquire_of_open]
  exact Bool.false_ne_true

/-! ## No way out -/

/-- An open node-wide breaker never lets a request through again, however long it has cooled down
and whatever is reported. -/
theorem not_canRecover_of_open (p : Platform) (w : World) (hopen : IsOpen p w) :
    ¬ CanRecover p w := by
  rintro ⟨es, t, hrun, hadmits⟩
  exact not_admits_of_open (isOpen_run hopen hrun) hadmits

/-- Fifty reports of a failed request, then eleven quiet seconds. -/
def outage : List Event :=
  List.replicate failureThreshold (.report 503 1000 none) ++ [.tick 1700000011000]

/-- A fresh node after the outage: open, and past the reset timeout. -/
theorem outage_opens :
    ∃ w, run (step Gateway.samplePlatform) Gateway.sampleWorld outage = some w ∧
      IsOpen Gateway.samplePlatform w ∧ CooledDown Gateway.samplePlatform w := by
  have hslot : (run (step Gateway.samplePlatform) Gateway.sampleWorld outage).map
      (fun w => (w.globalState Gateway.samplePlatform,
        (w.shm.cb (slotOf Gateway.samplePlatform.fxHash globalName)).lastFailureTime,
        w.nowSecs)) = some (stateOpen, 1700000000, 1700000011) := by
    decide +kernel
  rcases Option.map_eq_some_iff.1 hslot with ⟨w, hrun, hvalues⟩
  rcases Prod.mk.inj hvalues with ⟨hstate, htimes⟩
  rcases Prod.mk.inj htimes with ⟨hfailed, hnow⟩
  refine ⟨w, hrun, hstate, ?_⟩
  unfold CooledDown
  rw [hfailed, hnow]
  decide

/-- The law asked for: an open breaker that has cooled down can be recovered from. -/
def Recoverable (p : Platform) (start : World) : Prop :=
  ∀ es w, run (step p) start es = some w → IsOpen p w → CooledDown p w → CanRecover p w

/-- One outage is enough to lock the sample node up for good. -/
theorem outage_is_permanent : ¬ Recoverable Gateway.samplePlatform Gateway.sampleWorld := by
  intro hlaw
  rcases outage_opens with ⟨w, hrun, hopen, hcooled⟩
  rcases hlaw outage w hrun hopen hcooled with ⟨es, t, ht, hadmits⟩
  exact not_admits_of_open (isOpen_run hopen ht) hadmits

/-- The theorem above at the sample node. -/
theorem outage_not_canRecover :
    ∃ w, run (step Gateway.samplePlatform) Gateway.sampleWorld outage = some w ∧
      ¬ CanRecover Gateway.samplePlatform w := by
  rcases outage_opens with ⟨w, hrun, hopen, -⟩
  exact ⟨w, hrun, not_canRecover_of_open _ w hopen⟩

end GlobalBreaker
end GatewayEdge
