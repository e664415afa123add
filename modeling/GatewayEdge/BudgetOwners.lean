import GatewayEdge.FleetSync
import GatewayEdge.GatePipeline

/-!
# BudgetOwners — who can spend a user's budget

A user has a bucket of the limiter on each node, messages in the queues of the sync threads and a counter a
day for each service.  In a fleet whose workers write the same buckets, whose sync threads saturate them and
whose nodes share the counters, they are only ever charged on behalf of a request with an identity of its own,
accepted from its token, that every gate in front of the limiter, or of the quota, has let pass.
-/

namespace GatewayEdge
namespace BudgetOwners

open Auth (UserIdentity)
open Foundation
open Gateway (Platform World Args OutBuffers processRequest requestIdentity requestService callGates
  checkGates slotGate pointerGate wafGate routeGate shedGate bodyGate loginGate limitGate quotaGate
  selectGate askLimiter askQuota quotaKey view_call_at view_call_of_unserved)
open RateLimit (SyncMsg bucketSlot)

/-! ## Getting as far as a budget -/

section Reaching

variable (p : Platform) (w : World) (a : Args) (out : OutBuffers) (identity : Option UserIdentity)
  (svc : ServiceConfig)

end Reaching

/-! ## What the limiter and the quota write -/

/-- The messages that wait for the sync thread. -/
def queued (tx : Option (List SyncMsg)) : List SyncMsg := tx.getD []

section Call

variable {p : Platform} {w : World} {a : Args} {out : OutBuffers}

end Call

/-! ## The fleet -/

/-- The node of each worker, and what its process runs on. -/
structure Setting where
  node : ℕ → ℕ
  platform : ℕ → Platform

structure Fleet where
  /-- The buckets of each node. -/
  buckets : ℕ → ℕ → ℕ
  /-- The queue of each worker's sync thread. -/
  rlTx : ℕ → Option (List SyncMsg)
  /-- The message that the thread is at. -/
  taken : ℕ → Option SyncMsg
  /-- The counters in Redis. -/
  counters : String → ℤ

/-- The messages of a worker that are on their way to Redis. -/
def Fleet.pending (s : Fleet) (w : ℕ) : List SyncMsg := (s.taken w).toList ++ queued (s.rlTx w)

/-- What a call of the worker finds: the budgets of the fleet, and anything else `beside` them. -/
def Fleet.world (p : Setting) (s : Fleet) (w : ℕ) (beside : World) : World :=
  { beside with
    shm := { beside.shm with rateLimit := s.buckets (p.node w) }
    worker := { beside.worker with rlTx := s.rlTx w }
    quotaCounters := s.counters }

/-- The processes have just been started: no thread has a message. -/
structure Fresh (s : Fleet) : Prop where
  pending : ∀ w, s.pending w = []
  counters : ∀ k, 0 ≤ s.counters k

inductive Event
  /-- A call, at any time, with any config, caches, reports and posture. -/
  | call (w : ℕ) (beside : World) (a : Args) (out : OutBuffers)
  /-- `recv_timeout` gives the sync thread of the worker a message. -/
  | receive (w : ℕ)
  /-- What comes of the message: the count of the fleet if Redis answers; the exchange may fail. -/
  | finish (w : ℕ) (fleetCount : Option ℤ) (exchangeLost : Bool)
  /-- A new worker process, which starts its sync thread or does not. -/
  | replace (w : ℕ) (synced : Bool)
  /-- A counter expires, or Redis loses it. -/
  | forget (key : String)

section Fleet

variable (p : Setting)

def step (s : Fleet) : Event → Option Fleet
  | .call w beside a out =>
    let world := (processRequest (p.platform w) (s.world p w beside) a out).world
    some
      { s with
        buckets := Function.update s.buckets (p.node w) world.shm.rateLimit
        rlTx := Function.update s.rlTx w world.worker.rlTx
        counters := world.quotaCounters }
  | .receive w =>
    match s.taken w, s.rlTx w with
    | none, some (msg :: rest) =>
      some
        { s with
          rlTx := Function.update s.rlTx w (some rest)
          taken := Function.update s.taken w (some msg) }
    | _, _ => none
  | .finish w fleetCount exchangeLost =>
    match s.taken w with
    | none => none
    | some msg =>
      let node := p.node w
      let buckets : RateLimit.State := { shm := s.buckets node, tx := none }
      let buckets := match fleetCount with
        | some n =>
          if exchangeLost then buckets else FleetSync.applySync (p.platform w).fxHash msg n buckets
        | none => buckets
      some
        { s with
          buckets := Function.update s.buckets node buckets.shm
          taken := Function.update s.taken w none }
  | .replace w synced =>
    some
      { s with
        rlTx := Function.update s.rlTx w (if synced then some [] else none)
        taken := Function.update s.taken w none }
  | .forget key => some { s with counters := Function.update s.counters key 0 }

/-- The event is a call that gets as far as `reaches` asks. -/
def Charges (s : Fleet) (e : Event)
    (reaches : ℕ → World → Args → OutBuffers → UserIdentity → ServiceConfig → Prop) : Prop :=
  ∃ w beside a out id svc, e = .call w beside a out ∧ reaches w (s.world p w beside) a out id svc

/-- Sometime in the run there is such a call. -/
def Sometime (s : Fleet) (es : List Event)
    (reaches : ℕ → World → Args → OutBuffers → UserIdentity → ServiceConfig → Prop) : Prop :=
  ∃ before e after m, es = before ++ e :: after ∧ run (step p) s before = some m ∧ Charges p m e reaches

end Fleet

/-! ## What a step does to the budgets -/

section Step

variable {p : Setting} {s t : Fleet} {e : Event}

end Step

/-! ## Runs -/

section Runs

variable {p : Setting} {s t : Fleet} {es : List Event}

theorem Sometime.mono {before : List Event}
    {reaches reaches' : ℕ → World → Args → OutBuffers → UserIdentity → ServiceConfig → Prop}
    (h : Sometime p s before reaches) (after : List Event)
    (himp : ∀ w v a out id svc, reaches w v a out id svc → reaches' w v a out id svc) :
    Sometime p s (before ++ after) reaches' := by
  rcases h with ⟨first, e, rest, m, rfl, hfirst, w, beside, a, out, id, svc, he, hreaches⟩
  refine ⟨first, e, rest ++ after, m, ?_, hfirst, w, beside, a, out, id, svc, he, ?_⟩
  · rw [List.append_assoc, List.cons_append]
  · exact himp _ _ _ _ _ _ hreaches

end Runs

/-! ## A concrete run -/

/-- One node with one worker. -/
def sampleSetting : Setting where
  node := fun _ => 0
  platform := fun _ => Gateway.samplePlatform

end BudgetOwners
end GatewayEdge
