import GatewayEdge.Gates

/-!
# RequestNumbers — which number a request gets

The id of a request is written once it is let in and before anything else is decided, and no later gate
touches the counter or the buffer.  A request that backpressure refuses is not numbered at all.
-/

namespace GatewayEdge
namespace Gateway

open Auth (UserIdentity)
open Foundation

/-! ## What the gates leave alone -/

/-- A view of the world and the buffers in which none of the gates behind the token check can be seen. -/
structure Unseen {α : Type*} (view : World → OutBuffers → α) : Prop where
  release : ∀ w out, view w.release out = view w out
  usability : ∀ w out cb health,
    view { w with shm := { w.shm with cb := cb, health := health } } out = view w out
  quota : ∀ w out counters connected,
    view { w with
      quotaCounters := counters
      worker := { w.worker with quotaConnected := connected } } out = view w out
  rateLimit : ∀ w out counters tx,
    view { w with
      shm := { w.shm with rateLimit := counters }
      worker := { w.worker with rlTx := tx } } out = view w out
  tier : ∀ w out tier, view w { out with tier := tier } = view w out
  admission : ∀ w out identity region upstream,
    view w (writeAdmission out identity region upstream) = view w out

namespace Unseen

variable {α : Type*} {view : World → OutBuffers → α} (h : Unseen view)

include h

theorem reject (w : World) (out : OutBuffers) (status : Int) :
    view (Gateway.reject w out status).world (Gateway.reject w out status).out = view w out :=
  h.release w out

variable (p : Platform) (req : Request) (identity : Option UserIdentity) (service : ServiceConfig)
  (region : String) (w : World) (out : OutBuffers)

theorem selectStage :
    view (selectStage p req identity service region w out).world
      (selectStage p req identity service region w out).out = view w out := by
  unfold Gateway.selectStage
  dsimp only
  split
  · exact (h.admission _ _ _ _ _).trans (h.usability w out _ _)
  · exact (h.reject _ _ _).trans (h.usability w out _ _)

theorem quotaStage :
    view (quotaStage p req identity service region w out).world
      (quotaStage p req identity service region w out).out = view w out := by
  unfold Gateway.quotaStage
  split
  · -- A user and a policy: the request is counted, then let on or rejected.
    dsimp only
    split
    · exact (h.selectStage p req _ service region _ out).trans (h.quota w out _ _)
    · exact (h.reject _ _ _).trans (h.quota w out _ _)
  · exact h.selectStage p req _ service region w out

theorem rateLimitStage :
    view (rateLimitStage p req identity service region w out).world
      (rateLimitStage p req identity service region w out).out = view w out := by
  unfold Gateway.rateLimitStage
  dsimp only
  split
  · exact (h.quotaStage p req identity service region _ out).trans (h.rateLimit w out _ _)
  · exact (h.reject _ _ _).trans (h.rateLimit w out _ _)

theorem policyStage (resolved : Router.ResolvedRoute) :
    view (policyStage p req identity resolved service w out).world
      (policyStage p req identity resolved service w out).out = view w out := by
  unfold Gateway.policyStage
  split
  · exact h.reject _ _ _
  · -- The tier is written before the checks below.
    dsimp only
    split
    · exact (h.reject _ _ _).trans (h.tier w out _)
    · split
      · exact (h.reject _ _ _).trans (h.tier w out _)
      · exact (h.rateLimitStage p req identity service resolved.region w _).trans (h.tier w out _)

theorem routeStage :
    view (routeStage p req identity w out).world (routeStage p req identity w out).out = view w out := by
  unfold Gateway.routeStage
  split
  · exact h.reject _ _ _
  · split
    · exact h.reject _ _ _
    · exact h.policyStage p req identity _ w out _

end Unseen

/-! ## The number of a request -/

/-- What ids are made of, and the buffer they are written to. -/
def numbering (w : World) (out : OutBuffers) : Nat × Nat × Option Bytes :=
  (w.worker.pid, w.worker.requestCounter, out.reqId)

theorem unseen_numbering : Unseen numbering where
  release _ _ := rfl
  usability _ _ _ _ := rfl
  quota _ _ _ _ := rfl
  rateLimit _ _ _ _ := rfl
  tier _ _ _ := rfl
  admission _ _ _ _ _ := rfl

/-- Backpressure lets the next request of the worker in. -/
def LetIn (p : Platform) (w : World) : Prop :=
  (Backpressure.acquire w.worker.config (w.globalState p) w.worker.inFlight).2 = true

instance (p : Platform) (w : World) : Decidable (LetIn p w) := inferInstanceAs (Decidable (_ = true))

variable {p : Platform} {w : World}

/-- A request that is let in takes the next number, whatever is decided about it then. -/
theorem processRequest_numbers {a : Args} {out : OutBuffers} (hlet : LetIn p w)
    (hargs : ¬(a.authHeader = none ∨ a.path = none ∨ out.region = none)) :
    numbering (processRequest p w a out).world (processRequest p w a out).out =
      (w.worker.pid, (w.worker.requestCounter + 1) % 2 ^ 64,
        writeCString (formatRequestId w.worker.pid w.worker.requestCounter) out.reqId) := by
  cases hdecision : (requestInspection p w a).2 with
  | block status reason =>
      -- The WAF comes behind the id.
      rw [processRequest_of_blocked hlet hargs hdecision]
      rfl
  | allow =>
      rw [processRequest_of_inspected hlet hargs hdecision]
      exact unseen_numbering.routeStage p a.request _ _ (numberedOut w out)

/-- A request that is refused at the door gets no number. -/
theorem processRequest_refused (hlet : ¬ LetIn p w) (a : Args) (out : OutBuffers) :
    numbering (processRequest p w a out).world (processRequest p w a out).out = numbering w out := by
  unfold processRequest
  unfold LetIn at hlet
  rcases hacquire : Backpressure.acquire w.worker.config (w.globalState p) w.worker.inFlight with
    ⟨inFlight, admitted⟩
  rw [hacquire] at hlet
  cases admitted with
  | false => rfl
  | true => exact absurd rfl hlet

end Gateway
end GatewayEdge
