import GatewayEdge.Admission
import GatewayEdge.LoadBalancing.Availability

/-!
# Gates — what a request has passed when it is admitted

A status of 200 says that every gate let the request through.  One lemma per stage collects what the
later gates have decided; `processRequest_gatesPassed` puts them together, so that a statement about
admitted requests never unfolds a stage.
-/

namespace GatewayEdge
namespace Gateway

open Auth (UserIdentity)
open Foundation

/-- The last gate chose `addr` of the given region, and said so in the buffers. -/
structure Selected (p : Platform) (req : Request) (identity : Option UserIdentity)
    (svc : ServiceConfig) (region : String) (w : World) (out : OutBuffers) (r : Outcome)
    (addr : String) : Prop where
  answer : (Selector.selectUpstream (w.selectContext p) svc region
    (identity.map UserIdentity.userId) req.canaryHint w.usability).2 = some addr
  upstream : r.out.upstream = writeCString addr out.upstream
  region : r.out.region = writeCString region out.region

section Stages

variable {p : Platform} {req : Request} {identity : Option UserIdentity} {service : ServiceConfig}
  {region : String} {w : World} {out : OutBuffers}

theorem reject_status {status : Int} (h : status ≠ 200) : (reject w out status).status ≠ 200 := h

theorem selectStage_selected
    (h : (selectStage p req identity service region w out).status = 200) :
    ∃ addr, Selected p req identity service region w out
      (selectStage p req identity service region w out) addr := by
  unfold selectStage at h ⊢
  rcases hselect : Selector.selectUpstream (w.selectContext p) service region
      (identity.map UserIdentity.userId) req.canaryHint w.usability with ⟨u, answer⟩
  rw [hselect] at h
  cases answer with
  | none => exact absurd h (reject_status (by decide))
  | some addr => exact ⟨addr, { answer := by rw [hselect], upstream := rfl, region := rfl }⟩

theorem quotaStage_selected
    (h : (quotaStage p req identity service region w out).status = 200) :
    ∃ addr, Selected p req identity service region w out
      (quotaStage p req identity service region w out) addr := by
  unfold quotaStage at h ⊢
  split at h
  · rename_i id policy hquota
    dsimp only at h ⊢
    split at h
    · rename_i hok
      rw [if_pos hok]
      rcases selectStage_selected h with ⟨addr, hsel⟩
      exact ⟨addr, { answer := hsel.answer, upstream := hsel.upstream, region := hsel.region }⟩
    · exact absurd h (reject_status (by decide))
  · exact selectStage_selected h

theorem rateLimitStage_selected
    (h : (rateLimitStage p req identity service region w out).status = 200) :
    ∃ addr, Selected p req identity service region w out
      (rateLimitStage p req identity service region w out) addr := by
  unfold rateLimitStage at h ⊢
  dsimp only at h ⊢
  split at h
  · rename_i hok
    rw [if_pos hok]
    rcases quotaStage_selected h with ⟨addr, hsel⟩
    exact ⟨addr, { answer := hsel.answer, upstream := hsel.upstream, region := hsel.region }⟩
  · exact absurd h (reject_status (by decide))

section Statuses

variable (p : Platform) (req : Request) (identity : Option UserIdentity) (service : ServiceConfig)
  (region : String) (w : World) (out : OutBuffers)

theorem selectStage_status :
    (selectStage p req identity service region w out).status = 200 ∨
      (selectStage p req identity service region w out).status = 503 := by
  unfold selectStage
  dsimp only
  split
  · exact Or.inl rfl
  · exact Or.inr rfl

/-- Only a pool without a usable member stops the last gate. -/
theorem selectStage_status_iff :
    (selectStage p req identity service region w out).status = 200 ↔
      ∃ up ∈ Selector.regionPool service region,
        Selector.Usable (w.selectContext p) up.address w.usability := by
  rw [← Selector.selectUpstream_isSome_iff service region (identity.map UserIdentity.userId)
    req.canaryHint w.usability]
  unfold selectStage
  rcases Selector.selectUpstream (w.selectContext p) service region
      (identity.map UserIdentity.userId) req.canaryHint w.usability with ⟨u, _ | addr⟩
  · exact ⟨fun h => absurd h (reject_status (by decide)), fun h => by cases h⟩
  · exact ⟨fun _ => rfl, fun _ => rfl⟩

theorem quotaStage_status :
    (quotaStage p req identity service region w out).status = 200 ∨
      (quotaStage p req identity service region w out).status = 429 ∨
      (quotaStage p req identity service region w out).status = 503 := by
  have hselected : ∀ w', (selectStage p req identity service region w' out).status = 200 ∨
      (selectStage p req identity service region w' out).status = 429 ∨
      (selectStage p req identity service region w' out).status = 503 := by
    intro w'
    rcases selectStage_status p req identity service region w' out with h | h
    · exact Or.inl h
    · exact Or.inr (Or.inr h)
  unfold quotaStage
  split
  · dsimp only
    split
    · exact hselected _
    · exact Or.inr (Or.inl rfl)
  · exact hselected _

/-- The gates behind the validation refuse with two statuses. -/
theorem rateLimitStage_status :
    (rateLimitStage p req identity service region w out).status = 200 ∨
      (rateLimitStage p req identity service region w out).status = 429 ∨
      (rateLimitStage p req identity service region w out).status = 503 := by
  unfold rateLimitStage
  dsimp only
  split
  · exact quotaStage_status _ _ _ _ _ _ _
  · exact Or.inr (Or.inl rfl)

end Statuses

/-- The verdict of the body policy of the route; a route without one accepts every body. -/
def bodyVerdict (p : Platform) (req : Request) (validation : Option ValidationConfig) :
    Except Violation Unit :=
  match validation with
  | some policy => validateBody p.parseJson policy req.contentType req.body
  | none => .ok ()

/-- The buffers once the tier is written. -/
def tieredOut (resolved : Router.ResolvedRoute) (out : OutBuffers) : OutBuffers :=
  { out with tier := writeCString resolved.tier out.tier }

/-- Past the shedding the verdict on the body decides; what it lets through has to be signed in where
the service asks for it. -/
theorem policyStage_of_verdict (p : Platform) (req : Request) (service : ServiceConfig) (out : OutBuffers)
    (resolved : Router.ResolvedRoute)
    (hshed : ¬(Sentinel.shedAnonymous w.worker.posture ∧ identity = none)) :
    (∀ v, bodyVerdict p req resolved.validation = .error v →
      policyStage p req identity resolved service w out =
        reject w (tieredOut resolved out) v.response.1) ∧
    (bodyVerdict p req resolved.validation = .ok () →
      policyStage p req identity resolved service w out =
        if service.requireAuth ∧ identity = none then reject w (tieredOut resolved out) 401
        else rateLimitStage p req identity service resolved.region w (tieredOut resolved out)) := by
  unfold policyStage bodyVerdict tieredOut
  rw [if_neg hshed]
  cases resolved.validation with
  | none => exact ⟨(fun v h => by cases h), fun _ => rfl⟩
  | some policy =>
      dsimp only
      cases validateBody p.parseJson policy req.contentType req.body with
      | error v => exact ⟨fun v' h => (by cases h; rfl), fun h => (by cases h)⟩
      | ok u => exact ⟨(fun v' h => by cases h), fun _ => rfl⟩

/-- The gates of `policyStage` and the ones behind it. -/
theorem policyStage_selected {resolved : Router.ResolvedRoute}
    (h : (policyStage p req identity resolved service w out).status = 200) :
    bodyVerdict p req resolved.validation = .ok () ∧
      ¬(service.requireAuth ∧ identity = none) ∧
      ∃ addr, Selected p req identity service resolved.region w out
        (policyStage p req identity resolved service w out) addr := by
  by_cases hshed : Sentinel.shedAnonymous w.worker.posture ∧ identity = none
  · unfold policyStage at h
    rw [if_pos hshed] at h
    exact absurd h (reject_status (by decide))
  · rcases policyStage_of_verdict p req service out resolved hshed with ⟨herror, hok⟩
    cases hverdict : bodyVerdict p req resolved.validation with
    | error v =>
        have hstatus : (v.response.1 : Int) ≠ 200 := by
          have := v.response_status
          omega
        rw [herror v hverdict] at h
        exact absurd h (reject_status hstatus)
    | ok u =>
        rw [hok hverdict] at h ⊢
        by_cases hauth : service.requireAuth ∧ identity = none
        · rw [if_pos hauth] at h
          exact absurd h (reject_status (by decide))
        · rw [if_neg hauth] at h ⊢
          rcases rateLimitStage_selected h with ⟨addr, hsel⟩
          exact ⟨rfl, hauth, addr,
            { answer := hsel.answer, upstream := hsel.upstream, region := hsel.region }⟩

end Stages

/-! ## The call as a whole -/

/-- The path the router sees. -/
def Request.routePath (req : Request) : String := beforeFirst '?' req.path

/-- What the router resolves for this call. -/
def requestRoute (p : Platform) (w : World) (a : Args) : Except Int Router.ResolvedRoute :=
  Router.routeRequest p.matchit p.env w.worker.config w.worker.router a.request.routePath
    (requestIdentity p w a)

/-- Everything a request that came out as `r` with status 200 has passed. -/
structure GatesPassed (p : Platform) (w : World) (a : Args) (out : OutBuffers) (r : Outcome)
    (resolved : Router.ResolvedRoute) (svc : ServiceConfig) (addr : String) : Prop where
  inspected : (requestInspection p w a).2 = .allow
  routed : requestRoute p w a = .ok resolved
  service : resolved.service = some svc
  verdict : bodyVerdict p a.request resolved.validation = .ok ()
  authenticated : ¬(svc.requireAuth ∧ requestIdentity p w a = none)
  selected : Selected p a.request (requestIdentity p w a) svc resolved.region w out r addr

/-- The world behind the WAF and the token check. -/
def authedWorld (p : Platform) (w : World) (a : Args) (waf : Waf.Shm) : World :=
  { inspectedWorld w waf with
    worker := { (inspectedWorld w waf).worker with
      tokenCache := (Auth.validateToken p.crypto p.env w.worker.config w.worker.snapshot
        w.clockMs (strArg a.authHeader) w.worker.tokenCache).1 } }

/-- A call that has a slot and its pointers goes on to the WAF. -/
theorem processRequest_of_slot {p : Platform} {w : World} {a : Args} {out : OutBuffers}
    (hslot : (Backpressure.acquire w.worker.config (w.globalState p) w.worker.inFlight).2 = true)
    (hargs : ¬(a.authHeader = none ∨ a.path = none ∨ out.region = none)) :
    processRequest p w a out =
      wafStage p a.request
        { w with
          worker := { w.worker with
            inFlight := (Backpressure.acquire w.worker.config (w.globalState p)
              w.worker.inFlight).1 } } out := by
  unfold processRequest
  rcases hacquire : Backpressure.acquire w.worker.config (w.globalState p) w.worker.inFlight with
    ⟨inFlight, admitted⟩
  rw [hacquire] at hslot
  have hadmitted : admitted = true := hslot
  subst hadmitted
  dsimp only
  rw [if_neg hargs]

/-- A call that the WAF blocks gives its slot back. -/
theorem processRequest_of_blocked {p : Platform} {w : World} {a : Args} {out : OutBuffers}
    (hslot : (Backpressure.acquire w.worker.config (w.globalState p) w.worker.inFlight).2 = true)
    (hargs : ¬(a.authHeader = none ∨ a.path = none ∨ out.region = none)) {status : Nat}
    {reason : String} (hblock : (requestInspection p w a).2 = .block status reason) :
    processRequest p w a out =
      reject
        (inspectedWorld
          { w with
            worker := { w.worker with
              inFlight := (Backpressure.acquire w.worker.config (w.globalState p)
                w.worker.inFlight).1 } } (requestInspection p w a).1)
        (numberedOut w out) status := by
  rcases hinspected : requestInspection p w a with ⟨waf, decision⟩
  rw [hinspected] at hblock
  rw [processRequest_of_slot hslot hargs]
  exact (wafStage_of_inspection (p := p) (a := a)
    (w := { w with
      worker := { w.worker with
        inFlight := (Backpressure.acquire w.worker.config (w.globalState p)
          w.worker.inFlight).1 } }) hinspected out).1 status reason hblock

/-- A call that is let in and let through by the WAF goes on to the router with its identity. -/
theorem processRequest_of_inspected {p : Platform} {w : World} {a : Args} {out : OutBuffers}
    (hslot : (Backpressure.acquire w.worker.config (w.globalState p) w.worker.inFlight).2 = true)
    (hargs : ¬(a.authHeader = none ∨ a.path = none ∨ out.region = none))
    (hallow : (requestInspection p w a).2 = .allow) :
    processRequest p w a out =
      routeStage p a.request (requestIdentity p w a)
        { authedWorld p w a (requestInspection p w a).1 with
          worker := { (authedWorld p w a (requestInspection p w a).1).worker with
            inFlight := (Backpressure.acquire w.worker.config (w.globalState p)
              w.worker.inFlight).1 } }
        (numberedOut w out) := by
  rcases hinspected : requestInspection p w a with ⟨waf, decision⟩
  rw [hinspected] at hallow
  rw [processRequest_of_slot hslot hargs]
  have hstage := (wafStage_of_inspection (p := p) (a := a)
    (w := { w with
      worker := { w.worker with
        inFlight := (Backpressure.acquire w.worker.config (w.globalState p)
          w.worker.inFlight).1 } }) hinspected out).2 hallow
  rw [hstage]
  rfl

/-- A call is refused before it is routed, with the status of what refused it, or it goes on to the router. -/
theorem processRequest_cases (p : Platform) (w : World) (a : Args) (out : OutBuffers) :
    (processRequest p w a out).status = 503 ∨ (processRequest p w a out).status = 500 ∨
      (∃ status reason, (requestInspection p w a).2 = .block status reason ∧
        (processRequest p w a out).status = status) ∨
      (Backpressure.acquire w.worker.config (w.globalState p) w.worker.inFlight).2 = true ∧
        ¬(a.authHeader = none ∨ a.path = none ∨ out.region = none) ∧
        (requestInspection p w a).2 = .allow := by
  rcases hacquire : Backpressure.acquire w.worker.config (w.globalState p) w.worker.inFlight with
    ⟨inFlight, admitted⟩
  cases admitted with
  | false =>
      unfold processRequest
      rw [hacquire]
      exact Or.inl rfl
  | true =>
      by_cases hnull : a.authHeader = none ∨ a.path = none ∨ out.region = none
      · unfold processRequest
        rw [hacquire]
        dsimp only
        rw [if_pos hnull]
        exact Or.inr (Or.inl rfl)
      · cases hdecision : (requestInspection p w a).2 with
        | allow => exact Or.inr (Or.inr (Or.inr ⟨rfl, hnull, rfl⟩))
        | block status reason =>
            refine Or.inr (Or.inr (Or.inl ⟨status, reason, rfl, ?_⟩))
            rw [processRequest_of_blocked (by rw [hacquire]) hnull hdecision]
            rfl

/-- A blocked call ends with one of three statuses. -/
theorem requestInspection_block {p : Platform} {w : World} {a : Args} {status : Nat} {reason : String}
    (h : (requestInspection p w a).2 = .block status reason) :
    status = 400 ∨ status = 403 ∨ status = 429 := by
  rcases hinspected : requestInspection p w a with ⟨waf, decision⟩
  rw [hinspected] at h
  have hdecision : decision = .block status reason := h
  subst hdecision
  exact (Waf.inspect_block _ hinspected).2

theorem processRequest_gatesPassed {p : Platform} {w : World} {a : Args} {out : OutBuffers}
    (h : (processRequest p w a out).status = 200) :
    ∃ resolved svc addr, GatesPassed p w a out (processRequest p w a out) resolved svc addr := by
  rcases processRequest_cases p w a out with
    hstatus | hstatus | ⟨status, reason, hblock, hstatus⟩ | ⟨hslot, hargs, hallow⟩
  · cases h.symm.trans hstatus
  · cases h.symm.trans hstatus
  · have hnot := requestInspection_block hblock
    omega
  rw [processRequest_of_inspected hslot hargs hallow] at h ⊢
  unfold routeStage at h ⊢
  split at h
  · rename_i status hroute
    have hstatus : status ≠ 200 := by
      rw [Router.routeRequest_error hroute]
      decide
    exact absurd h (reject_status hstatus)
  · rename_i resolved hroute
    split at h
    · exact absurd h (reject_status (by decide))
    · rename_i service hservice
      rcases policyStage_selected h with ⟨hverdict, hauth, addr, hsel⟩
      refine ⟨resolved, service, addr, ?_⟩
      exact
        { inspected := hallow
          routed := hroute
          service := hservice
          verdict := hverdict
          authenticated := hauth
          selected :=
            { answer := hsel.answer, upstream := hsel.upstream, region := hsel.region } }

/-! ## The slot -/

/-- Whatever the arguments, the state and the decisions of the gates: a call that is admitted keeps exactly
the slot it has taken, any other call leaves the gauge as it found it, and a call is admitted only if
the gauge was below the limit of the moment. -/
theorem slot_balanced (p : Platform) (w : World) (a : Args) (out : OutBuffers) :
    let r := processRequest p w a out
    r.world.worker.inFlight - w.worker.inFlight = (if r.status = 200 then 1 else 0) ∧
      (r.status = 200 → ∃ limit,
        Backpressure.limit w.worker.config (w.globalState p) = some limit ∧
          w.worker.inFlight < limit) := by
  dsimp only
  constructor
  · rw [(processRequest_settled p w a out).gauge]
    omega
  · intro hadmitted
    rcases processRequest_cases p w a out with
      hstatus | hstatus | ⟨status, reason, hblock, hstatus⟩ | ⟨hslot, -, -⟩
    · cases hadmitted.symm.trans hstatus
    · cases hadmitted.symm.trans hstatus
    · have hnot := requestInspection_block hblock
      omega
    · exact Backpressure.acquire_snd_iff.1 hslot

end Gateway
end GatewayEdge
