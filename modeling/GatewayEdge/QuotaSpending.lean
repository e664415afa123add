import GatewayEdge.Gates
import GatewayEdge.QuotaCounting

/-!
# QuotaSpending — which requests use up the daily allowance

The quota is counted behind the rate limit and in front of the load balancer.  A request that a gate
before the quota stops leaves the counter alone; one that arrives there is counted, and nothing gives
the count back when no upstream is found for it.
-/

namespace GatewayEdge
namespace Gateway

open Auth (UserIdentity)
open Foundation
open Selector (regionPool Usable)

/-! ## The gates in front of the quota -/

/-- What the rate limiter says to this call for a service. -/
def requestRate (p : Platform) (w : World) (a : Args) (svc : ServiceConfig) :
    RateLimit.State × Bool :=
  RateLimit.checkRateLimit p.fxHash p.env w.nowSecs svc.rateLimitMax
    ((requestIdentity p w a).map UserIdentity.userId)
    { shm := w.shm.rateLimit, tx := w.worker.rlTx }

/-- Every gate in front of the quota lets the request through. -/
structure ReachesQuota (p : Platform) (w : World) (a : Args) (out : OutBuffers)
    (resolved : Router.ResolvedRoute) (svc : ServiceConfig) : Prop where
  slot : (Backpressure.acquire w.worker.config (w.globalState p) w.worker.inFlight).2 = true
  args : ¬(a.authHeader = none ∨ a.path = none ∨ out.region = none)
  inspected : (requestInspection p w a).2 = .allow
  routed : requestRoute p w a = .ok resolved
  service : resolved.service = some svc
  unshed : ¬(Sentinel.shedAnonymous w.worker.posture ∧ requestIdentity p w a = none)
  verdict : bodyVerdict p a.request resolved.validation = .ok ()
  authenticated : ¬(svc.requireAuth ∧ requestIdentity p w a = none)
  withinRate : (requestRate p w a svc).2 = true

/-- What the quota and the load balancer read is as it was before the call. -/
structure Arrived (w w' : World) : Prop where
  clock : w'.clockMs = w.clockMs
  counters : w'.quotaCounters = w.quotaCounters
  connected : w'.worker.quotaConnected = w.worker.quotaConnected
  ema : w'.worker.ema = w.worker.ema
  usability : w'.usability = w.usability

/-- A call either arrives at the quota, with nothing changed that matters from there on, or is refused
without a count. -/
inductive Approach (p : Platform) (w : World) (a : Args) (out : OutBuffers) (r : Outcome) : Prop
  | stopped (barred : ∀ resolved svc, ¬ ReachesQuota p w a out resolved svc)
      (uncounted : r.world.quotaCounters = w.quotaCounters)
  | arrived (resolved : Router.ResolvedRoute) (svc : ServiceConfig) (w' : World) (out' : OutBuffers)
      (reached : ReachesQuota p w a out resolved svc) (before : Arrived w w')
      (rest : r = quotaStage p a.request (requestIdentity p w a) svc resolved.region w' out')

section Stages

variable {p : Platform} {req : Request} {identity : Option UserIdentity} {w : World}
  {out : OutBuffers}

/-- The rate limiter refuses the request, or hands it to the quota. -/
theorem rateLimitStage_of_rate {service : ServiceConfig} {s : RateLimit.State} {ok : Bool}
    (req : Request) (region : String) (out : OutBuffers)
    (h : RateLimit.checkRateLimit p.fxHash p.env w.nowSecs service.rateLimitMax
      (identity.map UserIdentity.userId) { shm := w.shm.rateLimit, tx := w.worker.rlTx } = (s, ok)) :
    ∃ w', Arrived w w' ∧
      rateLimitStage p req identity service region w out =
        if ok then quotaStage p req identity service region w' out else reject w' out 429 := by
  refine ⟨{ w with
      shm := { w.shm with rateLimit := s.shm }, worker := { w.worker with rlTx := s.tx } },
    ⟨rfl, rfl, rfl, rfl, rfl⟩, ?_⟩
  unfold rateLimitStage
  rw [h]

/-- The router refuses the request or finds no service, or hands it to the policies of the service. -/
theorem routeStage_of_route {a : Args} {w₀ : World} (out : OutBuffers)
    (hroute : Router.routeRequest p.matchit p.env w.worker.config w.worker.router
      (beforeFirst '?' req.path) identity = requestRoute p w₀ a) :
    (∀ status, requestRoute p w₀ a = .error status →
      routeStage p req identity w out = reject w out status) ∧
    (∀ resolved, requestRoute p w₀ a = .ok resolved → resolved.service = none →
      routeStage p req identity w out = reject w out 404) ∧
    (∀ resolved svc, requestRoute p w₀ a = .ok resolved → resolved.service = some svc →
      routeStage p req identity w out = policyStage p req identity resolved svc w out) := by
  unfold routeStage
  rw [hroute]
  refine ⟨fun status h => ?_, fun resolved h hservice => ?_, fun resolved svc h hservice => ?_⟩
  · simp only [h]
  · simp only [h, hservice]
  · simp only [h, hservice]

end Stages

/-- Arrivals compose with changes the quota does not see. -/
theorem Arrived.trans {w w₁ w₂ : World} (h : Arrived w w₁) (h' : Arrived w₁ w₂) : Arrived w w₂ where
  clock := h'.clock.trans h.clock
  counters := h'.counters.trans h.counters
  connected := h'.connected.trans h.connected
  ema := h'.ema.trans h.ema
  usability := h'.usability.trans h.usability

section Approaches

variable {p : Platform} {w w₁ : World} {a : Args} {out : OutBuffers} {resolved : Router.ResolvedRoute}
  {svc : ServiceConfig}

/-- The gates of the service a request was routed to, in a world that differs in nothing they read. -/
theorem policyStage_approach
    (hslot : (Backpressure.acquire w.worker.config (w.globalState p) w.worker.inFlight).2 = true)
    (hargs : ¬(a.authHeader = none ∨ a.path = none ∨ out.region = none))
    (hinspected : (requestInspection p w a).2 = .allow) (hrouted : requestRoute p w a = .ok resolved)
    (hservice : resolved.service = some svc) (harrived : Arrived w w₁)
    (hposture : w₁.worker.posture = w.worker.posture)
    (hrate : RateLimit.checkRateLimit p.fxHash p.env w₁.nowSecs = RateLimit.checkRateLimit
        p.fxHash p.env w.nowSecs ∧ w₁.shm.rateLimit = w.shm.rateLimit ∧
        w₁.worker.rlTx = w.worker.rlTx) :
    Approach p w a out
      (policyStage p a.request (requestIdentity p w a) resolved svc w₁ (numberedOut w out)) := by
  have hsame : ∀ {other svc'}, ReachesQuota p w a out other svc' → other = resolved := by
    intro other svc' h
    exact Except.ok.inj (h.routed.symm.trans hrouted)
  have hsvc : ∀ {other svc'}, ReachesQuota p w a out other svc' → svc' = svc := by
    intro other svc' h
    have hother := h.service
    rw [hsame h, hservice] at hother
    exact (Option.some.inj hother).symm
  by_cases hshed : Sentinel.shedAnonymous w.worker.posture ∧ requestIdentity p w a = none
  · refine .stopped (fun _ _ h => h.unshed hshed) ?_
    unfold policyStage
    rw [hposture, if_pos hshed]
    exact harrived.counters
  have hunshed : ¬(Sentinel.shedAnonymous w₁.worker.posture ∧ requestIdentity p w a = none) :=
    hposture ▸ hshed
  rcases policyStage_of_verdict p a.request svc (numberedOut w out) resolved hunshed with
    ⟨hrefuse, haccept⟩
  cases hverdict : bodyVerdict p a.request resolved.validation with
  | error v =>
      refine .stopped (fun other svc' h => ?_) ?_
      · have hno := h.verdict
        rw [hsame h, hverdict] at hno
        cases hno
      · rw [hrefuse v hverdict]
        exact harrived.counters
  | ok u =>
      rw [haccept hverdict]
      by_cases hauth : svc.requireAuth ∧ requestIdentity p w a = none
      · refine .stopped (fun other svc' h => ?_) ?_
        · exact h.authenticated (hsvc h ▸ hauth)
        · rw [if_pos hauth]
          exact harrived.counters
      rw [if_neg hauth]
      rcases hlimit : requestRate p w a svc with ⟨s, ok⟩
      have hlimit' := hlimit
      unfold requestRate at hlimit'
      rw [← hrate.1, ← hrate.2.1, ← hrate.2.2] at hlimit'
      rcases rateLimitStage_of_rate a.request resolved.region
        (tieredOut resolved (numberedOut w out)) hlimit' with ⟨w₂, hlater, hstage⟩
      rw [hstage]
      cases ok with
      | false =>
          refine .stopped (fun other svc' h => ?_) (hlater.counters.trans harrived.counters)
          have hno := h.withinRate
          rw [hsvc h, hlimit] at hno
          cases hno
      | true =>
          refine .arrived resolved svc w₂ _ ?_ (harrived.trans hlater) rfl
          exact
            { slot := hslot
              args := hargs
              inspected := hinspected
              routed := hrouted
              service := hservice
              unshed := hshed
              verdict := hverdict
              authenticated := hauth
              withinRate := by rw [hlimit] }

end Approaches

theorem processRequest_approach (p : Platform) (w : World) (a : Args) (out : OutBuffers) :
    Approach p w a out (processRequest p w a out) := by
  by_cases hslot :
      (Backpressure.acquire w.worker.config (w.globalState p) w.worker.inFlight).2 = true
  swap
  · refine .stopped (fun _ _ h => hslot h.slot) ?_
    unfold processRequest
    split
    · rfl
    · rename_i hacquire
      rw [hacquire] at hslot
      exact absurd rfl hslot
  by_cases hargs : a.authHeader = none ∨ a.path = none ∨ out.region = none
  · refine .stopped (fun _ _ h => h.args hargs) ?_
    unfold processRequest
    split
    · rfl
    · dsimp only
      rw [if_pos hargs]
      rfl
  cases hinspected : (requestInspection p w a).2 with
  | block status reason =>
      refine .stopped (fun _ _ h => ?_) ?_
      · have hallow := hinspected.symm.trans h.inspected
        cases hallow
      · rw [processRequest_of_blocked hslot hargs hinspected]
        rfl
  | allow =>
      rw [processRequest_of_inspected hslot hargs hinspected]
      -- From here on the world differs from `w` in nothing the later gates read.
      generalize hworld : ({ authedWorld p w a (requestInspection p w a).1 with
        worker := { (authedWorld p w a (requestInspection p w a).1).worker with
          inFlight := (Backpressure.acquire w.worker.config (w.globalState p)
            w.worker.inFlight).1 } } : World) = w₁
      have harrived : Arrived w w₁ := hworld ▸ ⟨rfl, rfl, rfl, rfl, rfl⟩
      have hposture : w₁.worker.posture = w.worker.posture := hworld ▸ rfl
      have hrate : RateLimit.checkRateLimit p.fxHash p.env w₁.nowSecs = RateLimit.checkRateLimit
          p.fxHash p.env w.nowSecs ∧ w₁.shm.rateLimit = w.shm.rateLimit ∧
          w₁.worker.rlTx = w.worker.rlTx := hworld ▸ ⟨rfl, rfl, rfl⟩
      have hroute : Router.routeRequest p.matchit p.env w₁.worker.config w₁.worker.router
          (beforeFirst '?' a.request.path) (requestIdentity p w a) = requestRoute p w a := hworld ▸ rfl
      rcases routeStage_of_route (numberedOut w out) hroute with ⟨herror, hmissing, hfound⟩
      cases hrouted : requestRoute p w a with
      | error status =>
          refine .stopped (fun _ _ h => ?_) ?_
          · have hno := hrouted.symm.trans h.routed
            cases hno
          · rw [herror status hrouted]
            exact harrived.counters
      | ok resolved =>
          cases hservice : resolved.service with
          | none =>
              refine .stopped (fun other svc h => ?_) ?_
              · have hno := h.service
                rw [Except.ok.inj (h.routed.symm.trans hrouted), hservice] at hno
                cases hno
              · rw [hmissing resolved hrouted hservice]
                exact harrived.counters
          | some svc =>
              rw [hfound resolved svc hrouted hservice]
              exact policyStage_approach hslot hargs hinspected hrouted hservice harrived hposture hrate

/-! ## The quota and what comes after it -/

/-- Today's counter of a user on a service. -/
def quotaKey (p : Platform) (w : World) (svc : ServiceConfig) (id : UserIdentity) : String :=
  Quota.counterKey p.crypto.sha256 w.nowSecs svc.name id.userId

/-- The check of this call's quota, if the call gets that far. -/
def requestQuota (p : Platform) (w : World) (a : Args) (svc : ServiceConfig) (id : UserIdentity)
    (policy : QuotaPolicy) : Quota.State × Bool :=
  Quota.checkQuota p.crypto.sha256 w.nowSecs svc.name id.userId policy a.quotaIo
    { counters := w.quotaCounters, connected := w.worker.quotaConnected }

theorem selectStage_quotaCounters (p : Platform) (req : Request) (identity : Option UserIdentity)
    (svc : ServiceConfig) (region : String) (w : World) (out : OutBuffers) :
    (selectStage p req identity svc region w out).world.quotaCounters = w.quotaCounters := by
  unfold selectStage
  rcases Selector.selectUpstream (w.selectContext p) svc region
      (identity.map UserIdentity.userId) req.canaryHint w.usability with ⟨u, _ | addr⟩
  · rfl
  · rfl

/-- A call that arrives at the quota leaves the counters of the check behind, whatever becomes of it, and
once the quota lets it pass only a missing upstream stops it. -/
theorem quotaStage_spends {p : Platform} {w w' : World} {a : Args} {svc : ServiceConfig}
    {policy : QuotaPolicy} (h : Arrived w w') (hquota : svc.quota = some policy) (id : UserIdentity)
    (region : String) (out : OutBuffers) :
    (quotaStage p a.request (some id) svc region w' out).world.quotaCounters =
        (requestQuota p w a svc id policy).1.counters ∧
      ((requestQuota p w a svc id policy).2 = true →
        ((quotaStage p a.request (some id) svc region w' out).status = 200 ↔
          ∃ up ∈ regionPool svc region, Usable (w.selectContext p) up.address w.usability)) := by
  have hsame : Quota.checkQuota p.crypto.sha256 w'.nowSecs svc.name id.userId policy
      a.request.quotaIo { counters := w'.quotaCounters, connected := w'.worker.quotaConnected } =
        requestQuota p w a svc id policy := by
    unfold requestQuota World.nowSecs
    rw [h.clock, h.counters, h.connected]
    rfl
  have hcontext : w'.selectContext p = w.selectContext p := by
    unfold World.selectContext World.nowSecs
    rw [h.clock, h.ema]
  unfold quotaStage
  simp only [hquota]
  rw [hsame]
  rcases requestQuota p w a svc id policy with ⟨s, _ | _⟩
  · exact ⟨rfl, fun hno => by cases hno⟩
  · refine ⟨selectStage_quotaCounters p a.request (some id) svc region _ out, fun _ => ?_⟩
    refine (selectStage_status_iff p a.request (some id) svc region _ out).trans ?_
    rw [← hcontext, ← h.usability]
    rfl

/-! ## Who pays -/

section Law

variable (p : Platform) (w : World) (a : Args) (out : OutBuffers) (svc : ServiceConfig)
  (id : UserIdentity) (policy : QuotaPolicy)

/-- The quota decision is what refuses the call. -/
def QuotaRefuses : Prop :=
  (∃ resolved, ReachesQuota p w a out resolved svc) ∧ (requestQuota p w a svc id policy).2 = false

/-- A call that is refused, and not by the quota, leaves the user's counter alone. -/
def UnspentWhenRefused : Prop :=
  (processRequest p w a out).status ≠ 200 → ¬ QuotaRefuses p w a out svc id policy →
    (processRequest p w a out).world.quotaCounters (quotaKey p w svc id) =
      w.quotaCounters (quotaKey p w svc id)

/-- When the gates in front of the load balancer, the quota among them, let the call pass, an upstream of
its region is usable, or else no `INCR` of the call takes effect. -/
def BackedWhenCounted : Prop :=
  ∀ resolved, ReachesQuota p w a out resolved svc → (requestQuota p w a svc id policy).2 = true →
    (∃ up ∈ regionPool svc resolved.region, Usable (w.selectContext p) up.address w.usability) ∨
      Quota.increments w.worker.quotaConnected (a.quotaIo.take 2) = 0

end Law

/-- The service of a resolved route is the one the router finds on the path. -/
theorem service_of_requestRoute {p : Platform} {w : World} {a : Args}
    {resolved : Router.ResolvedRoute} (h : requestRoute p w a = .ok resolved) :
    resolved.service = (Router.findService p.matchit w.worker.router a.request.routePath
      w.worker.config).1 := by
  unfold requestRoute Router.routeRequest at h
  dsimp only at h
  split at h
  · cases h
  · rcases Except.ok.inj h with rfl
    rfl

/-- A refused request of a user leaves his allowance alone, unless it has passed all the gates up to the
quota and been counted there while no upstream of its region was usable. -/
theorem unspent_iff_backed {p : Platform} {w : World} {a : Args} {out : OutBuffers}
    {svc : ServiceConfig} {id : UserIdentity} {policy : QuotaPolicy}
    (hid : requestIdentity p w a = some id)
    (hservice : (Router.findService p.matchit w.worker.router a.request.routePath
      w.worker.config).1 = some svc)
    (hquota : svc.quota = some policy) :
    UnspentWhenRefused p w a out svc id policy ↔ BackedWhenCounted p w a out svc id policy := by
  have hcount : (requestQuota p w a svc id policy).1.counters (quotaKey p w svc id) =
      w.quotaCounters (quotaKey p w svc id) +
        Quota.increments w.worker.quotaConnected (a.quotaIo.take 2) := by
    unfold requestQuota
    rw [Quota.checkQuota_counters]
    exact Function.update_self _ _ _
  cases processRequest_approach p w a out with
  | stopped barred uncounted =>
      constructor
      · exact fun _ resolved hreached => absurd hreached (barred resolved svc)
      · exact fun _ _ _ => by rw [uncounted]
  | arrived resolved svc' w' out' reached before rest =>
      have hsvc : svc' = svc := by
        have hfound := service_of_requestRoute reached.routed
        rw [reached.service, hservice] at hfound
        exact Option.some.inj hfound
      subst hsvc
      rw [hid] at rest
      rcases quotaStage_spends (p := p) (a := a) before hquota id resolved.region out' with
        ⟨hcounters, hstatus⟩
      rw [← rest] at hcounters hstatus
      constructor
      · intro hunspent other hother hallowed
        have hresolved : other = resolved :=
          Except.ok.inj (hother.routed.symm.trans reached.routed)
        subst hresolved
        by_cases hup : ∃ up ∈ regionPool svc' other.region,
            Usable (w.selectContext p) up.address w.usability
        · exact Or.inl hup
        · refine Or.inr ?_
          have hkept := hunspent (fun h => hup ((hstatus hallowed).1 h))
            (fun hrefuses => by rw [hrefuses.2] at hallowed; cases hallowed)
          rw [hcounters, hcount] at hkept
          omega
      · intro hbacked hnot hother
        have hallowed : (requestQuota p w a svc' id policy).2 = true := by
          cases hverdict : (requestQuota p w a svc' id policy).2 with
          | true => rfl
          | false => exact absurd ⟨⟨resolved, reached⟩, hverdict⟩ hother
        rcases hbacked resolved reached hallowed with hup | hnone
        · exact absurd ((hstatus hallowed).2 hup) hnot
        · rw [hcounters, hcount, hnone]
          omega

/-! ## A concrete refusal -/

/-- A service with an allowance. -/
def meteredService : ServiceConfig where
  name := "s"
  rateLimitMax := 0
  regionalUpstreams := [("US", [{ name := "b", address := "b:80" }])]
  requireAuth := true
  quota := some { dailyLimit := 10 }

def meteredConfig : GatewayConfig :=
  { sampleConfig with services := [("s", meteredService)] }

def meteredWorld : World :=
  { sampleWorld with
    worker := { sampleWorld.worker with
      config := meteredConfig, router := Router.updateRouter meteredConfig } }

/-- The same world after the prober has found every upstream down. -/
def strandedWorld : World :=
  { meteredWorld with
    shm := { meteredWorld.shm with health := fun _ => { healthy := 0, lastCheckMs := 1 } } }

/-- `GET /a` with Alice's token; Redis answers every command. -/
def meteredArgs : Args :=
  { anonymousArgs with
    authHeader := some (strBytes ("Bearer " ++ Auth.sampleToken)), quotaIo := [{}, {}] }

def alice : UserIdentity := { userId := "alice", homeRegion := some "US" }

theorem identity_metered : requestIdentity samplePlatform meteredWorld meteredArgs = some alice :=
  requestIdentity_sampleToken rfl rfl rfl rfl rfl rfl (by decide)

theorem identity_stranded : requestIdentity samplePlatform strandedWorld meteredArgs = some alice :=
  requestIdentity_sampleToken rfl rfl rfl rfl rfl rfl (by decide)

/-- The only upstream of the service is down: the request is refused with 503, the quota has let it pass,
and it has been counted. -/
theorem refused_request_counted :
    ¬ UnspentWhenRefused samplePlatform strandedWorld meteredArgs anonymousOut meteredService alice
      { dailyLimit := 10 } := by
  intro h
  have hpast : (Backpressure.acquire strandedWorld.worker.config
        (strandedWorld.globalState samplePlatform) strandedWorld.worker.inFlight).2 = true ∧
      (requestInspection samplePlatform strandedWorld meteredArgs).2 = .allow := by
    decide +kernel
  have hargs : ¬(meteredArgs.authHeader = none ∨ meteredArgs.path = none ∨
      anonymousOut.region = none) := by
    decide
  have hrun := processRequest_of_inspected hpast.1 hargs hpast.2
  rw [identity_stranded] at hrun
  have houtcome : (processRequest samplePlatform strandedWorld meteredArgs anonymousOut).status = 503 ∧
      (processRequest samplePlatform strandedWorld meteredArgs anonymousOut).world.quotaCounters
        (quotaKey samplePlatform strandedWorld meteredService alice) = 1 := by
    rw [hrun]
    decide +kernel
  have hallowed : (requestQuota samplePlatform strandedWorld meteredArgs meteredService alice
      { dailyLimit := 10 }).2 = true := by
    decide
  rcases houtcome with ⟨hstatus, hcount⟩
  have hkept := h (by rw [hstatus]; decide) fun hrefuses => by
    rw [hrefuses.2] at hallowed
    cases hallowed
  rw [hcount] at hkept
  exact absurd hkept (by decide)

/-- With the upstream up the condition is met and the law holds. -/
theorem backed_request_unspent :
    UnspentWhenRefused samplePlatform meteredWorld meteredArgs anonymousOut meteredService alice
      { dailyLimit := 10 } := by
  have hroute : requestRoute samplePlatform meteredWorld meteredArgs =
      .ok { service := some meteredService, region := "US", tier := "normal", validation := none } := by
    unfold requestRoute
    rw [identity_metered]
    decide +kernel
  refine (unspent_iff_backed identity_metered (by decide) rfl).2 fun resolved hreached _ =>
    Or.inl ?_
  rw [Except.ok.inj (hreached.routed.symm.trans hroute)]
  exact ⟨{ name := "b", address := "b:80" }, by decide, by decide⟩

end Gateway
end GatewayEdge
