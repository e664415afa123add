import GatewayEdge.Foundation.GateChain
import GatewayEdge.QuotaSpending

/-!
# GatePipeline — the hot path as a chain of gates

Seen from outside a call goes through gates one behind the other, each with a question to the state it finds
and a mark of its own.  None of them looks at what an earlier one has written: the breaker and the in-flight
gauge, the WAF file, the token cache, the buckets of the limiter, the quota counters and the breaker slots of
the upstreams belong to one gate each.  So a call can be judged on the state it arrives in.
-/

namespace GatewayEdge
namespace Gateway

open Auth (UserIdentity)
open Foundation

/-! ## The gates -/

/-- 0. Backpressure.  Whoever is refused behind it gives the slot back. -/
def slotGate (p : Platform) : Gate World Int where
  verdict w :=
    if (Backpressure.acquire w.worker.config (w.globalState p) w.worker.inFlight).2 then none else some 503
  mark w :=
    { w with
      worker := { w.worker with
        inFlight := (Backpressure.acquire w.worker.config (w.globalState p) w.worker.inFlight).1 } }

/-- The three pointers that must not be NULL. -/
def pointerGate (a : Args) (out : OutBuffers) : Gate World Int where
  verdict _ := if a.authHeader = none ∨ a.path = none ∨ out.region = none then some 500 else none
  mark w := w

/-- 1. The WAF, once the request has its number. -/
def wafGate (p : Platform) (a : Args) : Gate World Int where
  verdict w :=
    match (requestInspection p w a).2 with
    | .block status _ => some status
    | .allow => none
  mark w := inspectedWorld w (requestInspection p w a).1

/-- 2. and 3.: the token, which refuses nobody, and the route, which depends on the identity. -/
def routeGate (p : Platform) (a : Args) : Gate World Int where
  verdict w :=
    match requestRoute p w a with
    | .error status => some status
    | .ok resolved => if resolved.service = none then some 404 else none
  mark w :=
    { w with
      worker := { w.worker with
        tokenCache := (Auth.validateToken p.crypto p.env w.worker.config w.worker.snapshot w.clockMs
          (strArg a.authHeader) w.worker.tokenCache).1 } }

section Service

variable (p : Platform) (a : Args) (identity : Option UserIdentity) (resolved : Router.ResolvedRoute)
  (svc : ServiceConfig)

/-- 4a. The shedding of anonymous traffic. -/
def shedGate : Gate World Int where
  verdict w := if Sentinel.shedAnonymous w.worker.posture ∧ identity = none then some 503 else none
  mark w := w

/-- 4b. The body policy of the route. -/
def bodyGate : Gate World Int where
  verdict _ :=
    match bodyVerdict p a.request resolved.validation with
    | .error v => some v.response.1
    | .ok () => none
  mark w := w

/-- 4. A service may ask for a user. -/
def loginGate : Gate World Int where
  verdict _ := if svc.requireAuth ∧ identity = none then some 401 else none
  mark w := w

/-- What the limiter of the service says to a user now. -/
def askLimiter (w : World) : RateLimit.State × Bool :=
  RateLimit.checkRateLimit p.fxHash p.env w.nowSecs svc.rateLimitMax (identity.map UserIdentity.userId)
    { shm := w.shm.rateLimit, tx := w.worker.rlTx }

/-- 5. The limit of the user. -/
def limitGate : Gate World Int where
  verdict w := if (askLimiter p identity svc w).2 then none else some 429
  mark w :=
    { w with
      shm := { w.shm with rateLimit := (askLimiter p identity svc w).1.shm }
      worker := { w.worker with rlTx := (askLimiter p identity svc w).1.tx } }

/-- What the quota says to a user now; without a user or a policy nothing is counted. -/
def askQuota (w : World) : Quota.State × Bool :=
  match identity, svc.quota with
  | some id, some policy => requestQuota p w a svc id policy
  | _, _ => ({ counters := w.quotaCounters, connected := w.worker.quotaConnected }, true)

/-- 5b. The quota of the day. -/
def quotaGate : Gate World Int where
  verdict w := if (askQuota p a identity svc w).2 then none else some 429
  mark w :=
    { w with
      quotaCounters := (askQuota p a identity svc w).1.counters
      worker := { w.worker with quotaConnected := (askQuota p a identity svc w).1.connected } }

/-- The choice of an upstream, and the breaker slots as asking has left them. -/
def askSelector (w : World) : Selector.Usability × Option String :=
  Selector.selectUpstream (w.selectContext p) svc resolved.region (identity.map UserIdentity.userId)
    a.request.canaryHint w.usability

/-- 6. The load balancer. -/
def selectGate : Gate World Int where
  verdict w := if (askSelector p a identity resolved svc w).2 = none then some 503 else none
  mark w :=
    { w with
      shm := { w.shm with
        cb := (askSelector p a identity resolved svc w).1.cb
        health := (askSelector p a identity resolved svc w).1.health } }

/-- The gates of a service. -/
def serviceGates : List (Gate World Int) :=
  [shedGate identity, bodyGate p a resolved, loginGate identity svc, limitGate p identity svc,
    quotaGate p a identity svc, selectGate p a identity resolved svc]

end Service

/-- The gates between the slot and the service. -/
def checkGates (p : Platform) (a : Args) (out : OutBuffers) : List (Gate World Int) :=
  [pointerGate a out, wafGate p a, routeGate p a]

/-- The service the call is for, as seen on arrival. -/
def requestService (p : Platform) (w : World) (a : Args) : Option (Router.ResolvedRoute × ServiceConfig) :=
  match requestRoute p w a with
  | .error _ => none
  | .ok resolved => resolved.service.map fun svc => (resolved, svc)

/-- The gates of a call that arrives in `w`, but for the first. -/
def laterGates (p : Platform) (w : World) (a : Args) (out : OutBuffers) : List (Gate World Int) :=
  checkGates p a out ++
    match requestService p w a with
    | none => []
    | some (resolved, svc) => serviceGates p a (requestIdentity p w a) resolved svc

def callGates (p : Platform) (w : World) (a : Args) (out : OutBuffers) : List (Gate World Int) :=
  slotGate p :: laterGates p w a out

/-! ## The stages follow the chain -/

/-- A stage that owns a slot ends as the chain says, and gives the slot back when a gate refuses. -/
structure Follows (gs : List (Gate World Int)) (w : World) (r : Outcome) : Prop where
  status : r.status = (Gate.pass gs w).2.getD 200
  world : r.world = if (Gate.pass gs w).2 = none then (Gate.pass gs w).1 else (Gate.pass gs w).1.release

namespace Follows

variable {g : Gate World Int} {gs : List (Gate World Int)} {w : World} {r : Outcome}

theorem refused {status : Int} (out : OutBuffers) (h : g.verdict w = some status) :
    Follows (g :: gs) w (reject (g.mark w) out status) := by
  constructor
  · rw [Gate.pass_cons_of_refused gs h]
    rfl
  · rw [Gate.pass_cons_of_refused gs h]
    rfl

theorem passed (h : g.verdict w = none) (hrest : Follows gs (g.mark w) r) : Follows (g :: gs) w r := by
  constructor
  · rw [Gate.pass_cons_of_passed gs h]
    exact hrest.status
  · rw [Gate.pass_cons_of_passed gs h]
    exact hrest.world

end Follows

section Stages

variable (p : Platform) (a : Args) (identity : Option UserIdentity) (resolved : Router.ResolvedRoute)
  (svc : ServiceConfig) (w : World) (out : OutBuffers)

theorem selectStage_follows :
    Follows [selectGate p a identity resolved svc] w
      (selectStage p a.request identity svc resolved.region w out) := by
  rcases hasked : askSelector p a identity resolved svc w with ⟨u, answer⟩
  have hselect : Selector.selectUpstream (w.selectContext p) svc resolved.region
      (identity.map UserIdentity.userId) a.request.canaryHint w.usability = (u, answer) := hasked
  unfold selectStage
  rw [hselect]
  have hmark : (selectGate p a identity resolved svc).mark w =
      { w with shm := { w.shm with cb := u.cb, health := u.health } } := by
    unfold selectGate
    dsimp only
    rw [hasked]
  cases answer with
  | none =>
      dsimp only
      rw [← hmark]
      exact Follows.refused out (by simp [selectGate, hasked])
  | some upstream =>
      dsimp only
      rw [← hmark]
      exact Follows.passed (by simp [selectGate, hasked]) ⟨rfl, rfl⟩

theorem quotaStage_follows :
    Follows [quotaGate p a identity svc, selectGate p a identity resolved svc] w
      (quotaStage p a.request identity svc resolved.region w out) := by
  rcases hasked : askQuota p a identity svc w with ⟨s, ok⟩
  have hstage : quotaStage p a.request identity svc resolved.region w out =
      if ok then
        selectStage p a.request identity svc resolved.region ((quotaGate p a identity svc).mark w) out
      else reject ((quotaGate p a identity svc).mark w) out 429 := by
    unfold quotaStage quotaGate
    dsimp only
    rw [hasked]
    unfold askQuota at hasked
    -- Without a user or a policy nobody is asked, and the call passes.
    cases identity with
    | none =>
        rcases Prod.mk.inj hasked with ⟨rfl, rfl⟩
        rfl
    | some id =>
        cases hquota : svc.quota with
        | none =>
            rw [hquota] at hasked
            rcases Prod.mk.inj hasked with ⟨rfl, rfl⟩
            rfl
        | some policy =>
            rw [hquota] at hasked
            have hcheck : Quota.checkQuota p.crypto.sha256 w.nowSecs svc.name id.userId policy
                a.request.quotaIo
                { counters := w.quotaCounters, connected := w.worker.quotaConnected } = (s, ok) := hasked
            dsimp only
            rw [hcheck]
  rw [hstage]
  cases ok with
  | false => exact Follows.refused out (by simp [quotaGate, hasked])
  | true =>
      exact Follows.passed (by simp [quotaGate, hasked]) (selectStage_follows p a identity resolved svc _ out)

theorem rateLimitStage_follows :
    Follows [limitGate p identity svc, quotaGate p a identity svc, selectGate p a identity resolved svc] w
      (rateLimitStage p a.request identity svc resolved.region w out) := by
  rcases hasked : askLimiter p identity svc w with ⟨s, ok⟩
  have hstage : rateLimitStage p a.request identity svc resolved.region w out =
      if ok then
        quotaStage p a.request identity svc resolved.region ((limitGate p identity svc).mark w) out
      else reject ((limitGate p identity svc).mark w) out 429 := by
    unfold rateLimitStage limitGate
    dsimp only
    rw [hasked]
    unfold askLimiter at hasked
    rw [hasked]
  rw [hstage]
  cases ok with
  | false => exact Follows.refused out (by simp [limitGate, hasked])
  | true =>
      exact Follows.passed (by simp [limitGate, hasked]) (quotaStage_follows p a identity resolved svc _ out)

theorem policyStage_follows :
    Follows (serviceGates p a identity resolved svc) w
      (policyStage p a.request identity resolved svc w out) := by
  by_cases hshed : Sentinel.shedAnonymous w.worker.posture ∧ identity = none
  · unfold policyStage
    rw [if_pos hshed]
    exact Follows.refused out (if_pos hshed)
  rcases policyStage_of_verdict p a.request svc out resolved hshed with ⟨herror, hok⟩
  refine Follows.passed (if_neg hshed) ?_
  -- From here on the tier has been written, also for the calls that are refused.
  cases hverdict : bodyVerdict p a.request resolved.validation with
  | error v =>
      rw [herror v hverdict]
      exact Follows.refused (tieredOut resolved out) (by simp [bodyGate, hverdict])
  | ok u =>
      rw [hok hverdict]
      refine Follows.passed (by simp [bodyGate, hverdict]) ?_
      by_cases hlogin : svc.requireAuth ∧ identity = none
      · rw [if_pos hlogin]
        exact Follows.refused (tieredOut resolved out) (if_pos hlogin)
      · rw [if_neg hlogin]
        exact Follows.passed (if_neg hlogin)
          (rateLimitStage_follows p a identity resolved svc w (tieredOut resolved out))

/-- The router refuses, finds no service, or sends the call to the gates of the service. -/
theorem routeStage_follows (w₀ : World)
    (hroute : Router.routeRequest p.matchit p.env w.worker.config w.worker.router
      (beforeFirst '?' a.request.path) identity = requestRoute p w₀ a) :
    (∀ status, requestRoute p w₀ a = .error status →
      routeStage p a.request identity w out = reject w out status) ∧
    (∀ resolved, requestRoute p w₀ a = .ok resolved → resolved.service = none →
      routeStage p a.request identity w out = reject w out 404) ∧
    ∀ resolved svc, requestRoute p w₀ a = .ok resolved → resolved.service = some svc →
      Follows (serviceGates p a identity resolved svc) w (routeStage p a.request identity w out) := by
  rcases routeStage_of_route out hroute with ⟨herror, hmissing, hfound⟩
  refine ⟨herror, hmissing, fun resolved svc hresolved hservice => ?_⟩
  rw [hfound resolved svc hresolved hservice]
  exact policyStage_follows p a identity resolved svc w out

end Stages

/-! ## The call as a whole -/

section Call

variable (p : Platform) (w : World) (a : Args) (out : OutBuffers)

/-- The gates behind the WAF, from the world the WAF leaves. -/
theorem afterWaf_follows {w₁ : World} (out' : OutBuffers)
    (hw₁ : w₁ = (wafGate p a).mark ((slotGate p).mark w)) :
    Follows
      (routeGate p a ::
        match requestService p w a with
        | none => []
        | some (resolved, svc) => serviceGates p a (requestIdentity p w a) resolved svc)
      w₁ (routeStage p a.request (requestIdentity p w a) ((routeGate p a).mark w₁) out') := by
  -- Neither the slot nor the WAF touches what the router reads.
  have hroute : requestRoute p w₁ a = requestRoute p w a := by
    subst hw₁
    rfl
  have hlater : Router.routeRequest p.matchit p.env ((routeGate p a).mark w₁).worker.config
      ((routeGate p a).mark w₁).worker.router (beforeFirst '?' a.request.path) (requestIdentity p w a) =
        requestRoute p w a := by
    subst hw₁
    rfl
  rcases routeStage_follows p a (requestIdentity p w a) ((routeGate p a).mark w₁) out' w hlater with
    ⟨herror, hmissing, hfound⟩
  cases hresolved : requestRoute p w a with
  | error status =>
      rw [herror status hresolved]
      refine Follows.refused out' ?_
      simp only [routeGate, hroute, hresolved]
  | ok resolved =>
      cases hservice : resolved.service with
      | none =>
          rw [hmissing resolved hresolved hservice]
          refine Follows.refused out' ?_
          simp only [routeGate, hroute, hresolved, hservice, if_true]
      | some svc =>
          refine Follows.passed ?_ ?_
          · simp only [routeGate, hroute, hresolved, hservice, reduceCtorEq, if_false]
          · have hfor : requestService p w a = some (resolved, svc) := by
              simp only [requestService, hresolved, hservice, Option.map_some]
            rw [hfor]
            exact hfound resolved svc hresolved hservice

/-- A call with a slot ends as its gates say. -/
theorem processRequest_follows
    (hslot : (Backpressure.acquire w.worker.config (w.globalState p) w.worker.inFlight).2 = true) :
    Follows (callGates p w a out) w (processRequest p w a out) := by
  refine Follows.passed (if_pos hslot) ?_
  by_cases hargs : a.authHeader = none ∨ a.path = none ∨ out.region = none
  · have hcall : processRequest p w a out = reject ((slotGate p).mark w) out 500 := by
      unfold processRequest
      rcases hacquire : Backpressure.acquire w.worker.config (w.globalState p) w.worker.inFlight with
        ⟨inFlight, admitted⟩
      rw [hacquire] at hslot
      have hadmitted : admitted = true := hslot
      subst hadmitted
      dsimp only [slotGate]
      rw [if_pos hargs, hacquire]
    rw [hcall]
    exact Follows.refused out (if_pos hargs)
  refine Follows.passed (if_neg hargs) ?_
  cases hinspected : (requestInspection p w a).2 with
  | block status reason =>
      rw [processRequest_of_blocked hslot hargs hinspected]
      refine Follows.refused (g := wafGate p a) (numberedOut w out) ?_
      have hsame : (requestInspection p ((slotGate p).mark w) a).2 = .block status reason := hinspected
      simp only [wafGate, pointerGate, hsame]
  | allow =>
      rw [processRequest_of_inspected hslot hargs hinspected]
      refine Follows.passed (g := wafGate p a) ?_ (afterWaf_follows p w a (numberedOut w out) rfl)
      have hsame : (requestInspection p ((slotGate p).mark w) a).2 = .allow := hinspected
      simp only [wafGate, pointerGate, hsame]

/-- A call without one changes nothing. -/
theorem processRequest_of_full
    (hslot : (Backpressure.acquire w.worker.config (w.globalState p) w.worker.inFlight).2 ≠ true) :
    processRequest p w a out = { world := w, out := out, status := 503 } := by
  have hgauge := Backpressure.acquire_fst w.worker.config (w.globalState p) w.worker.inFlight
  unfold processRequest
  rcases hacquire : Backpressure.acquire w.worker.config (w.globalState p) w.worker.inFlight with
    ⟨inFlight, admitted⟩
  rw [hacquire] at hslot hgauge
  have hadmitted : admitted = false := Bool.eq_false_iff.2 hslot
  subst hadmitted
  have hsame : inFlight = w.worker.inFlight := by simpa using hgauge
  subst hsame
  rfl

end Call

/-! ## Nobody sees the marks of others -/

section Blindness

variable (p : Platform) (w : World) (a : Args) (out : OutBuffers) (identity : Option UserIdentity)
  (resolved : Router.ResolvedRoute) (svc : ServiceConfig)

theorem forall_checkGates {P : Gate World Int → Prop} (hpointer : P (pointerGate a out))
    (hwaf : P (wafGate p a)) (hroute : P (routeGate p a)) : ∀ g ∈ checkGates p a out, P g := by
  unfold checkGates
  simp only [List.forall_mem_cons, List.not_mem_nil, false_implies, implies_true, and_true]
  exact ⟨hpointer, hwaf, hroute⟩

theorem forall_serviceGates {P : Gate World Int → Prop} (hshed : P (shedGate identity))
    (hbody : P (bodyGate p a resolved)) (hlogin : P (loginGate identity svc))
    (hlimit : P (limitGate p identity svc)) (hquota : P (quotaGate p a identity svc))
    (hselect : P (selectGate p a identity resolved svc)) :
    ∀ g ∈ serviceGates p a identity resolved svc, P g := by
  unfold serviceGates
  simp only [List.forall_mem_cons, List.not_mem_nil, false_implies, implies_true, and_true]
  exact ⟨hshed, hbody, hlogin, hlimit, hquota, hselect⟩

/-- What holds of the gates behind the slot, for whatever service the call is. -/
theorem forall_laterGates {P : Gate World Int → Prop} (hchecks : ∀ g ∈ checkGates p a out, P g)
    (hservice : ∀ identity resolved svc, ∀ g ∈ serviceGates p a identity resolved svc, P g) :
    ∀ g ∈ laterGates p w a out, P g := by
  intro g hg
  rcases List.mem_append.1 hg with hcheck | hlater
  · exact hchecks g hcheck
  · cases hfound : requestService p w a with
    | none =>
        rw [hfound] at hlater
        exact absurd hlater List.not_mem_nil
    | some found =>
        rw [hfound] at hlater
        exact hservice _ found.1 found.2 g hlater

theorem checkGates_blind : Gate.Blind (checkGates p a out) := by
  unfold Gate.Blind checkGates
  simp only [List.pairwise_cons, List.forall_mem_cons, List.not_mem_nil, false_implies, implies_true,
    List.Pairwise.nil, and_true]
  and_intros <;> exact fun _ => rfl

theorem serviceGates_blind : Gate.Blind (serviceGates p a identity resolved svc) := by
  unfold Gate.Blind serviceGates
  simp only [List.pairwise_cons, List.forall_mem_cons, List.not_mem_nil, false_implies, implies_true,
    List.Pairwise.nil, and_true]
  and_intros <;> exact fun _ => rfl

theorem checkGates_hidden :
    ∀ g ∈ checkGates p a out, ∀ h ∈ serviceGates p a identity resolved svc, Gate.Hidden g h := by
  apply forall_checkGates
  all_goals
    apply forall_serviceGates
    all_goals exact fun _ => rfl

theorem laterGates_blind : Gate.Blind (laterGates p w a out) := by
  unfold laterGates
  cases requestService p w a with
  | none =>
      rw [List.append_nil]
      exact checkGates_blind p a out
  | some found =>
      exact List.pairwise_append.2 ⟨checkGates_blind p a out, serviceGates_blind p a _ found.1 found.2,
        checkGates_hidden p a out _ found.1 found.2⟩

/-- The gauge is the business of the first gate alone. -/
theorem inFlight_laterGates :
    ∀ g ∈ laterGates p w a out, ∀ s, (g.mark s).worker.inFlight = s.worker.inFlight := by
  apply forall_laterGates
  · apply forall_checkGates
    all_goals exact fun _ => rfl
  · intro identity resolved svc
    apply forall_serviceGates
    all_goals exact fun _ => rfl

theorem slotGate_hidden : ∀ g ∈ laterGates p w a out, Gate.Hidden (slotGate p) g := by
  apply forall_laterGates
  · apply forall_checkGates
    all_goals exact fun _ => rfl
  · intro identity resolved svc
    apply forall_serviceGates
    all_goals exact fun _ => rfl

theorem callGates_blind : Gate.Blind (callGates p w a out) :=
  List.pairwise_cons.2 ⟨slotGate_hidden p w a out, laterGates_blind p w a out⟩

theorem inFlight_pass :
    (Gate.pass (callGates p w a out) w).1.worker.inFlight =
      (Backpressure.acquire w.worker.config (w.globalState p) w.worker.inFlight).1 :=
  @Gate.view_pass _ _ _ (fun w => w.worker.inFlight) [] _ (slotGate p) (callGates_blind p w a out)
    (fun _ h => absurd h List.not_mem_nil) (inFlight_laterGates p w a out)
    (fun _ h => absurd h List.not_mem_nil) w

end Blindness

/-! ## What a call leaves of the world -/

section View

variable {p : Platform} {w : World} {a : Args} {out : OutBuffers} {α : Type*} {view : World → α}

/-- What neither taking a slot nor giving it back changes is as the chain leaves it. -/
theorem view_call
    (hgauge : ∀ (w : World) n, view { w with worker := { w.worker with inFlight := n } } = view w) :
    view (processRequest p w a out).world = view (Gate.pass (callGates p w a out) w).1 := by
  by_cases hslot : (Backpressure.acquire w.worker.config (w.globalState p) w.worker.inFlight).2 = true
  · rw [(processRequest_follows p w a out hslot).world]
    split
    · rfl
    · exact hgauge _ _
  · have hrefused : (slotGate p).verdict w = some 503 := if_neg hslot
    rw [processRequest_of_full p w a out hslot]
    unfold callGates
    rw [Gate.pass_cons_of_refused _ hrefused]
    exact (hgauge w _).symm

/-- Where the gates of a call for a service are parted for one of them. -/
theorem view_call_at {front back : List (Gate World Int)} {g : Gate World Int}
    (hgauge : ∀ (w : World) n, view { w with worker := { w.worker with inFlight := n } } = view w)
    (hsplit : callGates p w a out = front ++ g :: back)
    (hfront : ∀ g' ∈ front, ∀ s, view (g'.mark s) = view s)
    (hback : ∀ g' ∈ back, ∀ s, view (g'.mark s) = view s)
    (hsame : ∀ g' ∈ front, ∀ s, view (g.mark (g'.mark s)) = view (g.mark s)) :
    view (processRequest p w a out).world =
      if Gate.firstRefusal front w = none then view (g.mark w) else view w := by
  have hblind := callGates_blind p w a out
  rw [hsplit] at hblind
  rw [view_call hgauge, hsplit]
  exact Gate.view_pass hblind hfront hback hsame w

/-- What no gate writes stays as it is. -/
theorem view_call_of_unwritten
    (hgauge : ∀ (w : World) n, view { w with worker := { w.worker with inFlight := n } } = view w)
    (hlater : ∀ g ∈ laterGates p w a out, ∀ s, view (g.mark s) = view s) :
    view (processRequest p w a out).world = view w := by
  rw [view_call hgauge, Gate.pass_of_blind (callGates_blind p w a out)]
  refine Gate.view_marks (fun g hg => ?_) w
  rcases List.mem_cons.1 (Gate.reached_subset _ w hg) with rfl | hmem
  · exact fun s => hgauge s _
  · exact hlater g hmem

/-- What the gates of a service alone write stays as it is when the call is for none. -/
theorem view_call_of_unserved
    (hgauge : ∀ (w : World) n, view { w with worker := { w.worker with inFlight := n } } = view w)
    (hchecks : ∀ g ∈ checkGates p a out, ∀ s, view (g.mark s) = view s)
    (hservice : requestService p w a = none) :
    view (processRequest p w a out).world = view w := by
  refine view_call_of_unwritten hgauge fun g hg => ?_
  unfold laterGates at hg
  rw [hservice, List.append_nil] at hg
  exact hchecks g hg

end View

/-! ## The answer -/

/-- Every call is judged on the world it arrives in: it is answered by the first gate that refuses it there,
and with 200 if none does.  The world it leaves carries the marks of the gates up to that one, one after the
other, and one more slot is taken exactly when no gate refuses. -/
theorem answered_by_first_refusal (p : Platform) (w : World) (a : Args) (out : OutBuffers) :
    let gates := callGates p w a out
    let left := Gate.marks (Gate.reached gates w) w
    (processRequest p w a out).status = (Gate.firstRefusal gates w).getD 200 ∧
      (processRequest p w a out).world =
        { left with
          worker := { left.worker with
            inFlight := w.worker.inFlight + if Gate.firstRefusal gates w = none then 1 else 0 } } := by
  dsimp only
  have hblind := Gate.pass_of_blind (callGates_blind p w a out) w
  have hgauge := inFlight_pass p w a out
  rw [Backpressure.acquire_fst] at hgauge
  by_cases hslot : (Backpressure.acquire w.worker.config (w.globalState p) w.worker.inFlight).2 = true
  · have hfollows := processRequest_follows p w a out hslot
    have hstatus := hfollows.status
    have hworld := hfollows.world
    rw [if_pos hslot] at hgauge
    rw [hblind] at hgauge hstatus hworld
    refine ⟨hstatus, ?_⟩
    rw [hworld]
    dsimp only at hgauge ⊢
    -- A refusal behind the slot gives the slot back.
    by_cases hpassed : Gate.firstRefusal (callGates p w a out) w = none
    · rw [if_pos hpassed, if_pos hpassed, ← hgauge]
    · rw [if_neg hpassed, if_neg hpassed]
      unfold World.release Backpressure.release
      rw [hgauge]
      simp only [add_sub_cancel_right, add_zero]
  · -- Refused at once: the first gate is the only one that was reached.
    have hrefused : (slotGate p).verdict w = some 503 := if_neg hslot
    rw [processRequest_of_full p w a out hslot]
    have hfirst : Gate.firstRefusal (callGates p w a out) w = some 503 := by
      unfold Gate.firstRefusal callGates
      rw [List.findSome?_cons, hrefused]
    have hreached : Gate.reached (callGates p w a out) w = [slotGate p] := by
      unfold callGates
      rw [Gate.reached_cons, hrefused]
      rfl
    rw [hfirst, hreached]
    exact ⟨rfl, by simp [Gate.marks, slotGate]⟩

end Gateway
end GatewayEdge
