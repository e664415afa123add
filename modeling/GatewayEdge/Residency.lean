import GatewayEdge.Gates

/-!
# Residency — whose region serves a request

The router names the region and the selector takes that name as the key of a pool.  An admitted request
is therefore served from the pool of its home region, or of the node's when it has no home.  The same
step is what the wildcard fails on: `GLOBAL` is a region a user may be at home in, and no pool need be
called so.
-/

namespace GatewayEdge
namespace Residency

open Auth (UserIdentity)
open Gateway
open Router (Matchit RouterTree currentRegion resolveRegion findService routeRequest)
open Selector (Usability Usable regionPool selectUpstream)

/-! ## The region a request is served from -/

/-- The home region; without one the node's own, and `US` on a node that has none. -/
def servingRegion (home : Option String) (node : String) : String :=
  match home with
  | some region => region
  | none => if node = "GLOBAL" then "US" else node

/-- A user's home agrees with the node, up to the wildcard on either side. -/
def Resident (home : Option String) (node : String) : Prop :=
  ∀ region, home = some region → region = node ∨ region = "GLOBAL" ∨ node = "GLOBAL"

theorem resolveRegion_eq_ok {home : Option String} {node region : String} :
    resolveRegion home node = .ok region ↔ Resident home node ∧ region = servingRegion home node := by
  cases home with
  | some r =>
      have hresident : Resident (some r) node ↔ r = node ∨ node = "GLOBAL" ∨ r = "GLOBAL" := by
        constructor
        · intro h
          rcases h r rfl with h | h | h
          · exact Or.inl h
          · exact Or.inr (Or.inr h)
          · exact Or.inr (Or.inl h)
        · rintro h region hregion
          cases hregion
          rcases h with h | h | h
          · exact Or.inl h
          · exact Or.inr (Or.inr h)
          · exact Or.inr (Or.inl h)
      rw [hresident]
      unfold resolveRegion servingRegion
      dsimp only
      by_cases hallowed : r = node ∨ node = "GLOBAL" ∨ r = "GLOBAL"
      · rw [if_pos hallowed]
        exact ⟨fun h => ⟨hallowed, (Except.ok.inj h).symm⟩, fun h => by rw [h.2]⟩
      · rw [if_neg hallowed]
        exact ⟨fun h => (by cases h), fun h => absurd h.1 hallowed⟩
  | none =>
      have hresident : Resident none node := fun _ h => by cases h
      -- Without a home the request stays where it arrived, which is always allowed.
      unfold resolveRegion servingRegion
      dsimp only
      by_cases hglobal : node = "GLOBAL"
      · rw [if_pos hglobal, if_pos (Or.inr (Or.inl hglobal))]
        exact ⟨fun h => ⟨hresident, (Except.ok.inj h).symm⟩, fun h => by rw [h.2]⟩
      · rw [if_neg hglobal, if_pos (Or.inl rfl)]
        exact ⟨fun h => ⟨hresident, (Except.ok.inj h).symm⟩, fun h => by rw [h.2]⟩

/-- What a resolved route says about service and region. -/
theorem routeRequest_eq_ok {matchit : Matchit} {env : EnvVars} {config : GatewayConfig}
    {router : RouterTree} {path : String} {identity : Option UserIdentity}
    {resolved : Router.ResolvedRoute}
    (h : routeRequest matchit env config router path identity = .ok resolved) :
    resolved.service = (findService matchit router path config).1 ∧
      Resident (identity.bind UserIdentity.homeRegion) (currentRegion env) ∧
      resolved.region = servingRegion (identity.bind UserIdentity.homeRegion) (currentRegion env) := by
  unfold routeRequest at h
  dsimp only at h
  cases hregion : resolveRegion (identity.bind UserIdentity.homeRegion) (currentRegion env) with
  | error status => simp [hregion] at h
  | ok region =>
      rw [hregion] at h
      cases h
      exact ⟨rfl, resolveRegion_eq_ok.1 hregion⟩

/-- A call that is routed to a service has matched a route, whose service and tier it is given. -/
theorem matched_route {p : Platform} {w : World} {a : Args} {resolved : Router.ResolvedRoute}
    {svc : ServiceConfig} (hrouted : requestRoute p w a = .ok resolved) (hservice : resolved.service = some svc) :
    ∃ route, p.matchit w.worker.router a.request.routePath = some route ∧
      w.worker.config.services.lookup route.serviceName = some svc ∧ resolved.tier = route.tier := by
  have hfound := (routeRequest_eq_ok hrouted).1
  have htier : resolved.tier =
      (findService p.matchit w.worker.router a.request.routePath w.worker.config).2.1 := by
    unfold requestRoute routeRequest at hrouted
    dsimp only at hrouted
    split at hrouted
    · cases hrouted
    · cases hrouted
      rfl
  rw [hservice] at hfound
  unfold findService at hfound htier
  cases hroute : p.matchit w.worker.router a.request.routePath with
  | none =>
      rw [hroute] at hfound
      cases hfound
  | some route =>
      rw [hroute] at hfound htier
      exact ⟨route, rfl, hfound.symm, htier⟩

/-- An admitted request goes to a member of the matched service's pool for its serving region, and a
user's home agrees with the node. -/
theorem admitted_upstream_in_region (p : Platform) (w : World) (a : Args) (out : OutBuffers)
    (h : (processRequest p w a out).status = 200) :
    let home := (requestIdentity p w a).bind UserIdentity.homeRegion
    let region := servingRegion home (currentRegion p.env)
    Resident home (currentRegion p.env) ∧
      ∃ svc addr pool,
        (findService p.matchit w.worker.router a.request.routePath w.worker.config).1 = some svc ∧
        Selected p a.request (requestIdentity p w a) svc region w out (processRequest p w a out) addr ∧
        svc.regionalUpstreams.lookup region = some pool ∧ ∃ up ∈ pool, up.address = addr := by
  intro home region
  rcases processRequest_gatesPassed h with ⟨resolved, svc, addr, hgates⟩
  rcases routeRequest_eq_ok hgates.routed with ⟨hservice, hresident, hregion⟩
  have hsel := hgates.selected
  rw [hregion] at hsel
  -- The selector answers with a member of the pool it looked up under that name.
  rcases (Selector.selectUpstream_served svc region _ _ _).member addr hsel.answer with
    ⟨up, hup, haddr, _⟩
  cases hlookup : svc.regionalUpstreams.lookup region with
  | none =>
      rw [regionPool, hlookup] at hup
      cases hup
  | some pool =>
      rw [regionPool, hlookup] at hup
      exact ⟨hresident, svc, addr, pool, hservice.symm.trans hgates.service, hsel, hlookup,
        up, hup, haddr⟩

/-- A request without an identity, on a US node. -/
theorem anonymous_served_at_node :
    (processRequest samplePlatform sampleWorld anonymousArgs anonymousOut).status = 200 ∧
    ∃ svc addr pool,
      (findService samplePlatform.matchit sampleWorld.worker.router "/a"
        sampleWorld.worker.config).1 = some svc ∧
      svc.regionalUpstreams.lookup "US" = some pool ∧ ∃ up ∈ pool, up.address = addr := by
  have hstatus : (processRequest samplePlatform sampleWorld anonymousArgs anonymousOut).status = 200 := by
    decide +kernel
  have hnode : servingRegion ((requestIdentity samplePlatform sampleWorld anonymousArgs).bind
      UserIdentity.homeRegion) (currentRegion samplePlatform.env) = "US" ∧
      anonymousArgs.request.routePath = "/a" := by
    decide
  rcases admitted_upstream_in_region samplePlatform sampleWorld anonymousArgs anonymousOut hstatus with
    ⟨_, svc, addr, pool, hsvc, _, hpool, hmember⟩
  rw [hnode.1] at hpool
  rw [hnode.2] at hsvc
  exact ⟨hstatus, svc, addr, pool, hsvc, hpool, hmember⟩

/-! ## The wildcard -/

/-- `route_request` followed by `select_upstream`. -/
def servedUpstream (ctx : Selector.Context) (matchit : Matchit) (env : EnvVars)
    (config : GatewayConfig) (router : RouterTree) (path : String) (identity : Option UserIdentity)
    (canaryHint : String) (u : Usability) : Option String :=
  match routeRequest matchit env config router path identity with
  | .error _ => none
  | .ok resolved =>
    match resolved.service with
    | none => none
    | some svc =>
      (selectUpstream ctx svc resolved.region (identity.map UserIdentity.userId) canaryHint u).2

section Wildcard

variable {ctx : Selector.Context} {matchit : Matchit} {env : EnvVars} {config : GatewayConfig}
  {router : RouterTree} {path : String} {identity : Option UserIdentity} {canaryHint : String}
  {u : Usability}

/-- A resident request is served as soon as the pool of its serving region has a usable member. -/
theorem servedUpstream_isSome_iff
    (hresident : Resident (identity.bind UserIdentity.homeRegion) (currentRegion env)) :
    (servedUpstream ctx matchit env config router path identity canaryHint u).isSome = true ↔
      ∃ svc, (findService matchit router path config).1 = some svc ∧
        ∃ up ∈ regionPool svc
          (servingRegion (identity.bind UserIdentity.homeRegion) (currentRegion env)),
          Usable ctx up.address u := by
  unfold servedUpstream
  cases hroute : routeRequest matchit env config router path identity with
  | error status =>
      -- Only a foreign region is refused.
      have hregion := resolveRegion_eq_ok.2 ⟨hresident, rfl⟩
      unfold routeRequest at hroute
      dsimp only at hroute
      rw [hregion] at hroute
      cases hroute
  | ok resolved =>
      rcases routeRequest_eq_ok hroute with ⟨hservice, _, hregion⟩
      rw [← hservice, ← hregion]
      dsimp only
      cases resolved.service with
      | none => simp
      | some svc =>
          dsimp only
          rw [Selector.selectUpstream_isSome_iff]
          constructor
          · intro hup
            exact ⟨svc, rfl, hup⟩
          · rintro ⟨svc', hsvc', hup⟩
            cases hsvc'
            exact hup

/-- A user at home in `GLOBAL` is served wherever an anonymous request is, if and only if the service has a
usable upstream in a pool of that name whenever the node's own pool has one.  The selector always gets the
memory for its ring here; what happens where it does not is the business of `Pick`. -/
theorem global_identity_served_iff (ctx : Selector.Context) (matchit : Matchit) (env : EnvVars)
    (config : GatewayConfig) (router : RouterTree) (path : String) (id : UserIdentity)
    (canaryHint : String) (u : Usability) (hglobal : id.homeRegion = some "GLOBAL") :
    ((servedUpstream ctx matchit env config router path none canaryHint u).isSome = true →
      (servedUpstream ctx matchit env config router path (some id) canaryHint u).isSome = true) ↔
    ∀ svc, (findService matchit router path config).1 = some svc →
      (∃ up ∈ regionPool svc (servingRegion none (currentRegion env)), Usable ctx up.address u) →
      ∃ up ∈ regionPool svc "GLOBAL", Usable ctx up.address u := by
  have hanonymous : Resident ((none : Option UserIdentity).bind UserIdentity.homeRegion)
      (currentRegion env) := fun _ h => by cases h
  have hwildcard : Resident ((some id).bind UserIdentity.homeRegion) (currentRegion env) := by
    intro region h
    have hregion : region = "GLOBAL" := Option.some.inj (h.symm.trans hglobal)
    exact Or.inr (Or.inl hregion)
  have hserving : servingRegion ((some id).bind UserIdentity.homeRegion) (currentRegion env) =
      "GLOBAL" := by
    rw [show (some id).bind UserIdentity.homeRegion = some "GLOBAL" from hglobal]
    rfl
  rw [servedUpstream_isSome_iff hanonymous, servedUpstream_isSome_iff hwildcard, hserving]
  constructor
  · intro h svc hsvc hlocal
    rcases h ⟨svc, hsvc, hlocal⟩ with ⟨svc', hsvc', hup⟩
    cases hsvc.symm.trans hsvc'
    exact hup
  · rintro h ⟨svc, hsvc, hlocal⟩
    exact ⟨svc, hsvc, h svc hsvc hlocal⟩

end Wildcard

/-- A user of no particular region. -/
def globalUser : UserIdentity := { userId := "alice", homeRegion := some "GLOBAL" }

/-- The selector of the sample node, on freshly mapped files. -/
def sampleServed (config : GatewayConfig) (identity : Option UserIdentity) : Option String :=
  servedUpstream (sampleWorld.selectContext samplePlatform) samplePlatform.matchit samplePlatform.env
    config (Router.updateRouter config) "/a" identity "" sampleWorld.usability

/-- On a US node that serves anonymous requests from its US pool, the user of no particular region gets
no upstream. -/
theorem global_user_not_served :
    (sampleServed sampleConfig none).isSome = true ∧
      ¬ (sampleServed sampleConfig (some globalUser)).isSome = true := by
  decide

/-- The same service with its upstream in a `GLOBAL` pool as well. -/
def globalPoolConfig : GatewayConfig :=
  { sampleConfig with
    services :=
      [("s",
        { name := "s"
          rateLimitMax := 0
          regionalUpstreams :=
            [("US", [{ name := "b", address := "b:80" }]),
              ("GLOBAL", [{ name := "b", address := "b:80" }])]
          requireAuth := false })] }

theorem global_user_served_from_global_pool :
    (sampleServed globalPoolConfig none).isSome = true ∧
      (sampleServed globalPoolConfig (some globalUser)).isSome = true := by
  have hanonymous : (sampleServed globalPoolConfig none).isSome = true := by decide
  refine ⟨hanonymous, (global_identity_served_iff _ _ _ _ _ _ globalUser _ _ rfl).2 ?_ hanonymous⟩
  intro svc hsvc hlocal
  have hfound : (findService samplePlatform.matchit (Router.updateRouter globalPoolConfig) "/a"
      globalPoolConfig).1 = globalPoolConfig.services.lookup "s" := by decide
  cases hfound.symm.trans hsvc
  exact hlocal

end Residency
end GatewayEdge
