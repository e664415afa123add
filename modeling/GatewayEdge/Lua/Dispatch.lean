import GatewayEdge.GatePipeline
import GatewayEdge.LoadShedding
import GatewayEdge.Lua.UpstreamHeaders
import GatewayEdge.Residency

/-!
# Lua.Dispatch — where an admitted request is sent

The data plane answers in three buffers of its worker, with the region, the upstream and the tier it has
chosen, and the bridge reads them back.  All requests of the worker share the buffers, and a refused request
may leave a tier behind; but whoever is admitted has written all three.
-/

namespace GatewayEdge
namespace Lua
namespace Dispatch

open Foundation
open Gateway (Platform World Args OutBuffers Outcome cStr writeCString processRequest requestRoute
  requestIdentity Selected reject tieredOut selectStage quotaStage rateLimitStage policyStage routeStage
  authStage wafStage)
open Identity (carried)
open Router (RouterTree ResolvedRoute updateRouter)

/-! ## The processes of a node -/

/-- A request between its access and its log phase, with the config it found. -/
structure Pending where
  vars : Vars
  ctx : Ctx
  config : GatewayConfig
  admitted : Bool

/-- A worker process. -/
structure Process where
  worker : Gateway.Worker
  bufs : ScratchBuffers
  pending : List Pending

/-- What a log phase has reported. -/
structure Report where
  request : Pending
  status : Int

/-- The upstream `report_telemetry` reads. -/
def Report.name (r : Report) : String := Gateway.strArg (some r.request.vars.targetUpstream)

/-- The workers of a node, the files they share, and the reports so far, newest first. -/
structure Node where
  clockMs : ℕ
  shm : Gateway.Shm
  quotaCounters : String → Int
  processes : ℕ → Process
  reports : List Report

/-- What the calls of one worker see and change. -/
def Node.world (s : Node) (v : ℕ) : World where
  clockMs := s.clockMs
  shm := s.shm
  worker := (s.processes v).worker
  quotaCounters := s.quotaCounters

/-- The routers of a worker are made by `update_router`. -/
def routed (worker : Gateway.Worker) (config : GatewayConfig) : Gateway.Worker :=
  { worker with router := updateRouter config }

def Process.fresh (worker : Gateway.Worker) (config : GatewayConfig) : Process where
  worker := routed worker config
  bufs := ScratchBuffers.fresh
  pending := []

/-- The access phase of a new request, the log phase of a pending one, a process that is replaced, and
anything else that goes on on the node. -/
inductive Event
  | access (v : ℕ) (req : ClientRequest) (headers : Headers)
  | log (v index : ℕ) (status : Int) (latencyUs : ℕ)
  | spawn (v : ℕ) (worker : Gateway.Worker) (config : GatewayConfig)
  | elsewhere (clockMs : ℕ) (shm : Gateway.Shm) (quotaCounters : String → Int) (workers : ℕ → Gateway.Worker)
      (configs : ℕ → GatewayConfig)

/-- Only the two phases write the breaker file. -/
def step (p : Platform) (s : Node) : Event → Option Node
  | .access v req headers =>
    let process := s.processes v
    let r := access p req headers (s.world v) process.bufs
    some
      { s with
        shm := r.world.shm
        quotaCounters := r.world.quotaCounters
        processes := Function.update s.processes v
          { worker := r.world.worker
            bufs := r.bufs
            pending := process.pending ++
              [{ vars := r.vars, ctx := r.logCtx, config := process.worker.config,
                 admitted := r.handoff.isExec }] } }
  -- The log phase of a request runs in the worker that has handed it on.
  | .log v index status latencyUs =>
    let process := s.processes v
    match process.pending[index]? with
    | none => none
    | some request =>
      let w := log p request.vars request.ctx status latencyUs (s.world v)
      some
        { s with
          shm := w.shm
          processes := Function.update s.processes v
            { process with worker := w.worker, pending := process.pending.eraseIdx index }
          reports := { request := request, status := status } :: s.reports }
  | .spawn v worker config =>
    some { s with processes := Function.update s.processes v (Process.fresh worker config) }
  | .elsewhere clockMs shm quotaCounters workers configs =>
    some
      { s with
        clockMs := clockMs
        shm := { shm with cb := s.shm.cb }
        quotaCounters := quotaCounters
        processes := fun v => { s.processes v with worker := routed (workers v) (configs v) } }

/-- A node that has served nothing, on a breaker file that has just been created. -/
def start (clockMs : ℕ) (shm : Gateway.Shm) (quotaCounters : String → Int) (workers : ℕ → Gateway.Worker)
    (configs : ℕ → GatewayConfig) : Node where
  clockMs := clockMs
  shm := { shm with cb := fun _ => {} }
  quotaCounters := quotaCounters
  processes := fun v => Process.fresh (workers v) (configs v)
  reports := []

/-! ## The buffers keep their sizes -/

/-- The three buffers are as long as before. -/
structure SameSizes (before after : OutBuffers) : Prop where
  region : after.region.map List.length = before.region.map List.length
  upstream : after.upstream.map List.length = before.upstream.map List.length
  tier : after.tier.map List.length = before.tier.map List.length

theorem map_length_writeCString (value : String) (buf : Option Bytes) :
    (writeCString value buf).map List.length = buf.map List.length := by
  cases buf with
  | none => rfl
  | some b =>
      by_cases hlen : 0 < b.length
      · have hwritten := Gateway.writeCString_of_pos (s := value) hlen
        rw [hwritten, Option.map_some, Option.map_some, Gateway.length_of_writeCString hlen hwritten]
      · have hempty : b = [] := List.eq_nil_of_length_eq_zero (Nat.eq_zero_of_not_pos hlen)
        rw [hempty]
        rfl

section Stages

variable {p : Platform} {req : Gateway.Request} {identity : Option Auth.UserIdentity}
  {service : ServiceConfig} {region : String} {w : World} {out : OutBuffers}

theorem SameSizes.refl (out : OutBuffers) : SameSizes out out := ⟨rfl, rfl, rfl⟩

theorem SameSizes.trans {a b c : OutBuffers} (h : SameSizes a b) (h' : SameSizes b c) : SameSizes a c :=
  ⟨h'.region.trans h.region, h'.upstream.trans h.upstream, h'.tier.trans h.tier⟩

theorem selectStage_sizes : SameSizes out (selectStage p req identity service region w out).out := by
  unfold selectStage
  dsimp only
  split
  · exact ⟨map_length_writeCString _ _, map_length_writeCString _ _, rfl⟩
  · exact SameSizes.refl out

theorem quotaStage_sizes : SameSizes out (quotaStage p req identity service region w out).out := by
  unfold quotaStage
  split
  · dsimp only
    split
    · exact selectStage_sizes
    · exact SameSizes.refl out
  · exact selectStage_sizes

theorem rateLimitStage_sizes : SameSizes out (rateLimitStage p req identity service region w out).out := by
  unfold rateLimitStage
  dsimp only
  split
  · exact quotaStage_sizes
  · exact SameSizes.refl out

theorem policyStage_sizes {resolved : ResolvedRoute} :
    SameSizes out (policyStage p req identity resolved service w out).out := by
  have htiered : SameSizes out (tieredOut resolved out) := ⟨rfl, rfl, map_length_writeCString _ _⟩
  unfold policyStage
  split
  · exact SameSizes.refl out
  · dsimp only
    split
    · exact htiered
    · split
      · exact htiered
      · exact htiered.trans rateLimitStage_sizes

theorem routeStage_sizes : SameSizes out (routeStage p req identity w out).out := by
  unfold routeStage
  split
  · exact SameSizes.refl out
  · split
    · exact SameSizes.refl out
    · exact policyStage_sizes

theorem wafStage_sizes : SameSizes out (wafStage p req w out).out := by
  have hnumbered : ∀ reqId, SameSizes out { out with reqId := reqId } := fun _ => ⟨rfl, rfl, rfl⟩
  unfold wafStage authStage
  dsimp only
  split
  · exact hnumbered _
  · exact (hnumbered _).trans routeStage_sizes

end Stages

theorem processRequest_sizes (p : Platform) (w : World) (a : Args) (out : OutBuffers) :
    SameSizes out (processRequest p w a out).out := by
  unfold processRequest
  split
  · exact SameSizes.refl out
  · dsimp only
    split
    · exact SameSizes.refl out
    · exact wafStage_sizes

/-- The three buffers have the sizes they were allocated with. -/
structure Sized (bufs : ScratchBuffers) : Prop where
  region : bufs.region.length = regionLen
  upstream : bufs.upstream.length = upstreamLen
  tier : bufs.tier.length = tierLen

theorem sized_fresh : Sized ScratchBuffers.fresh := ⟨List.length_replicate, List.length_replicate,
  List.length_replicate⟩

theorem length_getD_of_map {buf : Bytes} {written : Option Bytes}
    (h : written.map List.length = (some buf).map List.length) : (written.getD buf).length = buf.length := by
  cases written with
  | none => cases h
  | some b => exact Option.some.inj h

theorem sized_after {bufs : ScratchBuffers} (h : Sized bufs) (p : Platform) (w : World) (a : Args) :
    Sized (bufs.after (processRequest p w a bufs.out).out) := by
  have hsizes := processRequest_sizes p w a bufs.out
  exact
    { region := (length_getD_of_map hsizes.region).trans h.region
      upstream := (length_getD_of_map hsizes.upstream).trans h.upstream
      tier := (length_getD_of_map hsizes.tier).trans h.tier }

theorem sized_access {bufs : ScratchBuffers} (h : Sized bufs) (p : Platform) (req : ClientRequest)
    (headers : Headers) (w : World) : Sized (access p req headers w bufs).bufs := by
  unfold access
  split
  · exact ⟨h.region, h.upstream, h.tier⟩
  · rename_i cors responseHeaders _
    have hcors : Sized { bufs with cors := cors } := ⟨h.region, h.upstream, h.tier⟩
    unfold accessChecked
    dsimp only
    split
    · exact sized_after hcors p w (args req)
    · exact sized_after hcors p w (args req)

/-- Every process has buffers of these sizes. -/
def AllSized (s : Node) : Prop := ∀ v, Sized (s.processes v).bufs

theorem allSized_update {s : Node} (h : AllSized s) (v : ℕ) {process : Process} (hv : Sized process.bufs) :
    ∀ u, Sized (Function.update s.processes v process u).bufs :=
  (Function.forall_update_iff s.processes fun _ process => Sized process.bufs).2 ⟨hv, fun u _ => h u⟩

theorem allSized_step (p : Platform) (s : Node) (e : Event) (s' : Node) (h : AllSized s)
    (hs : step p s e = some s') : AllSized s' := by
  cases e with
  | access v req headers =>
      cases hs
      exact allSized_update h v (sized_access (h v) p req headers _)
  | log v index status latencyUs =>
      unfold step at hs
      dsimp only at hs
      split at hs
      · cases hs
      · cases hs
        exact allSized_update h v (h v)
  | spawn v worker config =>
      cases hs
      exact allSized_update h v sized_fresh
  | elsewhere clockMs shm quotaCounters workers configs =>
      cases hs
      exact h

/-! ## The tier a request leaves behind -/

section Tier

variable {p : Platform} {req : Gateway.Request} {identity : Option Auth.UserIdentity}
  {service : ServiceConfig} {region : String} {w : World} {out : OutBuffers}

theorem selectStage_tier : (selectStage p req identity service region w out).out.tier = out.tier := by
  unfold selectStage
  dsimp only
  split
  · rfl
  · rfl

theorem quotaStage_tier : (quotaStage p req identity service region w out).out.tier = out.tier := by
  unfold quotaStage
  split
  · dsimp only
    split
    · exact selectStage_tier
    · rfl
  · exact selectStage_tier

theorem rateLimitStage_tier : (rateLimitStage p req identity service region w out).out.tier = out.tier := by
  unfold rateLimitStage
  dsimp only
  split
  · exact quotaStage_tier
  · rfl

theorem policyStage_tier {resolved : ResolvedRoute}
    (h : (policyStage p req identity resolved service w out).status = 200) :
    (policyStage p req identity resolved service w out).out.tier = writeCString resolved.tier out.tier := by
  unfold policyStage at h ⊢
  split at h
  · exact absurd h (Gateway.reject_status (by decide))
  · rename_i hshed
    rw [if_neg hshed]
    dsimp only
    split
    · rfl
    · split
      · rfl
      · exact rateLimitStage_tier

theorem routeStage_tier {a : Args} {w₁ : World} {resolved : ResolvedRoute}
    (hsame : w₁.worker.config = w.worker.config ∧ w₁.worker.router = w.worker.router)
    (hroute : requestRoute p w a = .ok resolved)
    (h : (routeStage p a.request (requestIdentity p w a) w₁ out).status = 200) :
    (routeStage p a.request (requestIdentity p w a) w₁ out).out.tier = writeCString resolved.tier out.tier := by
  have hrouted : Router.routeRequest p.matchit p.env w₁.worker.config w₁.worker.router
      (beforeFirst '?' a.request.path) (requestIdentity p w a) = requestRoute p w a := by
    rw [hsame.1, hsame.2]
    rfl
  rcases Gateway.routeStage_of_route out hrouted with ⟨-, hmissing, hfound⟩
  cases hservice : resolved.service with
  | none =>
      rw [hmissing resolved hroute hservice] at h
      exact absurd h (Gateway.reject_status (by decide))
  | some svc =>
      rw [hfound resolved svc hroute hservice] at h ⊢
      exact policyStage_tier h

/-- An admitted request has written the tier of its own route. -/
theorem tier_of_admitted {a : Args} {resolved : ResolvedRoute}
    (h : (processRequest p w a out).status = 200) (hroute : requestRoute p w a = .ok resolved) :
    (processRequest p w a out).out.tier = writeCString resolved.tier out.tier := by
  rcases Gateway.processRequest_cases p w a out with
    hstatus | hstatus | ⟨status, reason, hblock, hstatus⟩ | ⟨hslot, hargs, hallow⟩
  · cases h.symm.trans hstatus
  · cases h.symm.trans hstatus
  · have hnot := Gateway.requestInspection_block hblock
    omega
  · rw [Gateway.processRequest_of_inspected hslot hargs hallow] at h ⊢
    exact routeStage_tier ⟨rfl, rfl⟩ hroute h

end Tier

/-! ## What the bridge reads back -/

/-- A buffer that has been written reads back as what it carries of the value. -/
theorem cStr_written {value : String} {buf : Bytes} {len : ℕ} (hlen : buf.length = len) (hpos : 0 < len) :
    cStr ((writeCString value (some buf)).getD buf) = carried len (some value) := by
  subst hlen
  have hwritten := Gateway.writeCString_of_pos (s := value) hpos
  have hread := Gateway.cStr_of_writeCString hpos hwritten
  rw [hwritten]
  exact hread

/-- What an admitted request is sent on with. -/
structure ReadBack (r : Access) (bufs : ScratchBuffers) : Prop where
  region : r.vars.targetRegion = cStr bufs.region
  upstream : r.vars.targetUpstream = cStr bufs.upstream
  tier : r.vars.targetTier = effectiveTier (cStr bufs.tier)
  handoff : r.handoff = .exec (bytes "@up_" ++ effectiveTier (cStr bufs.tier))

/-- The request is admitted exactly by a call that answers 200, and then its buffers are read back. -/
theorem access_admitted {p : Platform} {req : ClientRequest} {headers : Headers} {w : World}
    {bufs : ScratchBuffers} (hadmitted : (access p req headers w bufs).Admitted) :
    (processRequest p w (args req) bufs.out).status = 200 ∧
      ReadBack (access p req headers w bufs) (bufs.after (processRequest p w (args req) bufs.out).out) := by
  unfold access at hadmitted ⊢
  split at hadmitted
  · exact absurd hadmitted Bool.false_ne_true
  · rename_i cors responseHeaders hcors
    unfold accessChecked at hadmitted ⊢
    dsimp only at hadmitted ⊢
    have hout : ({ bufs with cors := cors } : ScratchBuffers).out = bufs.out := rfl
    rw [hout] at hadmitted ⊢
    split at hadmitted
    · exact absurd hadmitted Bool.false_ne_true
    · rename_i hstatus
      rw [if_neg hstatus]
      exact ⟨not_not.1 hstatus, ⟨rfl, rfl, rfl, rfl⟩⟩

/-! ## The tiers of a router -/

/-- A route has one of three tiers. -/
def IsTier (tier : String) : Prop := tier = "fast" ∨ tier = "normal" ∨ tier = "slow"

theorem isTier_effectiveTier (route : Route) : IsTier route.effectiveTier := by
  unfold Route.effectiveTier
  split
  · rename_i h
    rcases h with h | h
    · exact Or.inl h
    · exact Or.inr (Or.inr h)
  · exact Or.inr (Or.inl rfl)

/-- The region a call is served from: the home of its user, else the node's. -/
def servingRegion (p : Platform) (w : World) (a : Args) : String :=
  Residency.servingRegion ((requestIdentity p w a).bind Auth.UserIdentity.homeRegion)
    (Router.currentRegion p.env)

/-- A tier fits its buffer and is one of those the bridge knows. -/
theorem effectiveTier_carried {tier : String} (h : IsTier tier) :
    effectiveTier (carried tierLen (some tier)) = bytes tier := by
  rcases h with rfl | rfl | rfl
  · decide
  · decide
  · decide

/-- `Router::at` answers with something that was inserted. -/
def AnswersInserted (matchit : Router.Matchit) : Prop :=
  ∀ tree path routeMeta, matchit tree path = some routeMeta → ∃ pattern, (pattern, routeMeta) ∈ tree

/-- What is found in a router is one of the routes it was made from. -/
theorem route_of_found {matchit : Router.Matchit} (hmatchit : AnswersInserted matchit)
    {config : GatewayConfig} {path : String} {routeMeta : Router.RouteMeta}
    (h : matchit (updateRouter config) path = some routeMeta) :
    ∃ route ∈ config.routes, routeMeta.serviceName = route.serviceName ∧
      routeMeta.tier = route.effectiveTier := by
  rcases hmatchit _ _ _ h with ⟨pattern, hmem⟩
  rcases List.mem_flatMap.1 hmem with ⟨route, hroute, hentry⟩
  refine ⟨route, hroute, ?_⟩
  -- A route is inserted twice, for the prefix and for what lies below it.
  unfold Router.routeEntries at hentry
  rcases List.mem_pair.1 hentry with heq | heq
  · rw [(Prod.mk.inj heq).2]
    exact ⟨rfl, rfl⟩
  · rw [(Prod.mk.inj heq).2]
    exact ⟨rfl, rfl⟩

/-- The router of every process has been made from some config. -/
def RoutersMade (s : Node) : Prop := ∀ v, ∃ config, (s.processes v).worker.router = updateRouter config

theorem processRequest_router (p : Platform) (w : World) (a : Args) (out : OutBuffers) :
    (processRequest p w a out).world.worker.router = w.worker.router := by
  apply @Gateway.view_call_of_unwritten p w a out _ fun w => w.worker.router
  · exact fun _ _ => rfl
  · apply Gateway.forall_laterGates
    · apply Gateway.forall_checkGates
      all_goals exact fun _ => rfl
    · intro identity resolved svc
      apply Gateway.forall_serviceGates
      all_goals exact fun _ => rfl

theorem access_router (p : Platform) (req : ClientRequest) (headers : Headers) (w : World)
    (bufs : ScratchBuffers) : (access p req headers w bufs).world.worker.router = w.worker.router := by
  rcases access_cases p req headers w bufs with ⟨-, -, hworld, -⟩ | ⟨-, -, -, hworld, -⟩ | ⟨-, -, hworld, -⟩
  · rw [hworld]
  · rw [hworld, processRequest_router]
  · rw [hworld, processRequest_router]

theorem log_router (p : Platform) (vars : Vars) (ctx : Ctx) (status : Int) (latencyUs : ℕ) (w : World) :
    (log p vars ctx status latencyUs w).worker.router = w.worker.router := by
  have hreport : (Gateway.reportTelemetry p status latencyUs (some vars.targetUpstream) w).worker.router =
      w.worker.router := by
    unfold Gateway.reportTelemetry
    dsimp only
    split
    · split
      · rfl
      · rfl
    · split
      · rfl
      · rfl
  unfold log
  dsimp only
  split
  · exact hreport
  · exact hreport

theorem routersMade_update {s : Node} (h : RoutersMade s) (v : ℕ) {process : Process}
    (hv : ∃ config, process.worker.router = updateRouter config) :
    ∀ u, ∃ config, (Function.update s.processes v process u).worker.router = updateRouter config :=
  (Function.forall_update_iff s.processes
    fun _ process => ∃ config, process.worker.router = updateRouter config).2 ⟨hv, fun u _ => h u⟩

theorem routersMade_step (p : Platform) (s : Node) (e : Event) (s' : Node) (h : RoutersMade s)
    (hs : step p s e = some s') : RoutersMade s' := by
  cases e with
  | access v req headers =>
      cases hs
      refine routersMade_update h v ?_
      dsimp only
      rw [access_router]
      exact h v
  | log v index status latencyUs =>
      unfold step at hs
      dsimp only at hs
      split at hs
      · cases hs
      · cases hs
        refine routersMade_update h v ?_
        dsimp only
        rw [log_router]
        exact h v
  | spawn v worker config =>
      cases hs
      exact routersMade_update h v ⟨config, rfl⟩
  | elsewhere clockMs shm quotaCounters workers configs =>
      cases hs
      exact fun v => ⟨configs v, rfl⟩

/-! ## Every admitted request -/

/-- The request goes where the entry of the router that it matched, its region and the selector say. -/
structure Chosen (p : Platform) (w : World) (req : ClientRequest) (r : Access) (entry : Router.RouteMeta)
    (svc : ServiceConfig) (up : Upstream) : Prop where
  matched : p.matchit w.worker.router (args req).request.routePath = some entry
  service : w.worker.config.services.lookup entry.serviceName = some svc
  member : up ∈ Selector.regionPool svc (servingRegion p w (args req))
  usable : Selector.Usable (w.selectContext p) up.address w.usability
  location : r.handoff = .exec (bytes "@up_" ++ effectiveTier (carried tierLen (some entry.tier)))
  tier : r.vars.targetTier = effectiveTier (carried tierLen (some entry.tier))
  region : r.vars.targetRegion = carried regionLen (some (servingRegion p w (args req)))
  upstream : r.vars.targetUpstream = carried upstreamLen (some up.address)

theorem chosen_of_admitted {p : Platform} {req : ClientRequest} {headers : Headers} {w : World}
    {bufs : ScratchBuffers} (hsized : Sized bufs) (hadmitted : (access p req headers w bufs).Admitted) :
    ∃ entry svc up, Chosen p w req (access p req headers w bufs) entry svc up := by
  rcases access_admitted hadmitted with ⟨hstatus, hread⟩
  rcases Gateway.processRequest_gatesPassed hstatus with ⟨resolved, svc, addr, hgates⟩
  rcases Residency.matched_route hgates.routed hgates.service with ⟨entry, hmatched, hlookup, htier⟩
  have hregion : resolved.region = servingRegion p w (args req) :=
    (Residency.routeRequest_eq_ok hgates.routed).2.2
  rcases (Selector.selectUpstream_served svc resolved.region _ _ _).member addr hgates.selected.answer with
    ⟨up, hup, rfl, husable⟩
  rw [hregion] at hup
  -- All three buffers have been written by this very request.
  have hwrittenTier : cStr (bufs.after (processRequest p w (args req) bufs.out).out).tier =
      carried tierLen (some entry.tier) := by
    unfold ScratchBuffers.after
    dsimp only
    rw [tier_of_admitted hstatus hgates.routed, htier]
    exact cStr_written hsized.tier (by decide)
  have hwrittenRegion : cStr (bufs.after (processRequest p w (args req) bufs.out).out).region =
      carried regionLen (some (servingRegion p w (args req))) := by
    unfold ScratchBuffers.after
    dsimp only
    rw [hgates.selected.region, hregion]
    exact cStr_written hsized.region (by decide)
  have hwrittenUpstream : cStr (bufs.after (processRequest p w (args req) bufs.out).out).upstream =
      carried upstreamLen (some up.address) := by
    unfold ScratchBuffers.after
    dsimp only
    rw [hgates.selected.upstream]
    exact cStr_written hsized.upstream (by decide)
  refine ⟨entry, svc, up, ?_⟩
  exact
    { matched := hmatched
      service := hlookup
      member := hup
      usable := husable
      location := by rw [hread.handoff, hwrittenTier]
      tier := by rw [hread.tier, hwrittenTier]
      region := hread.region.trans hwrittenRegion
      upstream := hread.upstream.trans hwrittenUpstream }

/-- The entry comes from a route of the config the router was made from, and the tier is the route's. -/
structure Dispatched (p : Platform) (w : World) (req : ClientRequest) (r : Access) (route : Route)
    (svc : ServiceConfig) (up : Upstream) : Prop where
  routed : ∃ config, w.worker.router = updateRouter config ∧ route ∈ config.routes
  chosen : ∃ entry, Chosen p w req r entry svc up ∧ entry.serviceName = route.serviceName ∧
    entry.tier = route.effectiveTier
  location : r.handoff = .exec (bytes "@up_" ++ bytes route.effectiveTier)
  tier : r.vars.targetTier = bytes route.effectiveTier

theorem Chosen.dispatched {p : Platform} (hmatchit : AnswersInserted p.matchit) {req : ClientRequest}
    {w : World} {r : Access} {entry : Router.RouteMeta} {svc : ServiceConfig} {up : Upstream}
    (h : Chosen p w req r entry svc up) (hmade : ∃ config, w.worker.router = updateRouter config) :
    ∃ route, Dispatched p w req r route svc up := by
  rcases hmade with ⟨config, hrouter⟩
  have hmatched := h.matched
  rw [hrouter] at hmatched
  rcases route_of_found hmatchit hmatched with ⟨route, hroute, hname, heffective⟩
  have hcarried : effectiveTier (carried tierLen (some entry.tier)) = bytes route.effectiveTier := by
    rw [heffective]
    exact effectiveTier_carried (isTier_effectiveTier route)
  refine ⟨route, ?_⟩
  exact
    { routed := ⟨config, hrouter, hroute⟩
      chosen := ⟨entry, h, hname, heffective⟩
      location := by rw [h.location, hcarried]
      tier := by rw [h.tier, hcarried] }

/-- In every run of a node, whatever earlier requests have left in the buffers of a worker: a request that is
admitted is handed to the location of the tier of its own route, with the region it is served from and the
upstream chosen for it, a usable member of the pool of its service. -/
theorem handed_over_as_routed {p : Platform} (hmatchit : AnswersInserted p.matchit) {clockMs : ℕ}
    {shm : Gateway.Shm} {quotaCounters : String → Int} {workers : ℕ → Gateway.Worker}
    {configs : ℕ → GatewayConfig} {es : List Event} {s : Node}
    (hrun : run (step p) (start clockMs shm quotaCounters workers configs) es = some s) (v : ℕ)
    (req : ClientRequest) (headers : Headers)
    (hadmitted : (access p req headers (s.world v) (s.processes v).bufs).Admitted) :
    ∃ route svc up, Dispatched p (s.world v) req (access p req headers (s.world v) (s.processes v).bufs)
      route svc up := by
  have hsized := invariant_run (allSized_step p) (fun _ => sized_fresh) hrun v
  have hmade := invariant_run (routersMade_step p) (fun v => ⟨configs v, rfl⟩) hrun v
  rcases chosen_of_admitted hsized hadmitted with ⟨entry, svc, up, hchosen⟩
  rcases hchosen.dispatched hmatchit hmade with ⟨route, hdispatched⟩
  exact ⟨route, svc, up, hdispatched⟩

/-- A route for long-running requests beside one that names no tier. -/
def tieredConfig : GatewayConfig :=
  { Gateway.sampleConfig with
    routes :=
      [{ pathPrefix := "/a", serviceName := "s" },
        { pathPrefix := "/slow", serviceName := "s", tier := "slow" }] }

def tieredNode : Node :=
  start 1700000000000 Gateway.sampleWorld.shm (fun _ => 0)
    (fun _ => { Gateway.sampleWorld.worker with config := tieredConfig }) fun _ => tieredConfig

def slowRequest : ClientRequest := { sampleRequest none with requestUri := some (bytes "/slow") }

theorem sample_answersInserted : AnswersInserted Gateway.samplePlatform.matchit :=
  fun _ path _ h => ⟨path, Lru.mem_of_lookup h⟩

/-- A request behind a slow one of the same worker goes to the tier of its own route. -/
theorem normal_behind_slow : ∃ s,
    run (step Gateway.samplePlatform) tieredNode [.access 0 slowRequest fun _ => none] = some s ∧
    ∃ route svc up, Dispatched Gateway.samplePlatform (s.world 0) (sampleRequest none)
      (access Gateway.samplePlatform (sampleRequest none) (fun _ => none) (s.world 0) (s.processes 0).bufs)
      route svc up := by
  have hlaw : ∀ s, run (step Gateway.samplePlatform) tieredNode [.access 0 slowRequest fun _ => none] = some s →
      (access Gateway.samplePlatform (sampleRequest none) (fun _ => none) (s.world 0)
        (s.processes 0).bufs).Admitted → _ :=
    fun s hrun => handed_over_as_routed sample_answersInserted hrun 0 (sampleRequest none) fun _ => none
  refine ⟨_, rfl, hlaw _ rfl ?_⟩
  decide +kernel

end Dispatch
end Lua
end GatewayEdge
