import GatewayEdge.Auth

/-!
# Router — path to service, and data residency

The radix tree is a library: a router is the sequence of `(pattern, meta)` insertions it was
built by, and `Matchit` answers look-ups on such a sequence (a conflicting insertion is ignored by
the code, so what it does to later look-ups is part of that answer).
-/

namespace GatewayEdge
namespace Router

open Auth (UserIdentity)
open Foundation

structure RouteMeta where
  serviceName : String
  tier : String
  validation : Option ValidationConfig
  deriving DecidableEq, Repr

/-- The insertions a router was built by, in order. -/
abbrev RouterTree := List (String × RouteMeta)

/-- `Router::at`. -/
abbrev Matchit := RouterTree → String → Option RouteMeta

/-- `GATEWAY_REGION`, default `US`. -/
def currentRegion (env : EnvVars) : String := (env "GATEWAY_REGION").getD "US"

/-- The two insertions of one route: the catch-all below its prefix, and the prefix itself. -/
def routeEntries (route : Route) : RouterTree :=
  let routeMeta : RouteMeta :=
    { serviceName := route.serviceName, tier := route.effectiveTier, validation := route.validation }
  let path :=
    if route.pathPrefix.toList.getLast? = some '/' then route.pathPrefix ++ "*path"
    else route.pathPrefix ++ "/*path"
  [(path, routeMeta), (route.pathPrefix, routeMeta)]

def updateRouter (config : GatewayConfig) : RouterTree := config.routes.flatMap routeEntries

structure ResolvedRoute where
  service : Option ServiceConfig
  region : String
  tier : String
  validation : Option ValidationConfig
  deriving DecidableEq, Repr

/-- `resolve_region`: `GLOBAL` is a wildcard on either side. -/
def resolveRegion (identityRegion : Option String) (current : String) : Except Int String :=
  let required := match identityRegion with
    | some r => r
    -- Without a home region the request stays where it arrived.
    | none => if current = "GLOBAL" then "US" else current
  if required = current ∨ current = "GLOBAL" ∨ required = "GLOBAL" then .ok required
  else .error 403

/-- `find_service`: service, tier and validation policy of a path. -/
def findService (matchit : Matchit) (router : RouterTree) (path : String)
    (config : GatewayConfig) : Option ServiceConfig × String × Option ValidationConfig :=
  match matchit router path with
  | some routeMeta =>
    (config.services.lookup routeMeta.serviceName, routeMeta.tier, routeMeta.validation)
  | none => (none, "normal", none)

def routeRequest (matchit : Matchit) (env : EnvVars) (config : GatewayConfig)
    (router : RouterTree) (path : String) (identity : Option UserIdentity) :
    Except Int ResolvedRoute :=
  let (service, tier, validation) := findService matchit router path config
  -- Residency is decided even when no service matches, so a 403 may hide a 404.
  match resolveRegion (identity.bind UserIdentity.homeRegion) (currentRegion env) with
  | .error status => .error status
  | .ok region =>
    .ok { service := service, region := region, tier := tier, validation := validation }

/-- A service that is found is one of the config's. -/
theorem findService_mem {matchit : Matchit} {router : RouterTree} {path : String}
    {config : GatewayConfig} {svc : ServiceConfig}
    (h : (findService matchit router path config).1 = some svc) :
    ∃ name, (name, svc) ∈ config.services := by
  unfold findService at h
  cases hm : matchit router path with
  | none => simp [hm] at h
  | some routeMeta => exact ⟨_, Lru.mem_of_lookup (by simpa [hm] using h)⟩

theorem resolveRegion_error {identityRegion : Option String} {current : String} {status : Int}
    (h : resolveRegion identityRegion current = .error status) : status = 403 := by
  unfold resolveRegion at h
  dsimp only at h
  generalize (match identityRegion with
    | some r => r
    | none => if current = "GLOBAL" then "US" else current) = required at h
  by_cases hallowed : required = current ∨ current = "GLOBAL" ∨ required = "GLOBAL"
  · simp [hallowed] at h
  · simpa [hallowed] using h.symm

theorem routeRequest_error {matchit : Matchit} {env : EnvVars} {config : GatewayConfig}
    {router : RouterTree} {path : String} {identity : Option UserIdentity} {status : Int}
    (h : routeRequest matchit env config router path identity = .error status) : status = 403 := by
  unfold routeRequest at h
  dsimp only at h
  cases hr : resolveRegion (identity.bind UserIdentity.homeRegion) (currentRegion env) with
  | ok region => simp [hr] at h
  | error code =>
      have hcode : code = status := by simpa [hr] using h
      exact hcode ▸ resolveRegion_error hr

end Router
end GatewayEdge
