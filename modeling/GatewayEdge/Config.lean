import GatewayEdge.Validate
import Mathlib.Order.Lattice

/-!
# Config — the distributed gateway configuration

The data types of the config file and the environment switches the hot path reads.  A `HashMap`
is an association list: only look-ups and, for the prober, enumeration are used of it.
-/

namespace GatewayEdge

open Foundation

structure Upstream where
  name : String
  address : String
  weight : Nat := 0
  /-- Version label for canary routing. -/
  version : String := ""
  deriving DecidableEq, Repr

structure CanaryPolicy where
  version : String
  percent : Nat := 0
  deriving DecidableEq, Repr

def CanaryPolicy.effectivePercent (p : CanaryPolicy) : Nat := min p.percent 100

structure Route where
  pathPrefix : String
  serviceName : String
  stripPrefix : Bool := false
  tier : String := ""
  validation : Option ValidationConfig := none
  deriving DecidableEq, Repr

/-- Anything but "fast" and "slow" is the "normal" tier. -/
def Route.effectiveTier (r : Route) : String :=
  if r.tier = "fast" ∨ r.tier = "slow" then r.tier else "normal"

structure QuotaPolicy where
  dailyLimit : Nat
  borrowPercent : Nat := 0
  deriving DecidableEq, Repr

structure ServiceConfig where
  name : String
  rateLimitMax : Nat
  regionalUpstreams : List (String × List Upstream)
  requireAuth : Bool
  canary : Option CanaryPolicy := none
  quota : Option QuotaPolicy := none
  deriving DecidableEq, Repr

structure CorsConfig where
  allowedOrigins : List String := []
  allowCredentials : Bool := true
  allowedMethods : String := "GET, POST, PUT, PATCH, DELETE, OPTIONS"
  allowedHeaders : String :=
    "Content-Type, Authorization, X-Requested-With, Accept, Origin, X-CSRF-Token, X-Canary, X-Request-ID, traceparent"
  maxAge : Nat := 600
  deriving DecidableEq, Repr

structure HealthCheckConfig where
  enabled : Bool := true
  path : String := "/health"
  intervalSecs : Nat := 10
  timeoutMs : Nat := 2000
  unhealthyThreshold : Nat := 3
  healthyThreshold : Nat := 2
  deriving DecidableEq, Repr

structure GatewayConfig where
  version : String := "v0"
  globalMaxConcurrency : Nat := 10000
  jwtSecret : String := "default_secret"
  /-- `kid` → HMAC secret. -/
  jwtKeys : List (String × String) := []
  expectedIssuer : String := "api-gateway-auth-server"
  expectedAudience : String := "api-gateway-clients"
  services : List (String × ServiceConfig) := []
  routes : List Route := []
  healthCheck : Option HealthCheckConfig := none
  cors : Option CorsConfig := none
  deriving DecidableEq, Repr

/-! ## The process environment -/

/-- `std::env::var`. -/
abbrev EnvVars := String → Option String

namespace EnvVars

/-- `"1"` or, in any case, `"true"`; unset means off. -/
def flag (env : EnvVars) (name : String) : Bool :=
  match env name with
  | some v => v == "1" || eqIgnoreAsciiCase v "true"
  | none => false

/-- A `u64` setting clamped to a range, with its default when unset or unparsable. -/
def clamped (env : EnvVars) (name : String) (lo hi dflt : Nat) : Nat :=
  match (env name).bind (parseUnsigned 64) with
  | some v => max lo (min v hi)
  | none => dflt

/-- Every clamped setting whose default is in range is in range. -/
theorem clamped_mem (env : EnvVars) (name : String) {lo hi dflt : Nat} (hlo : lo ≤ dflt)
    (hhi : dflt ≤ hi) : lo ≤ env.clamped name lo hi dflt ∧ env.clamped name lo hi dflt ≤ hi := by
  unfold clamped
  cases (env name).bind (parseUnsigned 64) with
  | none => exact ⟨hlo, hhi⟩
  | some v => exact ⟨le_max_left _ _, max_le (le_trans hlo hhi) (min_le_right _ _)⟩

end EnvVars

end GatewayEdge
