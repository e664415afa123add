import GatewayEdge.Backpressure
import GatewayEdge.LoadBalancing.Selector
import GatewayEdge.Quota
import GatewayEdge.RateLimit
import GatewayEdge.Router
import GatewayEdge.Telemetry
import GatewayEdge.Waf

/-!
# ProcessRequest — the hot path of one worker

`processRequest` runs the gates in the order of the source.  Each gate is a stage that either
rejects, giving the backpressure slot back, or hands over to the next one.  A call is one atomic
step of its worker: it reads the clock once, and Redis answers it as `quotaIo` says.
-/

namespace GatewayEdge
namespace Gateway

open Auth (UserIdentity)
open Foundation

/-! ## The state a worker works on -/

/-- The library functions and the process environment, fixed for a run. -/
structure Platform where
  fxHash : String → Nat
  crypto : Auth.Crypto
  matchit : Router.Matchit
  parseJson : String → Option Json
  env : EnvVars

/-- The mapped files, shared by the workers of a node. -/
structure Shm where
  cb : CircuitBreaker.Shm
  health : Health.Shm
  rateLimit : Nat → Nat
  waf : Waf.Shm
  telemetry : Telemetry.Metrics

/-- The statics of one worker process. -/
structure Worker where
  pid : Nat
  inFlight : Int
  requestCounter : Nat
  tokenCache : Auth.TokenCache
  ema : Selector.EmaTable
  rlTx : Option (List RateLimit.SyncMsg)
  config : GatewayConfig
  router : Router.RouterTree
  snapshot : Revocation.RevocationSnapshot
  posture : Nat
  quotaConnected : Bool

/-- One worker, the files it shares, the fleet's quota counters and the clock. -/
structure World where
  clockMs : Nat
  shm : Shm
  worker : Worker
  quotaCounters : String → Int

namespace World

def nowSecs (w : World) : Nat := w.clockMs / 1000

def globalState (p : Platform) (w : World) : Nat := CircuitBreaker.globalState p.fxHash w.shm.cb

/-- `release_slot` / `backpressure::release`. -/
def release (w : World) : World :=
  { w with worker := { w.worker with inFlight := Backpressure.release w.worker.inFlight } }

def wafContext (p : Platform) (w : World) : Waf.Context where
  fxHash := p.fxHash
  env := p.env
  now := w.nowSecs
  posture := w.worker.posture

def selectContext (p : Platform) (w : World) : Selector.Context where
  fxHash := p.fxHash
  now := w.nowSecs
  ema := w.worker.ema

def usability (w : World) : Selector.Usability := { cb := w.shm.cb, health := w.shm.health }

end World

/-! ## Crossing the C boundary -/

/-- The arguments of one call: NUL-terminated strings or NULL, and the length-delimited body. -/
structure Args where
  authHeader : Option Bytes
  path : Option Bytes
  userAgent : Option Bytes
  body : Option Bytes
  clientIp : Option Bytes
  canaryHint : Option Bytes
  contentType : Option Bytes
  /-- What Redis does to the quota check of this call, if it gets that far. -/
  quotaIo : List Quota.Attempt

/-- The caller's output buffers, `none` for NULL. -/
structure OutBuffers where
  region : Option Bytes
  upstream : Option Bytes
  reqId : Option Bytes
  userId : Option Bytes
  homeRegion : Option Bytes
  tier : Option Bytes

/-- The bytes of a C string: everything before the first NUL. -/
def cStr (buf : Bytes) : Bytes := buf.takeWhile (· ≠ 0)

/-- `from_utf8(CStr::from_ptr(p).to_bytes()).unwrap_or("")`, and `""` for NULL. -/
def strArg (arg : Option Bytes) : String :=
  match arg with
  | some bytes => (fromUtf8 (cStr bytes)).getD ""
  | none => ""

/-- `write_c_string`: at most `len - 1` bytes and a NUL; the rest of the buffer keeps its bytes. -/
def writeCString (s : String) (buf : Option Bytes) : Option Bytes :=
  buf.map fun b =>
    if b.length = 0 then b
    else
      let copyLen := min (strBytes s).length (b.length - 1)
      (strBytes s).take copyLen ++ [0] ++ b.drop (copyLen + 1)

/-- The arguments as the gates see them. -/
structure Request where
  authHeader : String
  path : String
  userAgent : String
  body : String
  clientIp : String
  canaryHint : String
  contentType : String
  quotaIo : List Quota.Attempt

def Args.request (a : Args) : Request where
  authHeader := strArg a.authHeader
  path := strArg a.path
  userAgent := strArg a.userAgent
  body := (a.body.map fromUtf8Lossy).getD ""
  clientIp := strArg a.clientIp
  canaryHint := strArg a.canaryHint
  contentType := strArg a.contentType
  quotaIo := a.quotaIo

/-- What a call leaves behind: the world, the buffers and the status returned. -/
structure Outcome where
  world : World
  out : OutBuffers
  status : Int

/-- Give the slot back and return the status. -/
def reject (w : World) (out : OutBuffers) (status : Int) : Outcome :=
  { world := w.release, out := out, status := status }

/-! ## The gates, last one first -/

/-- The buffers an admitted request fills. The identity buffers are written only when the request
has the respective value. -/
def writeAdmission (out : OutBuffers) (identity : Option UserIdentity) (region upstream : String) :
    OutBuffers :=
  { out with
    region := writeCString region out.region
    upstream := writeCString upstream out.upstream
    userId := match identity with
      | some id => writeCString id.userId out.userId
      | none => out.userId
    homeRegion := match identity.bind UserIdentity.homeRegion with
      | some home => writeCString home out.homeRegion
      | none => out.homeRegion }

/-- 6. Load balancing. -/
def selectStage (p : Platform) (req : Request) (identity : Option UserIdentity)
    (service : ServiceConfig) (region : String) (w : World) (out : OutBuffers) : Outcome :=
  match Selector.selectUpstream (w.selectContext p) service region
      (identity.map UserIdentity.userId) req.canaryHint w.usability with
  | (u, answer) =>
    -- Asking which addresses are usable has moved breaker slots, whatever the answer.
    let w := { w with shm := { w.shm with cb := u.cb, health := u.health } }
    match answer with
    | some upstream =>
      { world := w, out := writeAdmission out identity region upstream, status := 200 }
    | none => reject w out 503

/-- 5b. Per-user daily quota, for an identity and a service that has a policy. -/
def quotaStage (p : Platform) (req : Request) (identity : Option UserIdentity)
    (service : ServiceConfig) (region : String) (w : World) (out : OutBuffers) : Outcome :=
  match identity, service.quota with
  | some id, some policy =>
    let s : Quota.State := { counters := w.quotaCounters, connected := w.worker.quotaConnected }
    match Quota.checkQuota p.crypto.sha256 w.nowSecs service.name id.userId policy req.quotaIo s with
    | (s, ok) =>
      let w := { w with
        quotaCounters := s.counters, worker := { w.worker with quotaConnected := s.connected } }
      if ok then selectStage p req identity service region w out else reject w out 429
  -- No identity or no policy: nothing is counted.
  | _, _ => selectStage p req identity service region w out

/-- 5. Per-user rate limiting. -/
def rateLimitStage (p : Platform) (req : Request) (identity : Option UserIdentity)
    (service : ServiceConfig) (region : String) (w : World) (out : OutBuffers) : Outcome :=
  match RateLimit.checkRateLimit p.fxHash p.env w.nowSecs service.rateLimitMax
      (identity.map UserIdentity.userId) { shm := w.shm.rateLimit, tx := w.worker.rlTx } with
  | (s, ok) =>
    let w := { w with
      shm := { w.shm with rateLimit := s.shm }, worker := { w.worker with rlTx := s.tx } }
    if ok then quotaStage p req identity service region w out else reject w out 429

/-- 4a. Sentinel shedding, the tier buffer, 4b. body validation, 4. auth enforcement. -/
def policyStage (p : Platform) (req : Request) (identity : Option UserIdentity)
    (resolved : Router.ResolvedRoute) (service : ServiceConfig) (w : World) (out : OutBuffers) :
    Outcome :=
  if Sentinel.shedAnonymous w.worker.posture ∧ identity = none then reject w out 503
  else
    -- Written before the checks below, so a rejected request may leave a tier behind.
    let out := { out with tier := writeCString resolved.tier out.tier }
    let verdict := match resolved.validation with
      | some policy => validateBody p.parseJson policy req.contentType req.body
      | none => .ok ()
    match verdict with
    | .error v => reject w out v.response.1
    | .ok () =>
      if service.requireAuth ∧ identity = none then reject w out 401
      else rateLimitStage p req identity service resolved.region w out

/-- 3. Routing on the path without its query string. -/
def routeStage (p : Platform) (req : Request) (identity : Option UserIdentity) (w : World)
    (out : OutBuffers) : Outcome :=
  match Router.routeRequest p.matchit p.env w.worker.config w.worker.router
      (beforeFirst '?' req.path) identity with
  | .error status => reject w out status
  | .ok resolved =>
    match resolved.service with
    | none => reject w out 404
    | some service => policyStage p req identity resolved service w out

/-- 2. The token, if any. -/
def authStage (p : Platform) (req : Request) (w : World) (out : OutBuffers) : Outcome :=
  match Auth.validateToken p.crypto p.env w.worker.config w.worker.snapshot w.clockMs
      req.authHeader w.worker.tokenCache with
  | (cache, identity) =>
    routeStage p req identity { w with worker := { w.worker with tokenCache := cache } } out

/-- `{:08x}{:016x}` of the process id and the counter. -/
def formatRequestId (pid counter : Nat) : String := String.ofList (toHex 8 pid ++ toHex 16 counter)

/-- The request id, then 1. the WAF. -/
def wafStage (p : Platform) (req : Request) (w : World) (out : OutBuffers) : Outcome :=
  let out := { out with
    reqId := writeCString (formatRequestId w.worker.pid w.worker.requestCounter) out.reqId }
  let w := { w with
    worker := { w.worker with requestCounter := (w.worker.requestCounter + 1) % 2 ^ 64 } }
  match Waf.inspect (w.wafContext p) req.path req.authHeader req.userAgent req.body req.clientIp
      w.shm.waf with
  | (waf, .block status _) => reject { w with shm := { w.shm with waf := waf } } out status
  | (waf, .allow) => authStage p req { w with shm := { w.shm with waf := waf } } out

/-- `process_request`. -/
def processRequest (p : Platform) (w : World) (a : Args) (out : OutBuffers) : Outcome :=
  match Backpressure.acquire w.worker.config (w.globalState p) w.worker.inFlight with
  | (inFlight, false) =>
    { world := { w with worker := { w.worker with inFlight := inFlight } }, out := out, status := 503 }
  | (inFlight, true) =>
    let w := { w with worker := { w.worker with inFlight := inFlight } }
    -- The three pointers that must not be NULL.
    if a.authHeader = none ∨ a.path = none ∨ out.region = none then reject w out 500
    else wafStage p a.request w out

/-- `report_telemetry`: counters, then the breaker slots and the latency average of the upstream. -/
def reportTelemetry (p : Platform) (status : Int) (latencyUs : Nat) (upstream : Option Bytes)
    (w : World) : World :=
  let w := { w with
    shm := { w.shm with telemetry := Telemetry.recordRequest status latencyUs w.shm.telemetry } }
  let upstream := strArg upstream
  if upstream ≠ "" then
    let w := { w with
      worker := { w.worker with
        ema := Selector.recordUpstreamLatency upstream latencyUs w.worker.ema } }
    if 500 ≤ status then
      { w with
        shm := { w.shm with
          cb := CircuitBreaker.recordFailureFor p.fxHash w.nowSecs upstream w.shm.cb } }
    else
      { w with
        shm := { w.shm with cb := CircuitBreaker.recordSuccessFor p.fxHash upstream w.shm.cb } }
  else if 500 ≤ status then
    { w with
      shm := { w.shm with cb := CircuitBreaker.recordFailure p.fxHash w.nowSecs w.shm.cb } }
  else
    { w with shm := { w.shm with cb := CircuitBreaker.recordSuccess p.fxHash w.shm.cb } }

end Gateway
end GatewayEdge
