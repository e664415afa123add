import GatewayEdge.Cors
import GatewayEdge.Gates

/-!
# Lua.Gateway — the bridge between NGINX and the data plane

`access` is the access phase of `location /`: it calls `process_request` on the scratch buffers of
the worker and either answers the client or hands the request to a named location.  `log` is the
log phase of the location the request ends in.  Strings are byte strings, as in Lua.
-/

namespace GatewayEdge
namespace Lua

open Foundation
open Gateway (Platform World Args OutBuffers cStr processRequest reportTelemetry)

/-! ## Scratch buffers -/

def regionLen : Nat := 16
def upstreamLen : Nat := 256
def reqIdLen : Nat := 40
def userIdLen : Nat := 128
def homeRegionLen : Nat := 16
def tierLen : Nat := 16
def corsLen : Nat := 512
def wafBodyScanBytes : Nat := 8192

/-- The buffers of one worker, allocated once and reused by every request. -/
structure ScratchBuffers where
  region : Bytes
  upstream : Bytes
  reqId : Bytes
  userId : Bytes
  homeRegion : Bytes
  tier : Bytes
  cors : Bytes

/-- `ffi.new` fills with zeros. -/
def ScratchBuffers.fresh : ScratchBuffers where
  region := List.replicate regionLen 0
  upstream := List.replicate upstreamLen 0
  reqId := List.replicate reqIdLen 0
  userId := List.replicate userIdLen 0
  homeRegion := List.replicate homeRegionLen 0
  tier := List.replicate tierLen 0
  cors := List.replicate corsLen 0

/-- The pointers handed to `process_request`. -/
def ScratchBuffers.out (b : ScratchBuffers) : OutBuffers where
  region := some b.region
  upstream := some b.upstream
  reqId := some b.reqId
  userId := some b.userId
  homeRegion := some b.homeRegion
  tier := some b.tier

/-- The buffers after the call that was handed `b.out`. -/
def ScratchBuffers.after (b : ScratchBuffers) (out : OutBuffers) : ScratchBuffers where
  region := out.region.getD b.region
  upstream := out.upstream.getD b.upstream
  reqId := out.reqId.getD b.reqId
  userId := out.userId.getD b.userId
  homeRegion := out.homeRegion.getD b.homeRegion
  tier := out.tier.getD b.tier
  cors := b.cors

/-! ## Requests and replies -/

/-- What the access phase reads of a request; `none` for a variable that is not set. -/
structure ClientRequest where
  method : Bytes
  httpOrigin : Option Bytes
  httpAuthorization : Option Bytes
  requestUri : Option Bytes
  uri : Option Bytes
  httpUserAgent : Option Bytes
  remoteAddr : Option Bytes
  httpXCanary : Option Bytes
  cookieGatewayCanary : Option Bytes
  contentType : Option Bytes
  httpTraceparent : Option Bytes
  /-- `get_body_data`, and the contents of the file behind `get_body_file` if it opens. -/
  bodyData : Option Bytes
  bodyFile : Option Bytes
  /-- `debug.traceback` at the place an error is reported from. -/
  traceback : String
  quotaIo : List Quota.Attempt

abbrev Headers := String → Option Bytes

/-- The body of an error: one of the fixed texts, or the JSON object with these two fields. -/
inductive ErrorBody
  | text (body : String)
  | traced (error stack : String)
  deriving DecidableEq, Repr

structure Reply where
  status : Int
  body : Option ErrorBody

/-- The end of the access phase. -/
inductive Handoff
  | exit (reply : Reply)
  | exec (location : Bytes)

/-- The request goes on to an upstream. -/
def Handoff.isExec : Handoff → Bool
  | .exit _ => false
  | .exec _ => true

/-- The variables of the request; they survive an internal redirect. -/
structure Vars where
  gatewayRequestId : Bytes := []
  gatewayUserId : Bytes := []
  gatewayHomeRegion : Bytes := []
  targetRegion : Bytes := []
  targetUpstream : Bytes := []
  targetTier : Bytes := []
  deriving DecidableEq, Repr

/-- `ngx.ctx`. -/
structure Ctx where
  requestId : Option Bytes := none
  admitted : Bool := false
  deriving DecidableEq, Repr

structure Access where
  world : World
  bufs : ScratchBuffers
  vars : Vars
  ctx : Ctx
  requestHeaders : Headers
  responseHeaders : Headers
  handoff : Handoff

def bytes (s : String) : Bytes := strBytes s

/-- `{"error":"…"}`. -/
def errorText (message : String) : String := "\x7b\"error\":\"" ++ message ++ "\"\x7d"

/-- The message of `ERROR_BODIES[code]`. -/
def errorMessage (code : Int) : String :=
  if code = 400 then "Bad Request"
  else if code = 401 then "Unauthorized"
  else if code = 403 then "Forbidden"
  else if code = 404 then "Not Found"
  else if code = 429 then "Too Many Requests"
  else if code = 500 then "Internal Server Error"
  else if code = 503 then "Service Unavailable"
  else "Request rejected"

/-! ## CORS -/

/-- `apply_cors`: the buffer, the response headers and, for a preflight, the final reply. -/
def applyCors (cfg : GatewayConfig) (req : ClientRequest) (buf : Bytes) (headers : Headers) :
    Bytes × Headers × Option Reply :=
  match req.httpOrigin with
  | none => (buf, headers, none)
  | some origin =>
    if origin = [] then (buf, headers, none)
    else
      match Cors.getCorsHeaders cfg (some origin) (some buf) with
      | (written, n) =>
        let buf := written.getD buf
        let packed := buf.take n
        let preflight := decide (req.method = bytes "OPTIONS")
        if packed = [] then
          -- An origin that is not allowed is refused only when it asks first.
          if preflight then
            (buf, Function.update headers "Content-Length" (some (bytes "0")),
              some { status := 403, body := none })
          else (buf, headers, none)
        else
          let parts := packed.splitOn 0x1f
          let credentials := decide (parts[4]? = some (bytes "true"))
          let headers := Function.update headers "Access-Control-Allow-Origin" parts[0]?
          let headers :=
            if credentials then
              Function.update headers "Access-Control-Allow-Credentials" (some (bytes "true"))
            else headers
          let headers := Function.update headers "Vary" (some (bytes "Origin"))
          if preflight then
            let headers := Function.update headers "Access-Control-Allow-Methods" parts[1]?
            let headers := Function.update headers "Access-Control-Allow-Headers" parts[2]?
            let headers := Function.update headers "Access-Control-Max-Age" parts[3]?
            (buf, Function.update headers "Content-Length" (some (bytes "0")),
              some { status := 204, body := none })
          else (buf, headers, none)

/-! ## The access phase -/

/-- The body handed to the WAF: only for methods that carry one, from memory or from the first
bytes of the spooled file. -/
def scannedBody (req : ClientRequest) : Bytes :=
  if req.method = bytes "POST" ∨ req.method = bytes "PUT" ∨ req.method = bytes "PATCH" then
    match req.bodyData with
    | some body => body
    | none => (req.bodyFile.map fun file => file.take wafBodyScanBytes).getD []
  else []

/-- The arguments of `process_request`; none of them is ever NULL. -/
def args (req : ClientRequest) : Args where
  authHeader := some (req.httpAuthorization.getD [])
  path := some ((req.requestUri.or req.uri).getD (bytes "/"))
  userAgent := some (req.httpUserAgent.getD [])
  body := some (scannedBody req)
  clientIp := some (req.remoteAddr.getD [])
  canaryHint := some ((req.httpXCanary.or req.cookieGatewayCanary).getD [])
  contentType := some (req.contentType.getD [])
  quotaIo := req.quotaIo

/-- The reply to a refused request. -/
def refusal (code : Int) (traceback : String) : Reply where
  status := code
  body := some <|
    if 500 ≤ code then .traced (errorMessage code) traceback
    else .text (errorText (errorMessage code))

def setHeader (headers : Headers) (name : String) (value : Bytes) : Headers :=
  Function.update headers name (some value)

/-- The tier a route asks for, `normal` unless it is one of the other two. -/
def effectiveTier (tier : Bytes) : Bytes :=
  if tier ≠ bytes "fast" ∧ tier ≠ bytes "slow" then bytes "normal" else tier

/-- `M.access`, after the CORS answer. -/
def accessChecked (p : Platform) (req : ClientRequest) (w : World) (bufs : ScratchBuffers)
    (requestHeaders responseHeaders : Headers) : Access :=
  -- Client-supplied identity headers are dropped before anything is decided.
  let requestHeaders := Function.update requestHeaders "X-User-Id" none
  let requestHeaders := Function.update requestHeaders "X-Home-Region" none
  let outcome := processRequest p w (args req) bufs.out
  let bufs := bufs.after outcome.out
  let reqId := cStr bufs.reqId
  let ctx : Ctx := { requestId := some reqId }
  let vars : Vars := { gatewayRequestId := reqId }
  let requestHeaders := setHeader requestHeaders "X-Request-ID" reqId
  let requestHeaders := match req.httpTraceparent with
    | some traceparent =>
      if traceparent ≠ [] then setHeader requestHeaders "traceparent" traceparent else requestHeaders
    | none => requestHeaders
  if outcome.status ≠ 200 then
    let headers := setHeader responseHeaders "Content-Type" (bytes "application/json")
    let headers := setHeader headers "X-Request-ID" reqId
    let headers := if outcome.status = 429 ∨ outcome.status = 503 then
      setHeader headers "Retry-After" (bytes "1") else headers
    { world := outcome.world
      bufs := bufs
      vars := vars
      ctx := ctx
      requestHeaders := requestHeaders
      responseHeaders := headers
      handoff := .exit (refusal outcome.status req.traceback) }
  else
    let tier := effectiveTier (cStr bufs.tier)
    -- Read back whether or not this call has written them.
    let uid := cStr bufs.userId
    let home := cStr bufs.homeRegion
    let requestHeaders := if uid ≠ [] then setHeader requestHeaders "X-User-Id" uid else requestHeaders
    let requestHeaders :=
      if home ≠ [] then setHeader requestHeaders "X-Home-Region" home else requestHeaders
    { world := outcome.world
      bufs := bufs
      vars := { vars with
        targetRegion := cStr bufs.region
        targetUpstream := cStr bufs.upstream
        targetTier := tier
        gatewayUserId := uid
        gatewayHomeRegion := home }
      -- Set in the `ngx.ctx` of this location, which the redirect leaves behind.
      ctx := { ctx with admitted := true }
      requestHeaders := requestHeaders
      responseHeaders := responseHeaders
      handoff := .exec (bytes "@up_" ++ tier) }

/-- `M.access`. -/
def access (p : Platform) (req : ClientRequest) (requestHeaders : Headers) (w : World)
    (bufs : ScratchBuffers) : Access :=
  match applyCors w.worker.config req bufs.cors (fun _ => none) with
  | (cors, responseHeaders, some reply) =>
    { world := w
      bufs := { bufs with cors := cors }
      vars := {}
      ctx := {}
      requestHeaders := requestHeaders
      responseHeaders := responseHeaders
      handoff := .exit reply }
  | (cors, responseHeaders, none) =>
    accessChecked p req w { bufs with cors := cors } requestHeaders responseHeaders

/-- What the upstream is sent for `X-User-Id` and `X-Home-Region`: the named locations override
both headers with the variables, and an empty value is not sent. -/
def Vars.forwarded (v : Vars) : Bytes × Bytes := (v.gatewayUserId, v.gatewayHomeRegion)

/-- The request was admitted. -/
def Access.Admitted (r : Access) : Prop := r.handoff.isExec = true

instance (r : Access) : Decidable r.Admitted := inferInstanceAs (Decidable (_ = true))

/-- Everything `access` can do, in three cases. -/
theorem access_cases (p : Platform) (req : ClientRequest) (headers : Headers) (w : World)
    (bufs : ScratchBuffers) :
    let r := access p req headers w bufs
    let outcome := processRequest p w (args req) bufs.out
    -- A preflight is answered before the data plane is called.
    (¬ r.Admitted ∧ r.ctx.admitted = false ∧ r.world = w ∧
      r.bufs.userId = bufs.userId ∧ r.bufs.homeRegion = bufs.homeRegion) ∨
    -- The data plane refuses.
    (outcome.status ≠ 200 ∧ ¬ r.Admitted ∧ r.ctx.admitted = false ∧ r.world = outcome.world ∧
      r.bufs.userId = outcome.out.userId.getD bufs.userId ∧
      r.bufs.homeRegion = outcome.out.homeRegion.getD bufs.homeRegion) ∨
    -- The data plane admits.
    (outcome.status = 200 ∧ r.Admitted ∧ r.world = outcome.world ∧
      r.bufs.userId = outcome.out.userId.getD bufs.userId ∧
      r.bufs.homeRegion = outcome.out.homeRegion.getD bufs.homeRegion ∧
      r.vars.forwarded = (cStr r.bufs.userId, cStr r.bufs.homeRegion)) := by
  dsimp only
  unfold access
  rcases applyCors w.worker.config req bufs.cors (fun _ => none) with
    ⟨cors, responseHeaders, _ | reply⟩
  · dsimp only
    unfold accessChecked
    dsimp only
    have hout : ({ bufs with cors := cors } : ScratchBuffers).out = bufs.out := rfl
    rw [hout]
    by_cases hstatus : (processRequest p w (args req) bufs.out).status = 200
    · rw [if_neg (not_not.2 hstatus)]
      exact Or.inr (Or.inr ⟨hstatus, rfl, rfl, rfl, rfl, rfl⟩)
    · rw [if_pos hstatus]
      exact Or.inr (Or.inl ⟨hstatus, Bool.false_ne_true, rfl, rfl, rfl, rfl⟩)
  · exact Or.inl ⟨Bool.false_ne_true, rfl, rfl, rfl, rfl⟩

/-- Without an `Origin` there is no preflight: whom the data plane admits is admitted. -/
theorem admitted_of_ok {p : Platform} {req : ClientRequest} {headers : Headers} {w : World}
    {bufs : ScratchBuffers} (horigin : req.httpOrigin = none)
    (hstatus : (processRequest p w (args req) bufs.out).status = 200) :
    (access p req headers w bufs).Admitted := by
  have hcors : applyCors w.worker.config req bufs.cors (fun _ => none) =
      (bufs.cors, fun _ => none, none) := by
    unfold applyCors
    rw [horigin]
  have hout : ({ bufs with cors := bufs.cors } : ScratchBuffers).out = bufs.out := rfl
  unfold access
  rw [hcors]
  unfold accessChecked
  dsimp only
  rw [hout, if_neg (not_not.2 hstatus)]
  rfl

/-- What an admitted request is sent on with: its buffers as they read back, nothing of the client's. -/
structure HeadersSet (r : Access) : Prop where
  userId : r.requestHeaders "X-User-Id" =
    if cStr r.bufs.userId ≠ [] then some (cStr r.bufs.userId) else none
  homeRegion : r.requestHeaders "X-Home-Region" =
    if cStr r.bufs.homeRegion ≠ [] then some (cStr r.bufs.homeRegion) else none

theorem accessChecked_headers {p : Platform} {req : ClientRequest} {w : World} {bufs : ScratchBuffers}
    {requestHeaders responseHeaders : Headers}
    (hadmitted : (accessChecked p req w bufs requestHeaders responseHeaders).Admitted) :
    HeadersSet (accessChecked p req w bufs requestHeaders responseHeaders) := by
  unfold accessChecked at hadmitted ⊢
  dsimp only at hadmitted ⊢
  by_cases hstatus : (processRequest p w (args req) bufs.out).status = 200
  · rw [if_neg (not_not.2 hstatus)]
    -- The headers in front of the two assignments hold neither of them.
    generalize hbase : (match req.httpTraceparent with
      | some traceparent =>
        if traceparent ≠ [] then setHeader _ "traceparent" traceparent else _
      | none => _) = base
    have hclean : base "X-User-Id" = none ∧ base "X-Home-Region" = none := by
      rw [← hbase]
      cases req.httpTraceparent with
      | none => exact ⟨rfl, rfl⟩
      | some traceparent =>
          dsimp only
          split
          · exact ⟨rfl, rfl⟩
          · exact ⟨rfl, rfl⟩
    generalize bufs.after _ = after
    refine ⟨?_, ?_⟩
    · dsimp only
      by_cases huid : cStr after.userId = []
      · by_cases hhome : cStr after.homeRegion = []
        · simpa [huid, hhome] using hclean.1
        · simpa [huid, hhome, setHeader, Function.update] using hclean.1
      · by_cases hhome : cStr after.homeRegion = []
        · simp [huid, hhome, setHeader]
        · simp [huid, hhome, setHeader, Function.update]
    · dsimp only
      by_cases hhome : cStr after.homeRegion = []
      · by_cases huid : cStr after.userId = []
        · simpa [huid, hhome] using hclean.2
        · simpa [huid, hhome, setHeader, Function.update] using hclean.2
      · simp [hhome, setHeader]
  · rw [if_pos hstatus] at hadmitted
    exact absurd hadmitted Bool.false_ne_true

theorem access_headers {p : Platform} {req : ClientRequest} {headers : Headers} {w : World}
    {bufs : ScratchBuffers} (hadmitted : (access p req headers w bufs).Admitted) :
    HeadersSet (access p req headers w bufs) := by
  unfold access at hadmitted ⊢
  rcases hcors : applyCors w.worker.config req bufs.cors (fun _ => none) with
    ⟨cors, responseHeaders, _ | reply⟩
  · rw [hcors] at hadmitted
    exact accessChecked_headers hadmitted
  · rw [hcors] at hadmitted
    exact absurd hadmitted Bool.false_ne_true

/-! ## The log phase -/

/-- `ngx.ctx` as the log phase finds it: the redirect to a named location empties it. -/
def Access.logCtx (r : Access) : Ctx :=
  match r.handoff with
  | .exit _ => r.ctx
  | .exec _ => {}

/-- `M.log`. -/
def log (p : Platform) (vars : Vars) (ctx : Ctx) (status : Int) (latencyUs : Nat) (w : World) :
    World :=
  let w := reportTelemetry p status latencyUs (some vars.targetUpstream) w
  if ctx.admitted then w.release else w

/-! ## A concrete request -/

/-- `GET /a` with the given `Authorization` header. -/
def sampleRequest (authorization : Option Bytes) : ClientRequest where
  method := bytes "GET"
  httpOrigin := none
  httpAuthorization := authorization
  requestUri := some (bytes "/a")
  uri := some (bytes "/a")
  httpUserAgent := none
  remoteAddr := some (bytes "1.2.3.4")
  httpXCanary := none
  cookieGatewayCanary := none
  contentType := none
  httpTraceparent := none
  bodyData := none
  bodyFile := none
  traceback := ""
  quotaIo := []

/-- The same request as the gates of the data plane see it. -/
def bearerRequest (authorization : String) : Gateway.Request where
  authHeader := authorization
  path := "/a"
  userAgent := ""
  body := ""
  clientIp := "1.2.3.4"
  canaryHint := ""
  contentType := ""
  quotaIo := []

/-- The only service of the sample node. -/
def sampleService : ServiceConfig where
  name := "s"
  rateLimitMax := 0
  regionalUpstreams := [("US", [{ name := "b", address := "b:80" }])]
  requireAuth := false

section SampleNode

variable {p : Platform} {authorization : String}

theorem request_sampleRequest (hnul : '\x00' ∉ authorization.toList) :
    (args (sampleRequest (some (bytes authorization)))).request = bearerRequest authorization := by
  have hauth : Gateway.strArg (some (strBytes authorization)) = authorization :=
    Gateway.strArg_strBytes hnul
  have hpath : Gateway.strArg (some (strBytes "/a")) = "/a" := Gateway.strArg_strBytes (by decide)
  have hip : Gateway.strArg (some (strBytes "1.2.3.4")) = "1.2.3.4" :=
    Gateway.strArg_strBytes (by decide)
  have hempty : Gateway.strArg (some []) = "" := by decide
  have hlossy : fromUtf8Lossy [] = "" := by decide
  have hmethod : ¬(bytes "GET" = bytes "POST" ∨ bytes "GET" = bytes "PUT" ∨
      bytes "GET" = bytes "PATCH") := by
    decide
  have hbody : scannedBody (sampleRequest (some (bytes authorization))) = [] := if_neg hmethod
  unfold Gateway.Args.request args
  rw [hbody]
  simp only [sampleRequest, bytes, Option.getD_some, Option.getD_none, Option.or_some,
    Option.or_none, Option.map_some, hauth, hpath, hip, hempty, hlossy]
  rfl

/-- The WAF has nothing against a request with credentials of a sensible size. -/
theorem inspection_sampleRequest (hnul : '\x00' ∉ authorization.toList) (hne : authorization ≠ "")
    (hsize : authorization.utf8ByteSize ≤ Waf.maxAuthHeaderLen) :
    (Gateway.requestInspection p Gateway.sampleWorld
      (args (sampleRequest (some (bytes authorization))))).2 = .allow := by
  unfold Gateway.requestInspection
  rw [request_sampleRequest hnul]
  unfold Waf.inspect bearerRequest
  dsimp only
  rw [if_neg (by decide), if_neg (Nat.not_lt.2 hsize), if_neg (by decide +kernel),
    if_neg (by decide), if_neg (by decide), if_neg (by simp [hne])]

theorem routeRequest_sample (userId : String) :
    Router.routeRequest Gateway.samplePlatform.matchit Gateway.samplePlatform.env Gateway.sampleConfig
        (Router.updateRouter Gateway.sampleConfig) (beforeFirst '?' "/a")
        (some { userId := userId, homeRegion := some "US" }) =
      .ok { service := some sampleService, region := "US", tier := "normal", validation := none } := by
  have hpath : beforeFirst '?' "/a" = "/a" := by decide
  rw [hpath]
  rfl

/-- Behind the token check only a lost upstream stops a user of the region. -/
theorem routeStage_sample (hmatchit : p.matchit = Gateway.samplePlatform.matchit)
    (henv : p.env = Gateway.samplePlatform.env) (userId : String) {w : World}
    (hconfig : w.worker.config = Gateway.sampleConfig)
    (hrouter : w.worker.router = Router.updateRouter Gateway.sampleConfig)
    (hposture : w.worker.posture = Sentinel.l0Normal)
    (hup : Selector.Usable (w.selectContext p) "b:80" w.usability) (out : OutBuffers) :
    (Gateway.routeStage p (bearerRequest authorization)
      (some { userId := userId, homeRegion := some "US" }) w out).status = 200 := by
  have hselect := Gateway.selectStage_status_iff p (bearerRequest authorization)
    (some { userId := userId, homeRegion := some "US" }) sampleService "US" w
    (Gateway.tieredOut { service := some sampleService, region := "US", tier := "normal", validation := none } out)
  unfold Gateway.routeStage bearerRequest
  dsimp only
  rw [hmatchit, henv, hconfig, hrouter, routeRequest_sample]
  dsimp only
  unfold Gateway.policyStage
  rw [hposture]
  exact hselect.2 ⟨{ name := "b", address := "b:80" }, List.mem_singleton.2 rfl, hup⟩

/-- A fresh worker of the sample node admits every user of the region, whatever its buffers hold. -/
theorem admitted_sample (hmatchit : p.matchit = Gateway.samplePlatform.matchit)
    (henv : p.env = Gateway.samplePlatform.env) (hnul : '\x00' ∉ authorization.toList)
    (hne : authorization ≠ "") (hsize : authorization.utf8ByteSize ≤ Waf.maxAuthHeaderLen)
    {userId : String}
    (hid : Gateway.requestIdentity p Gateway.sampleWorld
      (args (sampleRequest (some (bytes authorization)))) =
        some { userId := userId, homeRegion := some "US" }) (headers : Headers) {bufs : ScratchBuffers} :
    (access p (sampleRequest (some (bytes authorization))) headers Gateway.sampleWorld bufs).Admitted := by
  have hslot : (Backpressure.acquire Gateway.sampleWorld.worker.config
      (Gateway.sampleWorld.globalState p) Gateway.sampleWorld.worker.inFlight).2 = true := rfl
  have hargs : ¬((args (sampleRequest (some (bytes authorization)))).authHeader = none ∨
      (args (sampleRequest (some (bytes authorization)))).path = none ∨
        bufs.out.region = none) := by
    simp [args, ScratchBuffers.out]
  refine admitted_of_ok rfl ?_
  rw [Gateway.processRequest_of_inspected hslot hargs (inspection_sampleRequest hnul hne hsize), hid,
    request_sampleRequest hnul]
  refine routeStage_sample hmatchit henv userId rfl rfl rfl ?_ _
  rfl

end SampleNode

/-- The request of Alice. -/
def aliceRequest : ClientRequest := sampleRequest (some (bytes ("Bearer " ++ Auth.sampleToken)))

end Lua
end GatewayEdge
