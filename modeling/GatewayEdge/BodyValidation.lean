import GatewayEdge.BodyInspection
import GatewayEdge.Lua.Gateway

/-!
# BodyValidation — is the body that is measured the body that was sent?

The size cap of a route is compared with the length of a string that has come a long way: the whole body when
it fits the buffer of the server and its first 8192 bytes otherwise, decoded lossily.  Two kinds of bodies end on
the wrong side of the cap: long ones of which only the beginning is measured, and short ones that grow when they
are decoded.  `body_judged_iff` says that there is no third.
-/

namespace GatewayEdge
namespace BodyValidation

open Auth (UserIdentity)
open BodyInspection (decodedLen decodedText FoundWithin OtherwiseBlocked)
open Foundation
open Gateway
open Lua (ClientRequest scannedBody args bytes wafBodyScanBytes)

/-! ## The measured length -/

theorem utf8ByteSize_ofList (l : List Char) : (String.ofList l).utf8ByteSize = Waf.byteLen l := by
  induction l with
  | nil => rfl
  | cons c l ih =>
      rw [String.ofList_cons, String.utf8ByteSize_append, ih, BodyInspection.byteLen_cons]
      simp

theorem utf8ByteSize_lossy (bs : Bytes) : (fromUtf8Lossy bs).utf8ByteSize = decodedLen bs := by
  rw [decodedLen, BodyInspection.decodedText_eq, ← utf8ByteSize_ofList]
  rfl

/-- Lossy decoding makes no body shorter. -/
theorem length_le_decodedLen (bs : Bytes) : bs.length ≤ decodedLen bs := by
  rw [decodedLen, BodyInspection.decodedText_eq, Waf.byteLen, List.map_map]
  exact Utf8.length_le_decoded bs

/-! ## What the server delivers -/

/-- A body that fits the buffer is in memory, and any other one in a file. -/
structure Delivers (bufferSize : Nat) (full : Bytes) (req : ClientRequest) : Prop where
  inMemory : full.length ≤ bufferSize → req.bodyData = some full
  spooled : bufferSize < full.length → req.bodyData = none ∧ req.bodyFile = some full

def CarriesBody (req : ClientRequest) : Prop :=
  req.method = bytes "POST" ∨ req.method = bytes "PUT" ∨ req.method = bytes "PATCH"

/-- The bytes the gateway gets to see. -/
def sentBody (bufferSize : Nat) (full : Bytes) : Bytes :=
  if full.length ≤ bufferSize then full else full.take wafBodyScanBytes

theorem scannedBody_of_delivers {bufferSize : Nat} {full : Bytes} {req : ClientRequest}
    (hmethod : CarriesBody req) (h : Delivers bufferSize full req) :
    scannedBody req = sentBody bufferSize full := by
  unfold CarriesBody at hmethod
  unfold scannedBody sentBody
  rw [if_pos hmethod]
  by_cases hfits : full.length ≤ bufferSize
  · rw [if_pos hfits, h.inMemory hfits]
  · rcases h.spooled (not_le.1 hfits) with ⟨hdata, hfile⟩
    rw [if_neg hfits, hdata, hfile]
    rfl

/-- The matched route has a policy with this cap. -/
def RouteLimit (p : Platform) (w : World) (a : Args) (limit : Nat) : Prop :=
  ∃ policy, (Router.findService p.matchit w.worker.router a.request.routePath w.worker.config).2.2 =
    some policy ∧ policy.maxBodyBytes = some limit

/-- An admitted body is within the cap, and a body within the cap is not refused for its size. -/
def Judged (full : Bytes) (limit : Nat) (status : Int) : Prop :=
  (status = 200 → full.length ≤ limit) ∧ (full.length ≤ limit → status ≠ 413)

/-! ## The size check -/

theorem requestRoute_validation {p : Platform} {w : World} {a : Args} {resolved : Router.ResolvedRoute}
    (h : requestRoute p w a = .ok resolved) :
    resolved.validation =
      (Router.findService p.matchit w.worker.router a.request.routePath w.worker.config).2.2 := by
  unfold requestRoute Router.routeRequest at h
  dsimp only at h
  split at h
  · cases h
  · cases h
    rfl

/-- A body that is too long is the only reason for a status of 413. -/
theorem response_eq_413 {v : Violation} (h : v.response.1 = 413) :
    ∃ actual limit, v = .tooLarge actual limit := by
  cases v with
  | tooLarge actual limit => exact ⟨actual, limit, rfl⟩
  | notJson => cases h
  | missingField field => cases h
  | wrongType field expected => cases h

theorem checkRequired_ne_tooLarge {parsed : Json} {required : List RequiredField} {actual limit : Nat} :
    checkRequired parsed required ≠ .error (.tooLarge actual limit) := by
  induction required with
  | nil =>
      intro h
      cases h
  | cons r rest ih =>
      intro h
      unfold checkRequired at h
      split at h
      · cases h
      · cases h
      · split at h
        · exact ih h
        · cases h

/-- The size check comes first: it refuses exactly the texts above the cap. -/
theorem validateBody_tooLarge_iff (parseJson : String → Option Json) {policy : ValidationConfig}
    {limit : Nat} (hlimit : policy.maxBodyBytes = some limit) (contentType body : String) :
    (∃ actual cap, validateBody parseJson policy contentType body = .error (.tooLarge actual cap)) ↔
      limit < body.utf8ByteSize := by
  unfold validateBody
  rw [hlimit, Option.filter_some]
  by_cases hlarge : limit < body.utf8ByteSize
  · simp [hlarge]
  · simp only [hlarge, decide_false, Bool.false_eq_true, if_false, iff_false]
    rintro ⟨actual, cap, h⟩
    split at h
    · cases h
    · split at h
      · cases h
      · split at h
        · cases h
        · split at h
          · cases h
          · split at h
            · exact checkRequired_ne_tooLarge h
            · cases h

section Stages

variable {p : Platform} {req : Request} {identity : Option UserIdentity} {service : ServiceConfig}
  {w : World} {out : OutBuffers}

/-- Only the verdict on the body ends a request with 413. -/
theorem policyStage_413 {resolved : Router.ResolvedRoute}
    (h : (policyStage p req identity resolved service w out).status = 413) :
    ∃ actual cap, bodyVerdict p req resolved.validation = .error (.tooLarge actual cap) := by
  by_cases hshed : Sentinel.shedAnonymous w.worker.posture ∧ identity = none
  · unfold policyStage at h
    rw [if_pos hshed] at h
    cases h
  · rcases policyStage_of_verdict p req service out resolved hshed with ⟨herror, hok⟩
    cases hverdict : bodyVerdict p req resolved.validation with
    | error v =>
        rw [herror v hverdict] at h
        have hstatus : v.response.1 = 413 := Int.ofNat.inj h
        rcases response_eq_413 hstatus with ⟨actual, cap, rfl⟩
        exact ⟨actual, cap, rfl⟩
    | ok u =>
        rw [hok hverdict] at h
        split at h
        · cases h
        · rcases rateLimitStage_status p req identity service resolved.region w (tieredOut resolved out) with
            hstatus | hstatus | hstatus
          all_goals cases hstatus.symm.trans h

end Stages

section

variable {p : Platform} {w : World} {a : Args} {out : OutBuffers} {limit : Nat}

theorem bodyVerdict_tooLarge_iff {resolved : Router.ResolvedRoute} (hlimit : RouteLimit p w a limit)
    (hroute : requestRoute p w a = .ok resolved) :
    (∃ actual cap, bodyVerdict p a.request resolved.validation = .error (.tooLarge actual cap)) ↔
      limit < a.request.body.utf8ByteSize := by
  rcases hlimit with ⟨policy, hpolicy, hmax⟩
  rw [requestRoute_validation hroute, hpolicy]
  exact validateBody_tooLarge_iff p.parseJson hmax _ _

/-- A call that ends with 413 was sent a text above the cap of its route. -/
theorem limit_lt_of_413 (hlimit : RouteLimit p w a limit)
    (h : (processRequest p w a out).status = 413) :
    (requestInspection p w a).2 = .allow ∧ limit < a.request.body.utf8ByteSize := by
  rcases processRequest_cases p w a out with
    hstatus | hstatus | ⟨status, reason, hblock, hstatus⟩ | ⟨hslot, hargs, hallow⟩
  · cases h.symm.trans hstatus
  · cases h.symm.trans hstatus
  · have hnot := requestInspection_block hblock
    omega
  refine ⟨hallow, ?_⟩
  rw [processRequest_of_inspected hslot hargs hallow] at h
  unfold routeStage at h
  split at h
  · rename_i status hroute
    rw [Router.routeRequest_error hroute] at h
    cases h
  · rename_i resolved hroute
    split at h
    · cases h
    · exact (bodyVerdict_tooLarge_iff hlimit hroute).1 (policyStage_413 h)

/-- A call that ends with 200 was sent a text within the cap. -/
theorem le_limit_of_200 (hlimit : RouteLimit p w a limit)
    (h : (processRequest p w a out).status = 200) :
    (requestInspection p w a).2 = .allow ∧ a.request.body.utf8ByteSize ≤ limit := by
  rcases processRequest_gatesPassed h with ⟨resolved, svc, addr, hgates⟩
  refine ⟨hgates.inspected, not_lt.1 fun hlarge => ?_⟩
  rcases (bodyVerdict_tooLarge_iff hlimit hgates.routed).2 hlarge with ⟨actual, cap, hverdict⟩
  rw [hgates.verdict] at hverdict
  cases hverdict

end

/-! ## Two kinds of misjudged bodies -/

/-- Longer than the cap, but only the beginning of it is measured. -/
def Overlooked (bufferSize limit : Nat) (full : Bytes) : Prop :=
  bufferSize < full.length ∧ limit < full.length ∧ decodedLen (full.take wafBodyScanBytes) ≤ limit

/-- Within the cap, but no longer so once it is decoded. -/
def Inflated (bufferSize limit : Nat) (full : Bytes) : Prop :=
  full.length ≤ limit ∧ limit < decodedLen (sentBody bufferSize full)

/-- The inspection lets no request through in whose body it finds an entry. -/
theorem not_allow_of_found {p : Platform} {w : World} {a : Args} {body : Bytes}
    (hbody : a.request.body = fromUtf8Lossy body) (h : FoundWithin Waf.maxBodyScanLen body) :
    (requestInspection p w a).2 ≠ .allow := by
  rcases (BodyInspection.blocks_iff (w.wafContext p) a.request.path a.request.authHeader
    a.request.userAgent a.request.clientIp body w.shm.waf).2 (Or.inl h) with ⟨status, reason, hblock⟩
  unfold requestInspection
  rw [hbody, hblock]
  intro hallow
  cases hallow

theorem judged_of_kinds {bufferSize limit : Nat} {full : Bytes} {p : Platform} {w : World}
    {req : ClientRequest} {out : OutBuffers} (hmethod : CarriesBody req)
    (hdelivers : Delivers bufferSize full req) (hlimit : RouteLimit p w (args req) limit)
    (h : FoundWithin Waf.maxBodyScanLen (sentBody bufferSize full) ∨
      ¬ Overlooked bufferSize limit full ∧ ¬ Inflated bufferSize limit full) :
    Judged full limit (processRequest p w (args req) out).status := by
  have hbody : (args req).request.body = fromUtf8Lossy (sentBody bufferSize full) := by
    rw [← scannedBody_of_delivers hmethod hdelivers]
    rfl
  rcases h with hfound | ⟨hover, hinfl⟩
  · have hblocked := not_allow_of_found (p := p) (w := w) hbody hfound
    exact ⟨fun h200 => absurd (le_limit_of_200 hlimit h200).1 hblocked,
      fun _ h413 => absurd (limit_lt_of_413 hlimit h413).1 hblocked⟩
  · constructor
    · intro h200
      have hmeasured := (le_limit_of_200 hlimit h200).2
      rw [hbody, utf8ByteSize_lossy] at hmeasured
      by_contra hlong
      unfold sentBody at hmeasured
      by_cases hfits : full.length ≤ bufferSize
      · rw [if_pos hfits] at hmeasured
        exact hlong (le_trans (length_le_decodedLen full) hmeasured)
      · rw [if_neg hfits] at hmeasured
        exact hover ⟨not_le.1 hfits, not_le.1 hlong, hmeasured⟩
    · intro hshort h413
      have hmeasured := (limit_lt_of_413 hlimit h413).2
      rw [hbody, utf8ByteSize_lossy] at hmeasured
      exact hinfl ⟨hshort, hmeasured⟩

/-! ## A route with a cap and nothing else -/

section Congr

variable {p : Platform} {req req' : Request} {identity : Option UserIdentity} {service : ServiceConfig}
  {region : String} {w w' : World} {out out' : OutBuffers}

/-- Two calls look alike to the gates behind the validation. -/
structure SameForLater (req req' : Request) (w w' : World) : Prop where
  quotaIo : req.quotaIo = req'.quotaIo
  canaryHint : req.canaryHint = req'.canaryHint
  clock : w.clockMs = w'.clockMs
  cb : w.shm.cb = w'.shm.cb
  health : w.shm.health = w'.shm.health
  rateLimit : w.shm.rateLimit = w'.shm.rateLimit
  rlTx : w.worker.rlTx = w'.worker.rlTx
  ema : w.worker.ema = w'.worker.ema
  quotaConnected : w.worker.quotaConnected = w'.worker.quotaConnected
  quotaCounters : w.quotaCounters = w'.quotaCounters

theorem SameForLater.nowSecs (h : SameForLater req req' w w') : w.nowSecs = w'.nowSecs := by
  simp [World.nowSecs, h.clock]

theorem selectStage_congr (h : SameForLater req req' w w') :
    (selectStage p req identity service region w out).status =
      (selectStage p req' identity service region w' out').status := by
  have hctx : w.selectContext p = w'.selectContext p := by
    simp [World.selectContext, h.nowSecs, h.ema]
  have husable : w.usability = w'.usability := by
    simp [World.usability, h.cb, h.health]
  unfold selectStage
  rw [hctx, husable, h.canaryHint]
  dsimp only
  split <;> rfl

theorem quotaStage_congr (h : SameForLater req req' w w') :
    (quotaStage p req identity service region w out).status =
      (quotaStage p req' identity service region w' out').status := by
  unfold quotaStage
  split
  · rw [h.nowSecs, h.quotaCounters, h.quotaConnected, h.quotaIo]
    dsimp only
    split
    · exact selectStage_congr { h with quotaConnected := rfl, quotaCounters := rfl }
    · rfl
  · exact selectStage_congr h

theorem rateLimitStage_congr (h : SameForLater req req' w w') :
    (rateLimitStage p req identity service region w out).status =
      (rateLimitStage p req' identity service region w' out').status := by
  unfold rateLimitStage
  rw [h.nowSecs, h.rateLimit, h.rlTx]
  dsimp only
  split
  · exact quotaStage_congr { h with rateLimit := rfl, rlTx := rfl }
  · rfl

end Congr

def cappedService : ServiceConfig where
  name := "s"
  rateLimitMax := 0
  regionalUpstreams := [("US", [{ name := "b", address := "b:80" }])]
  requireAuth := false

def cappedConfig (limit : Nat) : GatewayConfig :=
  { sampleConfig with
    services := [("s", cappedService)]
    routes :=
      [{ pathPrefix := "/a", serviceName := "s", validation := some { maxBodyBytes := some limit } }] }

def cappedWorld (limit : Nat) : World :=
  { sampleWorld with
    worker := { sampleWorld.worker with
      config := cappedConfig limit
      router := Router.updateRouter (cappedConfig limit) } }

/-- `POST /a` with this body, from a client whose address is not known. -/
def postRequest (bufferSize : Nat) (full : Bytes) : ClientRequest :=
  { Lua.sampleRequest none with
    method := bytes "POST"
    remoteAddr := none
    bodyData := if full.length ≤ bufferSize then some full else none
    bodyFile := if full.length ≤ bufferSize then none else some full }

theorem postRequest_delivers (bufferSize : Nat) (full : Bytes) :
    Delivers bufferSize full (postRequest bufferSize full) where
  inMemory h := if_pos h
  spooled h := ⟨if_neg (not_le.2 h), if_neg (not_le.2 h)⟩

theorem postRequest_body (bufferSize : Nat) (full : Bytes) :
    (args (postRequest bufferSize full)).request.body = fromUtf8Lossy (sentBody bufferSize full) := by
  rw [← scannedBody_of_delivers (Or.inl rfl) (postRequest_delivers bufferSize full)]
  rfl

/-- No token, so nobody is signed in. -/
theorem capped_identity (limit bufferSize : Nat) (full : Bytes) :
    requestIdentity samplePlatform (cappedWorld limit) (args (postRequest bufferSize full)) = none := by
  have hheader : (args (postRequest bufferSize full)).authHeader = some [] := rfl
  have hstrip : stripStart "Bearer " (strArg (some [])) = none := by decide
  unfold requestIdentity Auth.validateToken
  rw [hheader, hstrip]

/-- What the request is routed to. -/
def cappedRoute (limit : Nat) : Router.ResolvedRoute where
  service := some cappedService
  region := "US"
  tier := "normal"
  validation := some { maxBodyBytes := some limit }

theorem capped_route (limit bufferSize : Nat) (full : Bytes) :
    requestRoute samplePlatform (cappedWorld limit) (args (postRequest bufferSize full)) =
      .ok (cappedRoute limit) := by
  have hpath : (args (postRequest bufferSize full)).request.routePath = "/a" := by
    change (args (Lua.sampleRequest none)).request.routePath = "/a"
    decide
  have hregion : Router.resolveRegion none (Router.currentRegion samplePlatform.env) = .ok "US" := by
    rfl
  have hservice : Router.findService samplePlatform.matchit (cappedWorld limit).worker.router "/a"
      (cappedWorld limit).worker.config =
        (some cappedService, "normal", some { maxBodyBytes := some limit }) := by
    simp [Router.findService, cappedWorld, Router.updateRouter, cappedConfig, Router.routeEntries,
      Route.effectiveTier, samplePlatform, List.lookup_cons]
  unfold requestRoute
  rw [capped_identity, hpath]
  unfold Router.routeRequest
  rw [hservice]
  dsimp only [Option.bind_none]
  rw [hregion]
  rfl

theorem capped_limit (limit bufferSize : Nat) (full : Bytes) :
    RouteLimit samplePlatform (cappedWorld limit) (args (postRequest bufferSize full)) limit := by
  refine ⟨{ maxBodyBytes := some limit }, ?_, rfl⟩
  rw [← requestRoute_validation (capped_route limit bufferSize full)]
  rfl

/-- Only its body can get the request blocked. -/
theorem capped_allow {limit bufferSize : Nat} {full : Bytes}
    (h : ¬ FoundWithin Waf.maxBodyScanLen (sentBody bufferSize full)) :
    (requestInspection samplePlatform (cappedWorld limit) (args (postRequest bufferSize full))).2 =
      .allow := by
  have hother : ¬ OtherwiseBlocked (sampleWorld.wafContext samplePlatform) "/a" "" "" ""
      sampleWorld.shm.waf := by
    decide +kernel
  have hpath : strArg (some (bytes "/a")) = "/a" := by decide
  cases hdecision : (requestInspection samplePlatform (cappedWorld limit)
      (args (postRequest bufferSize full))).2 with
  | allow => rfl
  | block status reason =>
      unfold requestInspection at hdecision
      rw [postRequest_body] at hdecision
      rcases (BodyInspection.blocks_iff _ _ _ _ _ (sentBody bufferSize full) _).1
        ⟨status, reason, hdecision⟩ with hfound | hblocked
      · exact absurd hfound h
      · change OtherwiseBlocked (sampleWorld.wafContext samplePlatform) (strArg (some (bytes "/a")))
          (strArg (some [])) (strArg (some [])) (strArg (some [])) sampleWorld.shm.waf at hblocked
        rw [hpath] at hblocked
        exact absurd hblocked hother

/-- A policy that asks for nothing but the cap. -/
theorem validateBody_cap (parseJson : String → Option Json) (limit : Nat) (contentType body : String) :
    validateBody parseJson { maxBodyBytes := some limit } contentType body =
      if limit < body.utf8ByteSize then .error (.tooLarge body.utf8ByteSize limit) else .ok () := by
  unfold validateBody
  rw [Option.filter_some]
  by_cases hlarge : limit < body.utf8ByteSize
  · simp [hlarge]
  · simp [hlarge]

/-- The gates from the validation on, for a node that sheds nothing. -/
theorem capped_policy {limit bufferSize : Nat} {full : Bytes} {w : World} {out : OutBuffers}
    (hposture : w.worker.posture = Sentinel.l0Normal)
    (hw : SameForLater (args (postRequest bufferSize full)).request anonymousArgs.request w sampleWorld) :
    (policyStage samplePlatform (args (postRequest bufferSize full)).request none (cappedRoute limit)
      cappedService w out).status =
        if limit < decodedLen (sentBody bufferSize full) then 413 else 200 := by
  have hshed : ¬ (Sentinel.shedAnonymous w.worker.posture ∧ (none : Option UserIdentity) = none) := by
    rw [hposture]
    decide
  have hverdict : bodyVerdict samplePlatform (args (postRequest bufferSize full)).request
      (cappedRoute limit).validation = _ :=
    validateBody_cap samplePlatform.parseJson limit _ _
  rw [postRequest_body, utf8ByteSize_lossy] at hverdict
  rcases policyStage_of_verdict samplePlatform (args (postRequest bufferSize full)).request cappedService
    out (cappedRoute limit) hshed with ⟨herror, hok⟩
  by_cases hlarge : limit < decodedLen (sentBody bufferSize full)
  · rw [if_pos hlarge] at hverdict ⊢
    rw [herror _ hverdict]
    rfl
  · rw [if_neg hlarge] at hverdict ⊢
    have hlater : (rateLimitStage samplePlatform anonymousArgs.request none cappedService "US" sampleWorld
        anonymousOut).status = 200 := by
      decide
    rw [hok hverdict, if_neg (by simp [cappedService]), ← hlater]
    exact rateLimitStage_congr hw

/-- Such a request is judged by the length of its body as it is measured, and by nothing else. -/
theorem capped_status {limit bufferSize : Nat} {full : Bytes}
    (h : ¬ FoundWithin Waf.maxBodyScanLen (sentBody bufferSize full)) :
    (processRequest samplePlatform (cappedWorld limit) (args (postRequest bufferSize full))
      anonymousOut).status = if limit < decodedLen (sentBody bufferSize full) then 413 else 200 := by
  have hslot : (Backpressure.acquire (cappedWorld limit).worker.config
      ((cappedWorld limit).globalState samplePlatform) (cappedWorld limit).worker.inFlight).2 = true := by
    have hsample : (Backpressure.acquire sampleWorld.worker.config
        (sampleWorld.globalState samplePlatform) sampleWorld.worker.inFlight).2 = true := by
      decide
    exact hsample
  have hroute := capped_route limit bufferSize full
  rw [processRequest_of_inspected hslot (by simp [args, anonymousOut]) (capped_allow h)]
  unfold routeStage
  split
  · rename_i status herror
    cases herror.symm.trans hroute
  · rename_i resolved hresolved
    cases Except.ok.inj (hresolved.symm.trans hroute)
    rw [capped_identity]
    exact capped_policy rfl
      { quotaIo := rfl
        canaryHint := rfl
        clock := rfl
        cb := rfl
        health := rfl
        rateLimit := rfl
        rlTx := rfl
        ema := rfl
        quotaConnected := rfl
        quotaCounters := rfl }

/-! ## The body validation -/

/-- All requests with this body on routes with this cap are judged rightly if and only if the WAF refuses the
body anyway or the body is of neither kind. -/
theorem body_judged_iff (bufferSize limit : Nat) (full : Bytes) :
    (∀ (p : Platform) (w : World) (req : ClientRequest) (out : OutBuffers), CarriesBody req →
        Delivers bufferSize full req → RouteLimit p w (args req) limit →
        Judged full limit (processRequest p w (args req) out).status) ↔
      FoundWithin Waf.maxBodyScanLen (sentBody bufferSize full) ∨
        ¬ Overlooked bufferSize limit full ∧ ¬ Inflated bufferSize limit full := by
  constructor
  · intro h
    by_cases hfound : FoundWithin Waf.maxBodyScanLen (sentBody bufferSize full)
    · exact Or.inl hfound
    · rcases h samplePlatform (cappedWorld limit) (postRequest bufferSize full) anonymousOut (Or.inl rfl)
        (postRequest_delivers bufferSize full) (capped_limit limit bufferSize full) with ⟨hlong, hshort⟩
      rw [capped_status hfound] at hlong hshort
      refine Or.inr ⟨?_, ?_⟩
      · rintro ⟨hspooled, hover, hmeasured⟩
        have hsent : sentBody bufferSize full = full.take wafBodyScanBytes := if_neg (not_le.2 hspooled)
        rw [← hsent] at hmeasured
        exact absurd (hlong (if_neg (not_lt.2 hmeasured))) (not_le.2 hover)
      · rintro ⟨hwithin, hmeasured⟩
        exact hshort hwithin (if_pos hmeasured)
  · intro h p w req out hmethod hdelivers hlimit
    exact judged_of_kinds hmethod hdelivers hlimit h

/-- `client_body_buffer_size 128k`. -/
def clientBodyBufferSize : Nat := 131072

/-- One byte more than the buffer holds. -/
def longBody : Bytes := List.replicate 131073 97

theorem not_found_of_not_carries {window : Nat} {b : UInt8} {n : Nat}
    (h : ∀ k, ¬ BodyInspection.Carries (List.replicate k b)) : ¬ FoundWithin window (List.replicate n b) := by
  rintro ⟨k, hcarries, -⟩
  rw [List.take_replicate] at hcarries
  exact h _ hcarries

/-- A body of 131073 bytes passes a cap of 8192, and a body of one byte does not pass a cap of 2. -/
theorem misjudged_both_ways :
    (CarriesBody (postRequest clientBodyBufferSize longBody) ∧
      Delivers clientBodyBufferSize longBody (postRequest clientBodyBufferSize longBody) ∧
      RouteLimit samplePlatform (cappedWorld 8192) (args (postRequest clientBodyBufferSize longBody)) 8192 ∧
      8192 < longBody.length ∧
      (processRequest samplePlatform (cappedWorld 8192) (args (postRequest clientBodyBufferSize longBody))
        anonymousOut).status = 200) ∧
    (CarriesBody (postRequest clientBodyBufferSize [0xFF]) ∧
      Delivers clientBodyBufferSize [0xFF] (postRequest clientBodyBufferSize [0xFF]) ∧
      RouteLimit samplePlatform (cappedWorld 2) (args (postRequest clientBodyBufferSize [0xFF])) 2 ∧
      (processRequest samplePlatform (cappedWorld 2) (args (postRequest clientBodyBufferSize [0xFF]))
        anonymousOut).status = 413) := by
  have hlength : longBody.length = 131073 := List.length_replicate
  have hsent : sentBody clientBodyBufferSize longBody = List.replicate 8192 97 := by
    have hspooled : ¬ longBody.length ≤ clientBodyBufferSize := by
      rw [hlength]
      decide
    rw [sentBody, if_neg hspooled, longBody, List.take_replicate]
    rfl
  have hmeasured : decodedLen (List.replicate 8192 97) = 8192 := by
    rw [BodyInspection.decodedLen_ascii fun b hb => (List.eq_of_mem_replicate hb) ▸ (by decide),
      List.length_replicate]
  have hlong : ¬ FoundWithin Waf.maxBodyScanLen (List.replicate 8192 97) :=
    not_found_of_not_carries (BodyInspection.not_carries_replicate (by decide))
  have hshort : ¬ FoundWithin Waf.maxBodyScanLen (sentBody clientBodyBufferSize (List.replicate 1 0xFF)) :=
    not_found_of_not_carries (BodyInspection.not_carries_replicate (by decide))
  refine ⟨⟨Or.inl rfl, postRequest_delivers _ _, capped_limit _ _ _, ?_, ?_⟩,
    ⟨Or.inl rfl, postRequest_delivers _ _, capped_limit _ _ _, ?_⟩⟩
  · rw [hlength]
    decide
  · rw [capped_status (hsent.symm ▸ hlong), hsent, hmeasured]
    rfl
  · exact (capped_status hshort).trans (by decide)

end BodyValidation
end GatewayEdge
