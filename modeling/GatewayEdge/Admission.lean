import GatewayEdge.AuthSoundness
import GatewayEdge.Foundation.Utf8Encode
import GatewayEdge.ProcessRequest
import Mathlib.Data.List.TakeWhile

/-!
# Admission — everything a call of the hot path can do

One lemma per stage says what the stage leaves behind as far as the caller can tell: the gauge,
the identity buffers, the WAF file and the clock.  `processRequest_settled` assembles them; later
modules cite it and never unfold a stage.
-/

namespace GatewayEdge
namespace Gateway

open Auth (UserIdentity)
open Foundation

/-- The identity `validate_token` gives this call. -/
def requestIdentity (p : Platform) (w : World) (a : Args) : Option UserIdentity :=
  (Auth.validateToken p.crypto p.env w.worker.config w.worker.snapshot w.clockMs
    (strArg a.authHeader) w.worker.tokenCache).2

/-- The user-id buffer of an admitted request. -/
def userIdWritten (identity : Option UserIdentity) (buf : Option Bytes) : Option Bytes :=
  match identity with
  | some id => writeCString id.userId buf
  | none => buf

/-- The home-region buffer of an admitted request. -/
def homeRegionWritten (identity : Option UserIdentity) (buf : Option Bytes) : Option Bytes :=
  match identity.bind UserIdentity.homeRegion with
  | some home => writeCString home buf
  | none => buf

/-- What a stage that owns a backpressure slot can do: keep it and answer 200 with the identity
buffers filled, or give it back with another status and the identity buffers as they were. -/
structure Settled (identity : Option UserIdentity) (w : World) (out : OutBuffers) (r : Outcome) :
    Prop where
  clock : r.world.clockMs = w.clockMs
  waf : r.world.shm.waf = w.shm.waf
  gauge : r.world.worker.inFlight = w.worker.inFlight - (if r.status = 200 then 0 else 1)
  userId : r.out.userId = if r.status = 200 then userIdWritten identity out.userId else out.userId
  homeRegion : r.out.homeRegion =
    if r.status = 200 then homeRegionWritten identity out.homeRegion else out.homeRegion

namespace Settled

variable {identity : Option UserIdentity} {w w' : World} {out out' : OutBuffers} {r : Outcome}

theorem reject {status : Int} (h : status ≠ 200) :
    Settled identity w out (Gateway.reject w out status) where
  clock := rfl
  waf := rfl
  gauge := by simp [Gateway.reject, World.release, Backpressure.release, h]
  userId := by simp [Gateway.reject, h]
  homeRegion := by simp [Gateway.reject, h]

/-- A stage may first change anything the caller cannot tell. -/
theorem of_step (h : Settled identity w' out' r) (hclock : w'.clockMs = w.clockMs)
    (hwaf : w'.shm.waf = w.shm.waf) (hgauge : w'.worker.inFlight = w.worker.inFlight)
    (huser : out'.userId = out.userId) (hhome : out'.homeRegion = out.homeRegion) :
    Settled identity w out r where
  clock := h.clock.trans hclock
  waf := h.waf.trans hwaf
  gauge := by rw [h.gauge, hgauge]
  userId := by rw [h.userId, huser]
  homeRegion := by rw [h.homeRegion, hhome]

end Settled

/-! ## The stages -/

section Stages

variable (p : Platform) (req : Request) (identity : Option UserIdentity)

theorem selectStage_settled (service : ServiceConfig) (region : String) (w : World)
    (out : OutBuffers) :
    Settled identity w out (selectStage p req identity service region w out) := by
  unfold selectStage
  dsimp only
  split
  · exact
      { clock := rfl
        waf := rfl
        gauge := by simp
        userId := rfl
        homeRegion := rfl }
  · exact (Settled.reject (by decide)).of_step rfl rfl rfl rfl rfl

theorem quotaStage_settled (service : ServiceConfig) (region : String) (w : World)
    (out : OutBuffers) :
    Settled identity w out (quotaStage p req identity service region w out) := by
  unfold quotaStage
  split
  · dsimp only
    split
    · exact (selectStage_settled p req _ service region _ out).of_step rfl rfl rfl rfl rfl
    · exact (Settled.reject (by decide)).of_step rfl rfl rfl rfl rfl
  · exact selectStage_settled p req _ service region w out

theorem rateLimitStage_settled (service : ServiceConfig) (region : String) (w : World)
    (out : OutBuffers) :
    Settled identity w out (rateLimitStage p req identity service region w out) := by
  unfold rateLimitStage
  dsimp only
  split
  · exact (quotaStage_settled p req identity service region _ out).of_step rfl rfl rfl rfl rfl
  · exact (Settled.reject (by decide)).of_step rfl rfl rfl rfl rfl

theorem policyStage_settled (resolved : Router.ResolvedRoute) (service : ServiceConfig) (w : World)
    (out : OutBuffers) :
    Settled identity w out (policyStage p req identity resolved service w out) := by
  unfold policyStage
  split
  · exact Settled.reject (by decide)
  · dsimp only
    split
    · rename_i v _
      have hstatus : (v.response.1 : Int) ≠ 200 := by
        have := v.response_status
        omega
      exact (Settled.reject hstatus).of_step rfl rfl rfl rfl rfl
    · split
      · exact (Settled.reject (by decide)).of_step rfl rfl rfl rfl rfl
      · exact (rateLimitStage_settled p req identity service resolved.region w _).of_step
          rfl rfl rfl rfl rfl

theorem routeStage_settled (w : World) (out : OutBuffers) :
    Settled identity w out (routeStage p req identity w out) := by
  unfold routeStage
  split
  · rename_i status hroute
    have hstatus : status ≠ 200 := by
      rw [Router.routeRequest_error hroute]
      decide
    exact Settled.reject hstatus
  · split
    · exact Settled.reject (by decide)
    · exact policyStage_settled p req identity _ _ w out

end Stages

/-! ## The call as a whole -/

/-- The inspection this call gets when it reaches the WAF. -/
def requestInspection (p : Platform) (w : World) (a : Args) : Waf.Shm × Waf.WafDecision :=
  Waf.inspect (w.wafContext p) a.request.path a.request.authHeader a.request.userAgent
    a.request.body a.request.clientIp w.shm.waf

/-- Everything a call can do, as far as the caller and the WAF file can tell. -/
structure CallSettled (p : Platform) (w : World) (a : Args) (out : OutBuffers) (r : Outcome) :
    Prop where
  clock : r.world.clockMs = w.clockMs
  gauge : r.world.worker.inFlight = w.worker.inFlight + (if r.status = 200 then 1 else 0)
  userId : r.out.userId =
    if r.status = 200 then userIdWritten (requestIdentity p w a) out.userId else out.userId
  homeRegion : r.out.homeRegion =
    if r.status = 200 then homeRegionWritten (requestIdentity p w a) out.homeRegion
    else out.homeRegion
  waf : r.world.shm.waf = w.shm.waf ∨ r.world.shm.waf = (requestInspection p w a).1
  inspected : r.status = 200 → (requestInspection p w a).2 = .allow ∧
    r.world.shm.waf = (requestInspection p w a).1

/-- The world a request is inspected in, with the WAF file the inspection leaves. -/
def inspectedWorld (w : World) (waf : Waf.Shm) : World :=
  { w with
    shm := { w.shm with waf := waf }
    worker := { w.worker with requestCounter := (w.worker.requestCounter + 1) % 2 ^ 64 } }

/-- The buffers once the request id is written. -/
def numberedOut (w : World) (out : OutBuffers) : OutBuffers :=
  { out with reqId := writeCString (formatRequestId w.worker.pid w.worker.requestCounter) out.reqId }

/-- The request id and the counter are not read by the inspection. -/
theorem wafStage_of_inspection {p : Platform} {w : World} {a : Args} {waf : Waf.Shm}
    {decision : Waf.WafDecision} (h : requestInspection p w a = (waf, decision)) (out : OutBuffers) :
    (∀ status reason, decision = .block status reason →
      wafStage p a.request w out = reject (inspectedWorld w waf) (numberedOut w out) status) ∧
    (decision = .allow →
      wafStage p a.request w out =
        authStage p a.request (inspectedWorld w waf) (numberedOut w out)) := by
  unfold wafStage
  dsimp only
  generalize hinspect : Waf.inspect _ _ _ _ _ _ _ = r
  have hr : r = (waf, decision) := hinspect.symm.trans h
  subst hr
  exact ⟨by rintro status reason rfl; rfl, by rintro rfl; rfl⟩

theorem wafStage_settled (p : Platform) (w : World) (a : Args) (out : OutBuffers) :
    let r := wafStage p a.request w out
    r.world.clockMs = w.clockMs ∧
    r.world.worker.inFlight = w.worker.inFlight - (if r.status = 200 then 0 else 1) ∧
    (r.out.userId =
      if r.status = 200 then userIdWritten (requestIdentity p w a) out.userId else out.userId) ∧
    (r.out.homeRegion =
      if r.status = 200 then homeRegionWritten (requestIdentity p w a) out.homeRegion
      else out.homeRegion) ∧
    r.world.shm.waf = (requestInspection p w a).1 ∧
    (r.status = 200 → (requestInspection p w a).2 = .allow) := by
  dsimp only
  rcases hinspected : requestInspection p w a with ⟨waf, decision⟩
  rcases wafStage_of_inspection hinspected out with ⟨hblock, hallow⟩
  cases decision with
  | block status reason =>
      rw [hblock status reason rfl]
      have hstatus : (status : Int) ≠ 200 := by
        have := (Waf.inspect_block _ hinspected).2
        omega
      simp [reject, World.release, Backpressure.release, hstatus, inspectedWorld, numberedOut]
  | allow =>
      rw [hallow rfl]
      -- The identity is computed from fields no earlier stage has touched.
      have hlater := routeStage_settled p a.request (requestIdentity p w a)
        { inspectedWorld w waf with
          worker := { (inspectedWorld w waf).worker with
            tokenCache := (Auth.validateToken p.crypto p.env w.worker.config w.worker.snapshot
              w.clockMs (strArg a.authHeader) w.worker.tokenCache).1 } }
        (numberedOut w out)
      exact ⟨hlater.clock, hlater.gauge, hlater.userId, hlater.homeRegion, hlater.waf,
        fun _ => rfl⟩

theorem processRequest_settled (p : Platform) (w : World) (a : Args) (out : OutBuffers) :
    CallSettled p w a out (processRequest p w a out) := by
  have hgauge := Backpressure.acquire_fst w.worker.config (w.globalState p) w.worker.inFlight
  unfold processRequest
  rcases hacquire : Backpressure.acquire w.worker.config (w.globalState p) w.worker.inFlight with
    ⟨inFlight, admitted⟩
  rw [hacquire] at hgauge
  cases admitted with
  | false =>
      exact
        { clock := rfl
          gauge := by simpa using hgauge
          userId := rfl
          homeRegion := rfl
          waf := Or.inl rfl
          inspected := fun h => by simp at h }
  | true =>
      have htaken : inFlight = w.worker.inFlight + 1 := by simpa using hgauge
      dsimp only
      split
      · exact
          { clock := rfl
            gauge := by simp [reject, World.release, Backpressure.release, htaken]
            userId := rfl
            homeRegion := rfl
            waf := Or.inl rfl
            inspected := fun h => by simp [reject] at h }
      · rcases wafStage_settled p { w with worker := { w.worker with inFlight := inFlight } } a out
          with ⟨hclock, hslot, huser, hhome, hwaf, hallow⟩
        exact
          { clock := hclock
            gauge := by
              rw [hslot, htaken]
              split <;> simp
            userId := huser
            homeRegion := hhome
            waf := Or.inr hwaf
            inspected := fun h => ⟨hallow h, hwaf⟩ }

/-- With the global breaker OPEN a call is refused before it touches anything. -/
theorem processRequest_of_open (p : Platform) (w : World) (a : Args) (out : OutBuffers)
    (hopen : w.globalState p = CircuitBreaker.stateOpen) :
    processRequest p w a out = { world := w, out := out, status := 503 } := by
  unfold processRequest
  rw [hopen, Backpressure.acquire_of_open]

/-! ## Breaker slots -/

/-- The outcome leaves breaker slot `i` as it is, unless it is OPEN. -/
def KeepsSlot (i : Nat) (w : World) (r : Outcome) : Prop :=
  (w.shm.cb i).state ≠ CircuitBreaker.stateOpen → r.world.shm.cb i = w.shm.cb i

theorem KeepsSlot.of_step {i : Nat} {w w' : World} {r : Outcome} (h : KeepsSlot i w' r)
    (hcb : w'.shm.cb = w.shm.cb) : KeepsSlot i w r := by
  unfold KeepsSlot at *
  rwa [hcb] at h

theorem reject_keepsSlot (i : Nat) (w : World) (out : OutBuffers) (status : Int) :
    KeepsSlot i w (reject w out status) := fun _ => rfl

section Stages

variable (p : Platform) (req : Request) (identity : Option UserIdentity) (i : Nat)

/-- Only the last stage asks the breaker about upstreams. -/
theorem selectStage_keepsSlot (service : ServiceConfig) (region : String) (w : World)
    (out : OutBuffers) : KeepsSlot i w (selectStage p req identity service region w out) := by
  intro hslot
  have hkept : (Selector.selectUpstream (w.selectContext p) service region
      (identity.map UserIdentity.userId) req.canaryHint w.usability).1.cb i = w.shm.cb i :=
    Selector.selectUpstream_of_not_open service region _ _ hslot
  unfold selectStage
  dsimp only
  split
  · exact hkept
  · exact hkept

theorem quotaStage_keepsSlot (service : ServiceConfig) (region : String) (w : World)
    (out : OutBuffers) : KeepsSlot i w (quotaStage p req identity service region w out) := by
  unfold quotaStage
  split
  · dsimp only
    split
    · exact (selectStage_keepsSlot p req _ i service region _ out).of_step rfl
    · exact (reject_keepsSlot i _ out 429).of_step rfl
  · exact selectStage_keepsSlot p req _ i service region w out

theorem rateLimitStage_keepsSlot (service : ServiceConfig) (region : String) (w : World)
    (out : OutBuffers) : KeepsSlot i w (rateLimitStage p req identity service region w out) := by
  unfold rateLimitStage
  dsimp only
  split
  · exact (quotaStage_keepsSlot p req identity i service region _ out).of_step rfl
  · exact (reject_keepsSlot i _ out 429).of_step rfl

theorem policyStage_keepsSlot (resolved : Router.ResolvedRoute) (service : ServiceConfig) (w : World)
    (out : OutBuffers) : KeepsSlot i w (policyStage p req identity resolved service w out) := by
  unfold policyStage
  split
  · exact reject_keepsSlot i w out 503
  · dsimp only
    split
    · exact reject_keepsSlot i w _ _
    · split
      · exact reject_keepsSlot i w _ 401
      · exact rateLimitStage_keepsSlot p req identity i service resolved.region w _

theorem routeStage_keepsSlot (w : World) (out : OutBuffers) :
    KeepsSlot i w (routeStage p req identity w out) := by
  unfold routeStage
  split
  · exact reject_keepsSlot i w out _
  · split
    · exact reject_keepsSlot i w out 404
    · exact policyStage_keepsSlot p req identity i _ _ w out

theorem wafStage_keepsSlot (w : World) (out : OutBuffers) :
    KeepsSlot i w (wafStage p req w out) := by
  unfold wafStage authStage
  dsimp only
  split
  · exact (reject_keepsSlot i _ _ _).of_step rfl
  · exact (routeStage_keepsSlot p req _ i _ _).of_step rfl

end Stages

/-- A call moves no breaker slot that is not OPEN. -/
theorem processRequest_keepsSlot (p : Platform) (w : World) (a : Args) (out : OutBuffers) (i : Nat) :
    KeepsSlot i w (processRequest p w a out) := by
  unfold processRequest
  split
  · exact fun _ => rfl
  · dsimp only
    split
    · exact (reject_keepsSlot i _ out 500).of_step rfl
    · exact (wafStage_keepsSlot p a.request i _ out).of_step rfl

/-! ## What the caller reads back -/

/-- The buffer `write_c_string` leaves when there is room for the NUL. -/
theorem writeCString_of_pos {s : String} {buf : Bytes} (hlen : 0 < buf.length) :
    writeCString s (some buf) = some ((strBytes s).take (buf.length - 1) ++ [0] ++
      buf.drop (min (strBytes s).length (buf.length - 1) + 1)) := by
  have htake : (strBytes s).take (min (strBytes s).length (buf.length - 1)) =
      (strBytes s).take (buf.length - 1) := by
    rw [Nat.min_comm, ← List.take_take, List.take_length]
  unfold writeCString
  rw [Option.map_some, if_neg (by omega)]
  dsimp only
  rw [htake]

/-- A buffer keeps its size. -/
theorem length_of_writeCString {s : String} {buf b : Bytes} (hlen : 0 < buf.length)
    (h : writeCString s (some buf) = some b) : b.length = buf.length := by
  rw [writeCString_of_pos hlen] at h
  have hb := congrArg List.length (Option.some.inj h)
  simp only [List.length_append, List.length_take, List.length_singleton,
    List.length_drop] at hb
  omega

/-- Bytes without a NUL are a C string as a whole. -/
theorem cStr_of_no_nul {bs : Bytes} (h : 0 ∉ bs) : cStr bs = bs :=
  List.takeWhile_eq_self_iff.2 fun _ hb => decide_eq_true fun hzero => h (hzero ▸ hb)

/-- An argument that holds the bytes of a string is that string. -/
theorem strArg_strBytes {s : String} (h : '\x00' ∉ s.toList) : strArg (some (strBytes s)) = s := by
  unfold strArg
  dsimp only
  rw [cStr_of_no_nul (zero_notMem_strBytes h), fromUtf8_strBytes, Option.getD_some]

/-- A C string is cut at its first NUL, whatever follows in the buffer. -/
theorem cStr_append_nul (xs rest : Bytes) : cStr (xs ++ [0] ++ rest) = cStr xs := by
  unfold cStr
  induction xs with
  | nil => simp
  | cons x xs ih =>
      by_cases hx : x = 0
      · simp [hx]
      · simpa [hx] using ih

/-- The string read back from a buffer that was just written: what fits of it, up to a NUL. -/
theorem cStr_of_writeCString {s : String} {buf b : Bytes} (hlen : 0 < buf.length)
    (h : writeCString s (some buf) = some b) :
    cStr b = cStr ((strBytes s).take (buf.length - 1)) := by
  rw [writeCString_of_pos hlen] at h
  rw [← Option.some.inj h, cStr_append_nul]

/-! ## A concrete node -/

/-- FxHash on the strings of this node. -/
def sampleHash (s : String) : Nat :=
  if s = "__GLOBAL__" then 3106020217899893933
  else if s = "b:80" then 13483866534836544834
  else if s = "1.2.3.4" then 7442708588637539649
  else if s = "alice" then 6165705118154126636
  else if s = "alice:p2c" then 6938923522199702340
  else if s = "anonymous" then 5485585155539557747
  else if s = "anonymous:p2c" then 3303321986875560359
  else 0

/-- An empty environment, and a router that is only asked for literal paths. -/
def samplePlatform : Platform where
  fxHash := sampleHash
  crypto := Auth.sampleCrypto
  matchit := fun tree path => tree.lookup path
  parseJson := fun _ => none
  env := fun _ => none

/-- One route to a service that serves anonymous requests too. -/
def sampleConfig : GatewayConfig where
  jwtSecret := "k"
  expectedIssuer := "i"
  expectedAudience := "a"
  services :=
    [("s",
      { name := "s"
        rateLimitMax := 0
        regionalUpstreams := [("US", [{ name := "b", address := "b:80" }])]
        requireAuth := false })]
  routes := [{ pathPrefix := "/a", serviceName := "s" }]

/-- A worker that has served nothing, on freshly mapped files. -/
def sampleWorld : World where
  clockMs := 1700000000000
  shm :=
    { cb := fun _ => {}
      health := fun _ => {}
      rateLimit := fun _ => 0
      waf := { blocks := 0, ip := fun _ => 0 }
      telemetry := {} }
  worker :=
    { pid := 1
      inFlight := 0
      requestCounter := 0
      tokenCache := Lru.empty
      ema := fun _ => none
      rlTx := none
      config := sampleConfig
      router := Router.updateRouter sampleConfig
      snapshot := Revocation.RevocationSnapshot.empty
      posture := Sentinel.l0Normal
      quotaConnected := false }
  quotaCounters := fun _ => 0

theorem nul_notMem_sampleBearer : '\x00' ∉ ("Bearer " ++ Auth.sampleToken).toList := by
  have hpayload : '\x00' ∉ Auth.samplePayloadB64.toList := by simp [Auth.samplePayloadB64]
  have hsignature : '\x00' ∉ Auth.sampleSignatureB64.toList := by simp [Auth.sampleSignatureB64]
  simp [Auth.sampleToken, Auth.sampleHeaderB64, hpayload, hsignature]

/-- Alice is known to every worker that has the sample keys, has cached nothing and knows of no
revocation. -/
theorem requestIdentity_sampleToken {w : World} {a : Args}
    (hauth : a.authHeader = some (strBytes ("Bearer " ++ Auth.sampleToken)))
    (hkey : w.worker.config.jwtSecret = "k") (hiss : w.worker.config.expectedIssuer = "i")
    (haud : w.worker.config.expectedAudience = "a")
    (hsnapshot : w.worker.snapshot = Revocation.RevocationSnapshot.empty)
    (hcache : w.worker.tokenCache = Lru.empty) (hclock : w.clockMs / 1000 < 2000000000) :
    requestIdentity samplePlatform w a = some { userId := "alice", homeRegion := some "US" } := by
  have hchecked : Auth.checkToken Auth.sampleCrypto w.worker.config Revocation.RevocationSnapshot.empty
      (w.clockMs / 1000) Auth.sampleToken = some _ :=
    AuthSoundness.checkToken_sampleToken hkey hiss haud hclock (fun _ => rfl) rfl
  unfold requestIdentity
  rw [hauth, strArg_strBytes nul_notMem_sampleBearer, hsnapshot, hcache]
  exact (AuthSoundness.validateToken_of_miss rfl rfl).trans
    (congrArg (Option.map Auth.Checked.identity) hchecked)

/-- A request for `/a` without a token. -/
def anonymousArgs : Args where
  authHeader := some []
  path := some (strBytes "/a")
  userAgent := none
  body := none
  clientIp := some (strBytes "1.2.3.4")
  canaryHint := none
  contentType := none
  quotaIo := []

def anonymousOut : OutBuffers where
  region := some (List.replicate 16 0)
  upstream := some (List.replicate 256 0)
  reqId := none
  userId := none
  homeRegion := none
  tier := none

end Gateway
end GatewayEdge
