import GatewayEdge.Auth
import GatewayEdge.Foundation.Run
import Mathlib.Data.Option.Basic

/-!
# AuthSoundness — what an accepted token has passed, and when

The cached path skips most of the checks of the uncached one, while config and snapshot change
underneath.  Every cache entry is therefore tied to a past state of the run in which its token
passed the complete check, and an entry lives for a bounded time only.
-/

namespace GatewayEdge
namespace AuthSoundness

open Auth
open Foundation
open Revocation (RevocationSnapshot TvStatus isRevoked isRevoked_iff isRevoked_of_unlisted tvStatus snapshotStale Names)

/-! ## What a complete check is -/

/-- What a token says, once its parts are decoded. -/
structure TokenParts where
  header : JwtHeader
  claims : JwtClaims
  message : Bytes
  signature : Bytes
  payload : Bytes

def readToken (c : Crypto) (token : String) : Option TokenParts := do
  let (headerB64, payloadB64, sigB64) ← splitToken token
  let header ← (c.base64Decode headerB64).bind c.parseHeader
  let signature ← c.base64Decode sigB64
  let payload ← c.base64Decode payloadB64
  let claims ← c.parseClaims payload
  some
    { header := header
      claims := claims
      message := signedMessage headerB64 payloadB64
      signature := signature
      payload := payload }

/-- The key a `kid` chooses. -/
def KeyFor (cfg : GatewayConfig) (kid : String) (secret : Bytes) : Prop :=
  (kid = "" ∧ secret = strBytes cfg.jwtSecret) ∨
    (kid ≠ "" ∧ ∃ key, cfg.jwtKeys.lookup kid = some key ∧ secret = strBytes key)

/-- No CR, LF or NUL. -/
def HeaderSafe (s : String) : Prop := '\r' ∉ s.toList ∧ '\n' ∉ s.toList ∧ '\x00' ∉ s.toList

/-- The token passes every check against this config and snapshot at time `now`, and `id` is the
identity it stands for. -/
structure FullyValid (c : Crypto) (cfg : GatewayConfig) (snap : RevocationSnapshot) (now : Nat)
    (token : String) (parts : TokenParts) (id : UserIdentity) : Prop where
  read : readToken c token = some parts
  algorithm : parts.header.alg = "HS256"
  signed : ∃ secret, KeyFor cfg parts.header.kid secret ∧
    c.hmacSha256 secret parts.message = parts.signature
  unexpired : ∃ exp, parts.claims.exp = some exp ∧ now < exp
  notBefore : ∀ nbf, parts.claims.nbf = some nbf → nbf ≤ now
  recent : ∀ iat, parts.claims.iat = some iat → now ≤ iat + 86400
  issuer : parts.claims.iss = some cfg.expectedIssuer
  audience : parts.claims.aud = some cfg.expectedAudience
  notRevoked : ∀ key, Names parts.claims.jti (tokenHashHex c token) key →
    snap.listed now key = false
  userId : rawUserId c parts.claims parts.payload = some id.userId
  homeRegion : parts.claims.homeRegion = id.homeRegion
  userIdSafe : HeaderSafe id.userId
  homeRegionSafe : ∀ home, id.homeRegion = some home → HeaderSafe home

theorem splitToken_append {header payload sig : String} (hheader : '.' ∉ header.toList)
    (hpayload : '.' ∉ payload.toList) :
    splitToken (header ++ "." ++ payload ++ "." ++ sig) = some (header, payload, sig) := by
  have htoken : (header ++ "." ++ payload ++ "." ++ sig).toList =
      header.toList ++ '.' :: (payload.toList ++ '.' :: sig.toList) := by
    simp
  unfold splitToken
  rw [htoken, splitFirst_append hheader]
  dsimp only
  rw [splitFirst_append hpayload]
  simp

/-! ## The code's check implies it -/

theorem keyFor_of_signingSecret {cfg : GatewayConfig} {header : JwtHeader} {secret : Bytes}
    (h : signingSecret cfg header = some secret) : KeyFor cfg header.kid secret := by
  unfold signingSecret at h
  split at h
  · rename_i hkid
    exact Or.inl ⟨hkid, (Option.some.inj h).symm⟩
  · rename_i hkid
    rcases Option.map_eq_some_iff.1 h with ⟨key, hkey, hsecret⟩
    exact Or.inr ⟨hkid, key, hkey, hsecret.symm⟩

theorem sanitizeHeaderVal_eq_some {val safe : String} (h : sanitizeHeaderVal val = some safe) :
    val = safe ∧ HeaderSafe safe := by
  unfold sanitizeHeaderVal at h
  split at h
  · cases h
  · rename_i hclean
    have hsame : val = safe := Option.some.inj h
    subst hsame
    rcases not_or.1 hclean with ⟨hcr, hrest⟩
    exact ⟨rfl, hcr, not_or.1 hrest⟩

theorem sanitizeHeaderVal_of_safe {val : String} (h : HeaderSafe val) :
    sanitizeHeaderVal val = some val :=
  if_neg (not_or.2 ⟨h.1, not_or.2 h.2⟩)

/-- The identity is the token's, and safe to put into a header. -/
theorem buildIdentity_eq_some {c : Crypto} {claims : JwtClaims} {payload : Bytes}
    {id : UserIdentity} (h : buildIdentity c claims payload = some id) :
    rawUserId c claims payload = some id.userId ∧
      claims.homeRegion = id.homeRegion ∧ HeaderSafe id.userId ∧
      ∀ home, id.homeRegion = some home → HeaderSafe home := by
  unfold buildIdentity at h
  rcases Option.bind_eq_some_iff.1 h with ⟨raw, hraw, h⟩
  rcases Option.bind_eq_some_iff.1 h with ⟨userId, huser, h⟩
  rcases sanitizeHeaderVal_eq_some huser with ⟨rfl, huserSafe⟩
  cases hregion : claims.homeRegion with
  | none =>
      rw [hregion] at h
      cases h
      exact ⟨hraw, rfl, huserSafe, fun home hhome => by cases hhome⟩
  | some region =>
      rw [hregion] at h
      rcases Option.bind_eq_some_iff.1 h with ⟨home, hhome, h⟩
      rcases sanitizeHeaderVal_eq_some hhome with ⟨rfl, hhomeSafe⟩
      cases h
      exact ⟨hraw, rfl, huserSafe, fun r hr => Option.some.inj hr ▸ hhomeSafe⟩

theorem claimsAccepted_sound {c : Crypto} {cfg : GatewayConfig} {snap : RevocationSnapshot}
    {now exp : Nat} {token : String} {claims : JwtClaims}
    (h : claimsAccepted c cfg snap now token claims exp = true) :
    now < exp ∧ (∀ nbf, claims.nbf = some nbf → nbf ≤ now) ∧
      (∀ iat, claims.iat = some iat → now ≤ iat + 86400) ∧
      claims.iss = some cfg.expectedIssuer ∧ claims.aud = some cfg.expectedAudience ∧
      ∀ key, Names claims.jti (tokenHashHex c token) key → snap.listed now key = false := by
  unfold claimsAccepted at h
  simp only [Bool.and_eq_true, decide_eq_true_eq, beq_iff_eq, Bool.not_eq_true'] at h
  rcases h with ⟨⟨⟨⟨⟨hexp, hnbf⟩, hiat⟩, hiss⟩, haud⟩, hrevoked⟩
  refine ⟨hexp, ?_, ?_, hiss, haud, ?_⟩
  · intro nbf hclaim
    simpa [hclaim] using hnbf
  · intro iat hclaim
    -- A sum that wraps around is smaller, so the code's test is the stricter one.
    rw [hclaim, Option.any_some, decide_eq_false_iff_not] at hiat
    exact le_trans (Nat.le_of_not_lt hiat) (Nat.mod_le _ _)
  · intro key hnames
    by_contra hlisted
    have htrue : isRevoked snap now claims.jti (tokenHashHex c token) = true :=
      isRevoked_iff.2 ⟨key, hnames, by simpa using hlisted⟩
    rw [htrue] at hrevoked
    cases hrevoked

/-- The steps of `checkToken`, said of the decoded token. -/
structure Checks (c : Crypto) (cfg : GatewayConfig) (snap : RevocationSnapshot) (now : Nat)
    (token : String) (parts : TokenParts) (checked : Checked) : Prop where
  read : readToken c token = some parts
  algorithm : parts.header.alg = "HS256"
  signed : ∃ secret, signingSecret cfg parts.header = some secret ∧
    c.hmacSha256 secret parts.message = parts.signature
  exp : parts.claims.exp = some checked.exp
  accepted : claimsAccepted c cfg snap now token parts.claims checked.exp = true
  version : versionStale c snap parts.claims parts.payload = false
  identity : buildIdentity c parts.claims parts.payload = some checked.identity
  tv : parts.claims.tv = checked.tv

/-- `checkToken` reads the payload after the signature is verified only, but accepts exactly what
passes the steps on the token read at once. -/
theorem checkToken_eq_some_iff {c : Crypto} {cfg : GatewayConfig} {snap : RevocationSnapshot}
    {now : Nat} {token : String} {checked : Checked} :
    checkToken c cfg snap now token = some checked ↔
      ∃ parts, Checks c cfg snap now token parts checked := by
  unfold checkToken
  simp only [Option.bind_eq_bind, Option.bind_eq_some_iff, Option.guard_eq_some', Prod.exists]
  constructor
  · rintro ⟨headerB64, payloadB64, sigB64, hsplit, headerBytes, hheaderBytes, header, hheader, -, halg,
      secret, hsecret, provided, hprovided, -, hmac, payloadBytes, hpayload, claims, hclaims, exp, hexp,
      -, haccepted, -, hversion, identity, hidentity, hchecked⟩
    cases hchecked
    refine ⟨{ header := header
              claims := claims
              message := signedMessage headerB64 payloadB64
              signature := provided
              payload := payloadBytes }, ?_⟩
    exact
      { read := by
          simp [readToken, hsplit, hheaderBytes, hheader, hprovided, hpayload, hclaims]
        algorithm := halg
        signed := ⟨secret, hsecret, hmac⟩
        exp := hexp
        accepted := haccepted
        version := hversion
        identity := hidentity
        tv := rfl }
  · rintro ⟨parts, h⟩
    have hread := h.read
    unfold readToken at hread
    simp only [Option.bind_eq_bind, Option.bind_eq_some_iff, Prod.exists] at hread
    rcases hread with ⟨headerB64, payloadB64, sigB64, hsplit, header, ⟨headerBytes, hheaderBytes,
      hheader⟩, provided, hprovided, payloadBytes, hpayload, claims, hclaims, hparts⟩
    cases hparts
    rcases h.signed with ⟨secret, hsecret, hmac⟩
    refine ⟨headerB64, payloadB64, sigB64, hsplit, headerBytes, hheaderBytes, header, hheader, (),
      h.algorithm, secret, hsecret, provided, hprovided, (), hmac, payloadBytes, hpayload, claims,
      hclaims, checked.exp, h.exp, (), h.accepted, (), h.version, checked.identity, h.identity, ?_⟩
    have htv : claims.tv = checked.tv := h.tv
    rw [htv]

/-- What `checkToken` accepts is fully valid, and the version of its user is not stale. -/
theorem checkToken_sound {c : Crypto} {cfg : GatewayConfig} {snap : RevocationSnapshot} {now : Nat}
    {token : String} {checked : Checked} (h : checkToken c cfg snap now token = some checked) :
    ∃ parts, FullyValid c cfg snap now token parts checked.identity ∧
      parts.claims.exp = some checked.exp ∧ parts.claims.tv = checked.tv ∧
      (checked.identity.userId ≠ "" →
        tvStatus snap checked.identity.userId checked.tv = .valid) := by
  rcases checkToken_eq_some_iff.1 h with ⟨parts, h⟩
  rcases h.signed with ⟨secret, hsecret, hmac⟩
  rcases claimsAccepted_sound h.accepted with ⟨hlive, hnbf, hiat, hiss, haud, hrevoked⟩
  rcases buildIdentity_eq_some h.identity with ⟨huser, hhome, huserSafe, hhomeSafe⟩
  refine ⟨parts, ?_, h.exp, h.tv, ?_⟩
  · exact
      { read := h.read
        algorithm := h.algorithm
        signed := ⟨secret, keyFor_of_signingSecret hsecret, hmac⟩
        unexpired := ⟨checked.exp, h.exp, hlive⟩
        notBefore := hnbf
        recent := hiat
        issuer := hiss
        audience := haud
        notRevoked := hrevoked
        userId := huser
        homeRegion := hhome
        userIdSafe := huserSafe
        homeRegionSafe := hhomeSafe }
  · intro hne
    -- The check looks at the raw user id, which sanitising leaves as it is.
    have hstale : tvStatus snap checked.identity.userId checked.tv ≠ .stale := by
      simpa [versionStale, huser, hne, h.tv] using h.version
    cases hstatus : tvStatus snap checked.identity.userId checked.tv with
    | valid => rfl
    | stale => exact absurd hstatus hstale

/-! ## One call of `validate_token` -/

/-- The entry a successful check at `now` leaves in the cache. -/
def entryOf (env : EnvVars) (now : Nat) (checked : Checked) : CachedToken where
  identity := checked.identity
  expiresAt := effectiveCacheExpiry checked.exp now (cacheTtlSecs env)
  tv := checked.tv

section OneCall

variable {c : Crypto} {env : EnvVars} {cfg : GatewayConfig} {snap : RevocationSnapshot}
  {token : String} {cache : TokenCache} {e : String × CachedToken} {id : UserIdentity}

theorem mem_validateUncached {now : Nat}
    (h : e ∈ (validateUncached c env cfg snap now token cache).1) :
    e ∈ cache ∨ ∃ checked, checkToken c cfg snap now token = some checked ∧
      e = (token, entryOf env now checked) := by
  unfold validateUncached at h
  cases hcheck : checkToken c cfg snap now token with
  | none =>
      rw [hcheck] at h
      exact Or.inl h
  | some checked =>
      rw [hcheck] at h
      rcases Lru.mem_of_mem_put h with hnew | hold
      · exact Or.inr ⟨checked, rfl, hnew⟩
      · exact Or.inl hold

/-- Where the entries of the cache after a call come from. -/
theorem mem_validateToken {nowMs : Nat} {authHeader : String}
    (h : e ∈ (validateToken c env cfg snap nowMs authHeader cache).1) :
    e ∈ cache ∨ ∃ token checked, checkToken c cfg snap (nowMs / 1000) token = some checked ∧
      e = (token, entryOf env (nowMs / 1000) checked) := by
  unfold validateToken at h
  split at h
  · exact Or.inl h
  · rename_i token _
    dsimp only at h
    split at h
    · exact Or.inl h
    · have hget : ∀ {e}, e ∈ (cache.get token).1 → e ∈ cache := Lru.mem_of_mem_get
      split at h
      · rename_i cache' entry hhit
        rw [hhit] at hget
        split at h
        · split at h
          · exact Or.inl (hget (Lru.mem_of_mem_pop h))
          · exact Or.inl (hget h)
        · -- The entry has expired: it is dropped and the token checked afresh.
          rcases mem_validateUncached h with hpop | ⟨checked, hcheck, hnew⟩
          · exact Or.inl (hget (Lru.mem_of_mem_pop hpop))
          · exact Or.inr ⟨token, checked, hcheck, hnew⟩
      · rename_i cache' hmiss
        rw [hmiss] at hget
        rcases mem_validateUncached h with hold | ⟨checked, hcheck, hnew⟩
        · exact Or.inl (hget hold)
        · exact Or.inr ⟨token, checked, hcheck, hnew⟩

theorem validateUncached_snd {now : Nat} :
    (validateUncached c env cfg snap now token cache).2 =
      (checkToken c cfg snap now token).map Checked.identity := by
  unfold validateUncached
  cases checkToken c cfg snap now token with
  | none => rfl
  | some checked => rfl

theorem validateUncached_eq_some {now : Nat}
    (h : (validateUncached c env cfg snap now token cache).2 = some id) :
    ∃ checked, checkToken c cfg snap now token = some checked ∧ checked.identity = id := by
  rw [validateUncached_snd] at h
  exact Option.map_eq_some_iff.1 h

/-- Why a call accepts: a live entry whose version is not stale, or a complete check just now; in
either case the snapshot is fresh if it has to be. -/
theorem validateToken_eq_some {nowMs : Nat}
    (h : (validateToken c env cfg snap nowMs ("Bearer " ++ token) cache).2 = some id) :
    (revocationFailClosed env = true → snapshotStale env nowMs snap = false) ∧
      ((∃ entry, (token, entry) ∈ cache ∧ nowMs / 1000 < entry.expiresAt ∧ entry.identity = id ∧
          tvStatus snap id.userId entry.tv ≠ .stale) ∨
        ∃ checked, checkToken c cfg snap (nowMs / 1000) token = some checked ∧
          checked.identity = id) := by
  unfold validateToken at h
  rw [stripStart_append] at h
  dsimp only at h
  split at h
  · cases h
  · rename_i hguard
    have hfresh : revocationFailClosed env = true → snapshotStale env nowMs snap = false := by
      intro hclosed
      simpa [hclosed] using hguard
    refine ⟨hfresh, ?_⟩
    split at h
    · rename_i cache' entry hget
      have hentry : (token, entry) ∈ cache := Lru.mem_of_get (by rw [hget])
      split at h
      · rename_i hlive
        split at h
        · cases h
        · rename_i hversion
          have hid : entry.identity = id := Option.some.inj h
          exact Or.inl ⟨entry, hentry, hlive, hid, hid ▸ hversion⟩
      · exact Or.inr (validateUncached_eq_some h)
    · exact Or.inr (validateUncached_eq_some h)

/-- A token that is not cached stands and falls with the complete check. -/
theorem validateToken_of_miss {nowMs : Nat}
    (hguard : (revocationFailClosed env && snapshotStale env nowMs snap) = false)
    (hmiss : (cache.get token).2 = none) :
    (validateToken c env cfg snap nowMs ("Bearer " ++ token) cache).2 =
      (checkToken c cfg snap (nowMs / 1000) token).map Checked.identity := by
  unfold validateToken
  rw [stripStart_append]
  dsimp only
  rw [hguard, if_neg Bool.false_ne_true]
  rcases hget : cache.get token with ⟨cache', entry⟩
  rw [hget] at hmiss
  have hentry : entry = none := hmiss
  subst hentry
  exact validateUncached_snd

/-- A live entry whose version is not stale is all a cached token needs. -/
theorem validateToken_of_hit {nowMs : Nat} {entry : CachedToken}
    (hguard : (revocationFailClosed env && snapshotStale env nowMs snap) = false)
    (hhit : (cache.get token).2 = some entry) (hlive : nowMs / 1000 < entry.expiresAt)
    (hversion : tvStatus snap entry.identity.userId entry.tv = .valid) :
    (validateToken c env cfg snap nowMs ("Bearer " ++ token) cache).2 = some entry.identity := by
  have hfresh : ¬ tvStatus snap entry.identity.userId entry.tv = .stale := by
    rw [hversion]
    decide
  unfold validateToken
  rw [stripStart_append]
  dsimp only
  rw [hguard, if_neg Bool.false_ne_true]
  rcases hget : cache.get token with ⟨cache', found⟩
  rw [hget] at hhit
  have hfound : found = some entry := hhit
  subst hfound
  dsimp only
  rw [if_pos hlive, if_neg hfresh]

/-- A token that passes the complete check is put into the cache. -/
theorem validateToken_fst_of_miss {nowMs : Nat} {checked : Checked}
    (hguard : (revocationFailClosed env && snapshotStale env nowMs snap) = false)
    (hmiss : cache.get token = (cache, none))
    (hchecked : checkToken c cfg snap (nowMs / 1000) token = some checked) :
    (validateToken c env cfg snap nowMs ("Bearer " ++ token) cache).1 =
      cache.put token (entryOf env (nowMs / 1000) checked) := by
  unfold validateToken
  rw [stripStart_append]
  dsimp only
  rw [hguard, if_neg Bool.false_ne_true, hmiss]
  dsimp only
  unfold validateUncached
  rw [hchecked]
  rfl

end OneCall

/-! ## Runs of a worker -/

/-- What the validation of one worker works on. -/
structure State where
  clockMs : Nat
  cfg : GatewayConfig
  snap : RevocationSnapshot
  cache : TokenCache

def State.nowSecs (s : State) : Nat := s.clockMs / 1000

/-- A call, a config reload, a snapshot publication, the clock moving on, an entry evicted. -/
inductive Event
  | validate (authHeader : String)
  | reload (cfg : GatewayConfig)
  | publish (snap : RevocationSnapshot)
  | tick (clockMs : Nat)
  | evict (token : String)

def State.validate (c : Crypto) (env : EnvVars) (s : State) (authHeader : String) :
    TokenCache × Option UserIdentity :=
  validateToken c env s.cfg s.snap s.clockMs authHeader s.cache

def step (c : Crypto) (env : EnvVars) (s : State) : Event → Option State
  | .validate authHeader => some { s with cache := (s.validate c env authHeader).1 }
  | .reload cfg => some { s with cfg := cfg }
  | .publish snap => some { s with snap := snap }
  | .tick clockMs => if s.clockMs ≤ clockMs then some { s with clockMs := clockMs } else none
  | .evict token => some { s with cache := s.cache.pop token }

section Runs

variable {c : Crypto} {env : EnvVars} {s₀ s : State} {es : List Event}

/-- The entry was made by a complete check in some state of the run. -/
def Justified (c : Crypto) (env : EnvVars) (s₀ : State) (es : List Event) (s : State)
    (token : String) (entry : CachedToken) : Prop :=
  ∃ parts exp, parts.claims.exp = some exp ∧ parts.claims.tv = entry.tv ∧
    Visited (step c env) (fun m => m.nowSecs ≤ s.nowSecs ∧
      entry.expiresAt = effectiveCacheExpiry exp m.nowSecs (cacheTtlSecs env) ∧
      FullyValid c m.cfg m.snap m.nowSecs token parts entry.identity) s₀ es

/-- Every cache entry is justified. -/
def CacheSound (c : Crypto) (env : EnvVars) (s₀ : State) (es : List Event) (s : State) : Prop :=
  ∀ token entry, (token, entry) ∈ s.cache → Justified c env s₀ es s token entry

/-- A justification outlives the step that comes next. -/
theorem Justified.snoc {token : String} {entry : CachedToken} {s' : State}
    (h : Justified c env s₀ es s token entry) (e : Event) (hclock : s.nowSecs ≤ s'.nowSecs) :
    Justified c env s₀ (es ++ [e]) s' token entry := by
  rcases h with ⟨parts, exp, hexp, htv, hvisited⟩
  exact ⟨parts, exp, hexp, htv, (hvisited.mono fun m hm => ⟨le_trans hm.1 hclock, hm.2⟩).append [e]⟩

theorem nowSecs_step {e : Event} {s' : State} (hs : step c env s e = some s') :
    s.nowSecs ≤ s'.nowSecs := by
  cases e with
  | tick clockMs =>
      unfold step at hs
      dsimp only at hs
      split at hs
      · rename_i hle
        cases hs
        exact Nat.div_le_div_right hle
      · cases hs
  | _ =>
      cases hs
      exact le_rfl

/-- What a step leaves in the cache was there before or has just been checked. -/
theorem mem_cache_step {e : Event} {s' : State} (hs : step c env s e = some s') {token : String}
    {entry : CachedToken} (hmem : (token, entry) ∈ s'.cache) :
    (token, entry) ∈ s.cache ∨ ∃ checked,
      checkToken c s.cfg s.snap s.nowSecs token = some checked ∧
        entry = entryOf env s.nowSecs checked := by
  cases e with
  | validate authHeader =>
      cases hs
      rcases mem_validateToken hmem with hold | ⟨token', checked, hcheck, hnew⟩
      · exact Or.inl hold
      · rcases Prod.mk.inj hnew with ⟨rfl, hentry⟩
        exact Or.inr ⟨checked, hcheck, hentry⟩
  | reload cfg =>
      cases hs
      exact Or.inl hmem
  | publish snap =>
      cases hs
      exact Or.inl hmem
  | tick clockMs =>
      unfold step at hs
      dsimp only at hs
      split at hs
      · cases hs
        exact Or.inl hmem
      · cases hs
  | evict token' =>
      cases hs
      exact Or.inl (Lru.mem_of_mem_pop hmem)

theorem cacheSound_run (hfresh : s₀.cache = Lru.empty) (hrun : run (step c env) s₀ es = some s) :
    CacheSound c env s₀ es s := by
  refine run_induction (Q := CacheSound c env s₀) ?_ ?_ hrun
  · intro token entry hmem
    rw [hfresh] at hmem
    exact absurd hmem (Lru.not_mem_empty _)
  · intro es m e t hm hsound hstep token entry hmem
    have hclock := nowSecs_step hstep
    rcases mem_cache_step hstep hmem with hold | ⟨checked, hcheck, rfl⟩
    · exact (hsound token entry hold).snoc e hclock
    · -- The entry is new: the state it was checked in is the last but one of the run.
      rcases checkToken_sound hcheck with ⟨parts, hvalid, hexp, htv, -⟩
      have hvisited := Visited.last (P := fun m' => m'.nowSecs ≤ t.nowSecs ∧
        (entryOf env m.nowSecs checked).expiresAt =
          effectiveCacheExpiry checked.exp m'.nowSecs (cacheTtlSecs env) ∧
        FullyValid c m'.cfg m'.snap m'.nowSecs token parts checked.identity) hm
        ⟨hclock, rfl, hvalid⟩
      exact ⟨parts, checked.exp, hexp, htv, hvisited.append [e]⟩

end Runs

/-! ## Acceptance -/

/-- The token is revoked in this state. -/
def RevokedIn (c : Crypto) (token : String) (parts : TokenParts) (m : State) : Prop :=
  isRevoked m.snap m.nowSecs parts.claims.jti (tokenHashHex c token) = true

/-- What the acceptance of a token at the end of a run stands on. -/
structure SoundlyAccepted (c : Crypto) (env : EnvVars) (s₀ : State) (es : List Event) (s : State)
    (token : String) (id : UserIdentity) (parts : TokenParts) : Prop where
  /-- Within the last `cacheTtlSecs` the token passed the complete check for this identity. -/
  checked : Visited (step c env) (fun m =>
    s.nowSecs < m.nowSecs + cacheTtlSecs env ∧ m.nowSecs ≤ s.nowSecs ∧
      FullyValid c m.cfg m.snap m.nowSecs token parts id) s₀ es
  unexpired : ∃ exp, parts.claims.exp = some exp ∧ s.nowSecs < exp
  version : id.userId ≠ "" → ∀ floor, s.snap.tvFloors id.userId = some floor →
    parts.claims.tv = some floor
  fresh : revocationFailClosed env = true → snapshotStale env s.clockMs s.snap = false
  /-- Revoked in every state from second `r` on, it is accepted before `r + cacheTtlSecs` only. -/
  revoked : ∀ r, ¬ Visited (step c env) (fun m => r ≤ m.nowSecs ∧ ¬ RevokedIn c token parts m) s₀ es →
    s.nowSecs < r + cacheTtlSecs env

/-- A complete check refuses a revoked token. -/
theorem FullyValid.not_revoked {c : Crypto} {token : String} {parts : TokenParts} {m : State}
    {id : UserIdentity} (h : FullyValid c m.cfg m.snap m.nowSecs token parts id) :
    ¬ RevokedIn c token parts m := by
  intro hrevoked
  rcases isRevoked_iff.1 hrevoked with ⟨key, hnames, hlisted⟩
  rw [h.notRevoked key hnames] at hlisted
  cases hlisted

theorem tvStatus_valid_iff {snap : RevocationSnapshot} {userId : String} {tv : Option Nat} :
    tvStatus snap userId tv = .valid ↔ ∀ floor, snap.tvFloors userId = some floor → tv = some floor := by
  unfold tvStatus
  cases snap.tvFloors userId with
  | none => simp
  | some floor => by_cases h : tv = some floor <;> simp [h]

/-- In every run of a worker that starts with an empty cache, a token that is accepted has passed
the complete check in a state of the run at most `cacheTtlSecs` ago, and is neither expired nor of
a stale version now. -/
theorem accepted_token_was_checked (c : Crypto) (env : EnvVars) (s₀ s : State) (es : List Event)
    (token : String) (id : UserIdentity) (hfresh : s₀.cache = Lru.empty)
    (hrun : run (step c env) s₀ es = some s)
    (haccept : (s.validate c env ("Bearer " ++ token)).2 = some id) :
    ∃ parts, SoundlyAccepted c env s₀ es s token id parts := by
  rcases validateToken_eq_some haccept with ⟨hsnapshot, hwhy⟩
  -- Both ways in give a state of the run with a complete check, and the two checks made now.
  have hchecked : ∃ parts, Visited (step c env) (fun m =>
        s.nowSecs < m.nowSecs + cacheTtlSecs env ∧ m.nowSecs ≤ s.nowSecs ∧
          FullyValid c m.cfg m.snap m.nowSecs token parts id) s₀ es ∧
      (∃ exp, parts.claims.exp = some exp ∧ s.nowSecs < exp) ∧
      (id.userId ≠ "" → tvStatus s.snap id.userId parts.claims.tv = .valid) := by
    rcases hwhy with ⟨entry, hmem, hlive, rfl, hversion⟩ | ⟨checked, hcheck, rfl⟩
    · rcases cacheSound_run hfresh hrun token entry hmem with ⟨parts, exp, hexp, htv, hvisited⟩
      have hlive' : s.nowSecs < entry.expiresAt := hlive
      have hbound : ∀ t₀, entry.expiresAt = effectiveCacheExpiry exp t₀ (cacheTtlSecs env) →
          s.nowSecs < exp ∧ s.nowSecs < t₀ + cacheTtlSecs env := by
        intro t₀ hexpires
        rw [hexpires] at hlive'
        unfold effectiveCacheExpiry at hlive'
        omega
      rcases hvisited with ⟨before, after, m, hsplit, hm, hle, hexpires, hvalid⟩
      rcases hbound m.nowSecs hexpires with ⟨hunexpired, hrecent⟩
      refine ⟨parts, ⟨before, after, m, hsplit, hm, hrecent, hle, hvalid⟩,
        ⟨exp, hexp, hunexpired⟩, fun _ => ?_⟩
      rw [htv]
      cases hstatus : tvStatus s.snap entry.identity.userId entry.tv with
      | valid => rfl
      | stale => exact absurd hstatus hversion
    · rcases checkToken_sound hcheck with ⟨parts, hvalid, hexp, htv, hversion⟩
      have hpos := (cacheTtlSecs_mem env).1
      refine ⟨parts, Visited.last hrun ⟨?_, le_rfl, hvalid⟩, ?_, ?_⟩
      · omega
      · rcases hvalid.unexpired with ⟨exp, hexp', hlt⟩
        exact ⟨exp, hexp', hlt⟩
      · rw [htv]
        exact hversion
  rcases hchecked with ⟨parts, hvisited, hunexpired, hversion⟩
  refine ⟨parts, hvisited, hunexpired, fun hne => tvStatus_valid_iff.1 (hversion hne), hsnapshot, ?_⟩
  intro r hrevoked
  by_contra hlate
  -- The check lies at or after `r`, where the token would have been refused.
  exact hrevoked (hvisited.mono fun m hm => ⟨by omega, hm.2.2.not_revoked⟩)

/-- A worker that knows the key of the sample token. -/
def sampleState : State where
  clockMs := 1700000000000
  cfg := { jwtSecret := "k", expectedIssuer := "i", expectedAudience := "a" }
  snap := RevocationSnapshot.empty
  cache := Lru.empty

def alice : UserIdentity := { userId := "alice", homeRegion := some "US" }

/-- What the cache holds of Alice's token from its first check on. -/
def aliceEntry : CachedToken where
  identity := alice
  expiresAt := 1700000030
  tv := none

/-- Ten seconds later, the key having been changed in between. -/
def aliceCached : State where
  clockMs := 1700000010000
  cfg := {}
  snap := RevocationSnapshot.empty
  cache := Lru.empty.put sampleToken aliceEntry

theorem readToken_sampleToken :
    readToken sampleCrypto sampleToken = some
      { header := { alg := "HS256" }
        claims :=
          { userId := "alice", homeRegion := some "US", exp := some 2000000000, iss := some "i"
            aud := some "a" }
        message := signedMessage sampleHeaderB64 samplePayloadB64
        signature := sampleMac
        payload := strBytes samplePayload } := by
  have hsplit : splitToken sampleToken = some (sampleHeaderB64, samplePayloadB64, sampleSignatureB64) :=
    splitToken_append (by decide) (by simp [samplePayloadB64])
  have hheader : sampleCrypto.base64Decode sampleHeaderB64 = some (strBytes sampleHeader) := by
    simp [sampleCrypto]
  have hparsed : sampleCrypto.parseHeader (strBytes sampleHeader) = some { alg := "HS256" } := by
    simp [sampleCrypto]
  have hpayload : sampleCrypto.base64Decode samplePayloadB64 = some (strBytes samplePayload) := by
    simp [sampleCrypto, samplePayloadB64, sampleHeaderB64]
  have hsignature : sampleCrypto.base64Decode sampleSignatureB64 = some sampleMac := by
    simp [sampleCrypto, samplePayloadB64, sampleHeaderB64, sampleSignatureB64]
  have hclaims : sampleCrypto.parseClaims (strBytes samplePayload) = some
      { userId := "alice", homeRegion := some "US", exp := some 2000000000, iss := some "i"
        aud := some "a" } := by
    simp [sampleCrypto]
  simp [readToken, hsplit, hheader, hparsed, hpayload, hsignature, hclaims]

/-- Where its key, issuer and audience are known and nothing is revoked, Alice's token is valid. -/
theorem checkToken_sampleToken {cfg : GatewayConfig} {snap : RevocationSnapshot} {now : Nat}
    (hkey : cfg.jwtSecret = "k") (hiss : cfg.expectedIssuer = "i") (haud : cfg.expectedAudience = "a")
    (hnow : now < 2000000000) (hrevoked : ∀ key, snap.revoked key = none)
    (hfloor : snap.tvFloors "alice" = none) :
    checkToken sampleCrypto cfg snap now sampleToken =
      some { identity := alice, exp := 2000000000, tv := none } := by
  have huser : sanitizeHeaderVal "alice" = some "alice" := by decide
  have hregion : sanitizeHeaderVal "US" = some "US" := by decide
  have hmac : sampleCrypto.hmacSha256 (strBytes "k") (signedMessage sampleHeaderB64 samplePayloadB64) =
      sampleMac := by
    simp [sampleCrypto]
  exact checkToken_eq_some_iff.2 ⟨_,
    { read := readToken_sampleToken
      algorithm := rfl
      signed := ⟨strBytes "k", by simp [signingSecret, hkey], hmac⟩
      exp := rfl
      accepted := by simp [claimsAccepted, hiss, haud, hnow, isRevoked_of_unlisted hrevoked]
      version := by simp [versionStale, rawUserId, tvStatus, hfloor]
      identity := by simp [buildIdentity, rawUserId, alice, huser, hregion]
      tv := rfl }⟩

/-- Alice's token ten seconds after it was cached, the key having been changed in between. -/
theorem alice_accepted_from_cache :
    ∃ s, run (step sampleCrypto (fun _ => none)) sampleState
        [.validate ("Bearer " ++ sampleToken), .reload {}, .tick 1700000010000] = some s ∧
      ∃ parts, SoundlyAccepted sampleCrypto (fun _ => none) sampleState
        [.validate ("Bearer " ++ sampleToken), .reload {}, .tick 1700000010000] s sampleToken alice
        parts := by
  have hchecked : checkToken sampleCrypto sampleState.cfg RevocationSnapshot.empty (1700000000000 / 1000)
      sampleToken = some { identity := alice, exp := 2000000000, tv := none } :=
    checkToken_sampleToken rfl rfl rfl (by decide) (fun _ => rfl) rfl
  have hentry : entryOf (fun _ => none) (1700000000000 / 1000)
      { identity := alice, exp := 2000000000, tv := none } = aliceEntry := by
    decide
  have hmiss : (Lru.empty : TokenCache).get sampleToken = (Lru.empty, none) := rfl
  have hcache : (validateToken sampleCrypto (fun _ => none) sampleState.cfg RevocationSnapshot.empty
      1700000000000 ("Bearer " ++ sampleToken) Lru.empty).1 = Lru.empty.put sampleToken aliceEntry :=
    hentry ▸ validateToken_fst_of_miss rfl hmiss hchecked
  have hhit : ((Lru.empty.put sampleToken aliceEntry : TokenCache).get sampleToken).2 = some aliceEntry :=
    Lru.get_put (by decide) _ _ _
  have haccept : (aliceCached.validate sampleCrypto (fun _ => none) ("Bearer " ++ sampleToken)).2 =
      some alice :=
    validateToken_of_hit rfl hhit (by decide) rfl
  have hrun : run (step sampleCrypto (fun _ => none)) sampleState
      [.validate ("Bearer " ++ sampleToken), .reload {}, .tick 1700000010000] = some aliceCached := by
    have hfirst : step sampleCrypto (fun _ => none) sampleState (.validate ("Bearer " ++ sampleToken)) =
        some { sampleState with cache := Lru.empty.put sampleToken aliceEntry } :=
      congrArg (fun cache : TokenCache => some ({ sampleState with cache := cache } : State)) hcache
    exact run_cons_eq_some.2 ⟨_, hfirst, by simp [run, step, sampleState, aliceCached]⟩
  exact ⟨aliceCached, hrun, accepted_token_was_checked _ _ _ _ _ _ _ rfl hrun haccept⟩

end AuthSoundness
end GatewayEdge
