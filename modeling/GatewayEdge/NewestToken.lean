import GatewayEdge.FloorSync
import GatewayEdge.IssuedToken

/-!
# NewestToken — a version is raised, and the newest token is presented

The floor in the snapshot of a worker follows the version in Redis, and until the next cycle it lags behind.
A token carries the version of the moment it is issued.  The check asks for the floor itself and not for
anything above it, so a token that is newer than the floor is refused like one that is older.

Raised versions are all the auth service publishes.  A token with the current version could be issued at
that very moment, so that issuing one is no event of a run.
-/

namespace GatewayEdge
namespace NewestToken

open Auth
open AuthSoundness (TokenParts readToken checkToken_eq_some_iff buildIdentity_eq_some tvStatus_valid_iff validateUncached_snd)
open Foundation
open IssuedToken (Issued Known cryptoOf known_single checkToken_issued readToken_issued)
open Revocation (RevocationSnapshot tvStatus snapshotStale isRevoked_of_unlisted)
open Revocation.Sync (Cycle Outcome Publication Redis syncStep syncStep_outcome step_tick accept_prune)
open Revocation.FloorSync

/-! ## A worker beside Redis -/

structure World where
  sync : Revocation.Sync.State
  cfg : GatewayConfig
  cache : TokenCache

/-- What `validate_token` works on. -/
def World.view (w : World) : AuthSoundness.State where
  clockMs := w.sync.nowMs.val
  cfg := w.cfg
  snap := w.sync.snapshot
  cache := w.cache

/-- A step of the clock, of the publishers or of the sync thread, a config reload, a call. -/
inductive Event
  | sync (e : Revocation.Sync.Event)
  | reload (cfg : GatewayConfig)
  | validate (authHeader : String)

def step (c : Crypto) (env : EnvVars) (w : World) : Event → Option World
  | .sync e => (Revocation.Sync.step env w.sync e).map fun sync => { w with sync := sync }
  | .reload cfg => some { w with cfg := cfg }
  | .validate authHeader => some { w with cache := (w.view.validate c env authHeader).1 }

/-- A worker that has just started, on any Redis. -/
def start (nowMs : Revocation.Sync.Millis) (redis : Redis) (cfg : GatewayConfig) : World where
  sync := Revocation.Sync.boot nowMs redis
  cfg := cfg
  cache := Lru.empty

/-- The auth service only raises a version, and publishes it. -/
def Raises (s : Revocation.Sync.State) : Revocation.Sync.Event → Prop
  | .publication (.setVersion user value _) => ∃ v ∈ floorOf value, ∀ u ∈ current s user, u ≤ v
  | _ => True

def OnlyRaises (w : World) : Event → Prop
  | .sync e => Raises w.sync e
  | _ => True

instance (s : Revocation.Sync.State) : ∀ e, Decidable (Raises s e)
  | .publication (.setVersion user value _) =>
    inferInstanceAs (Decidable (∃ v ∈ floorOf value, ∀ u ∈ current s user, u ≤ v))
  | .publication (.revoke _ _) => isTrue trivial
  | .publication (.prune _) => isTrue trivial
  | .tick _ => isTrue trivial
  | .sync _ => isTrue trivial

instance (w : World) : ∀ e, Decidable (OnlyRaises w e)
  | .sync e => inferInstanceAs (Decidable (Raises w.sync e))
  | .reload _ => isTrue trivial
  | .validate _ => isTrue trivial

/-! ## The promise and its condition -/

def withoutFloors (snap : RevocationSnapshot) : RevocationSnapshot := { snap with tvFloors := fun _ => none }

section Promise

variable (c : Crypto) (env : EnvVars) (w : World)

/-- The token is accepted for this user as far as everything but its version goes, and its version is the
current one. -/
structure Newest (token : String) (id : UserIdentity) (v : ℕ) : Prop where
  otherwise : (validateToken c env w.cfg (withoutFloors w.sync.snapshot) w.sync.nowMs.val
    ("Bearer " ++ token) w.cache).2 = some id
  version : ∃ parts, readToken c token = some parts ∧ parts.claims.tv = some v
  newest : current w.sync id.userId = some v

def NewestAccepted (e : Event) : Prop :=
  ∀ token id v, e = .validate ("Bearer " ++ token) → Newest c env w token id v →
    (w.view.validate c env ("Bearer " ++ token)).2 = some id

end Promise

/-- The version is compared: always that of a cached token, and in a complete check unless the user id is
empty. -/
def Compared (s : AuthSoundness.State) (token userId : String) : Prop :=
  userId ≠ "" ∨ ∃ entry, (s.cache.get token).2 = some entry ∧ s.nowSecs < entry.expiresAt

/-- No floor that the newest token is compared with is below the current version. -/
def UpToDate (c : Crypto) (env : EnvVars) (w : World) (e : Event) : Prop :=
  ∀ token id v, e = .validate ("Bearer " ++ token) → Newest c env w token id v →
    Compared w.view token id.userId → ∀ floor ∈ w.sync.snapshot.tvFloors id.userId, v ≤ floor

/-! ## The check with and without floors -/

section Check

variable {c : Crypto} {env : EnvVars} {cfg : GatewayConfig} {snap : RevocationSnapshot} {token : String}

theorem versionStale_eq_false_iff {claims : JwtClaims} {payload : Bytes} {userId : String}
    (h : rawUserId c claims payload = some userId) :
    versionStale c snap claims payload = false ↔ (userId ≠ "" → tvStatus snap userId claims.tv = .valid) := by
  unfold versionStale
  rw [h, Option.getD_some]
  cases hstatus : tvStatus snap userId claims.tv with
  | valid => simp [hstatus]
  | stale => simp [hstatus]

/-- Floors matter to the complete check in one place. -/
theorem checkToken_iff_withoutFloors {now : ℕ} {checked : Checked} :
    checkToken c cfg snap now token = some checked ↔
      checkToken c cfg (withoutFloors snap) now token = some checked ∧
        (checked.identity.userId ≠ "" →
          tvStatus snap checked.identity.userId checked.tv = .valid) := by
  rw [checkToken_eq_some_iff, checkToken_eq_some_iff]
  constructor
  · rintro ⟨parts, h⟩
    have huser := (buildIdentity_eq_some h.identity).1
    refine ⟨⟨parts, { h with accepted := h.accepted, version := ?_ }⟩, ?_⟩
    · exact (versionStale_eq_false_iff huser).2 fun _ => rfl
    · exact h.tv ▸ (versionStale_eq_false_iff huser).1 h.version
  · rintro ⟨⟨parts, h⟩, hvalid⟩
    have huser := (buildIdentity_eq_some h.identity).1
    refine ⟨parts, { h with accepted := h.accepted, version := ?_ }⟩
    exact (versionStale_eq_false_iff huser).2 (h.tv ▸ hvalid)

/-- The version that is checked is that of the token. -/
theorem tv_of_checkToken {now : ℕ} {checked : Checked} {parts : TokenParts}
    (h : checkToken c cfg snap now token = some checked) (hread : readToken c token = some parts) :
    checked.tv = parts.claims.tv := by
  rcases checkToken_eq_some_iff.1 h with ⟨parts', hchecks⟩
  have hsame : parts = parts' := Option.some.inj (hread.symm.trans hchecks.read)
  rw [hsame, hchecks.tv]

/-- What the complete check makes of a token that passes it but for the floors. -/
theorem uncached_iff {now : ℕ} {parts : TokenParts} {id : UserIdentity} {cache : TokenCache}
    (hread : readToken c token = some parts)
    (h : (validateUncached c env cfg (withoutFloors snap) now token cache).2 = some id) :
    (validateUncached c env cfg snap now token cache).2 = some id ↔
      (id.userId ≠ "" → tvStatus snap id.userId parts.claims.tv = .valid) := by
  rw [validateUncached_snd] at h ⊢
  rcases Option.map_eq_some_iff.1 h with ⟨checked, hchecked, rfl⟩
  have htv := tv_of_checkToken hchecked hread
  constructor
  · intro haccept
    rcases Option.map_eq_some_iff.1 haccept with ⟨checked', hchecked', hid⟩
    have hvalid := (checkToken_iff_withoutFloors.1 hchecked').2
    rwa [hid, tv_of_checkToken hchecked' hread] at hvalid
  · intro hvalid
    have hwith := checkToken_iff_withoutFloors.2 ⟨hchecked, htv ▸ hvalid⟩
    rw [hwith]
    rfl

end Check

/-- A token that is accepted but for its version is accepted exactly if the version is not compared, or is
the floor. -/
theorem validate_iff {c : Crypto} {env : EnvVars} {s : AuthSoundness.State} {token : String}
    {parts : TokenParts} {id : UserIdentity} (hread : readToken c token = some parts)
    (hcached : ∀ entry, (token, entry) ∈ s.cache → entry.tv = parts.claims.tv)
    (h : (validateToken c env s.cfg (withoutFloors s.snap) s.clockMs ("Bearer " ++ token) s.cache).2 =
      some id) :
    (s.validate c env ("Bearer " ++ token)).2 = some id ↔
      (Compared s token id.userId → tvStatus s.snap id.userId parts.claims.tv = .valid) := by
  -- The guard does not look at the floors, so that both calls get past it or neither.
  have hstale : snapshotStale env s.clockMs (withoutFloors s.snap) = snapshotStale env s.clockMs s.snap := rfl
  unfold AuthSoundness.State.validate validateToken at *
  unfold Compared
  rw [stripStart_append] at h ⊢
  dsimp only at h ⊢
  rw [hstale] at h
  cases hguard : revocationFailClosed env && snapshotStale env s.clockMs s.snap with
  | true =>
      rw [hguard, if_pos rfl] at h
      cases h
  | false =>
      rw [hguard, if_neg Bool.false_ne_true] at h
      rw [if_neg Bool.false_ne_true]
      rcases hget : s.cache.get token with ⟨cache', found⟩
      rw [hget] at h
      cases found with
      | none =>
          dsimp only at h ⊢
          rw [uncached_iff hread h]
          simp
      | some entry =>
          dsimp only at h ⊢
          by_cases hlive : s.clockMs / 1000 < entry.expiresAt
          · -- A live entry: its version is compared whoever the user is.
            have htv := hcached entry (Lru.mem_of_get (by rw [hget]))
            rw [if_pos hlive] at h ⊢
            have hid : entry.identity = id := Option.some.inj h
            subst hid
            have hlive' : s.nowSecs < entry.expiresAt := hlive
            rw [← htv]
            cases hstatus : tvStatus s.snap entry.identity.userId entry.tv with
            | valid => simp
            | stale => simp [hlive']
          · -- An expired entry is dropped, and the token is checked like one that was never cached.
            have hdead : ¬ s.nowSecs < entry.expiresAt := hlive
            rw [if_neg hlive] at h ⊢
            rw [uncached_iff hread h]
            simp [hdead]

/-! ## The floors lag behind -/

/-- The floor is a version that Redis had and has not gone back on. -/
def Lags (s : Revocation.Sync.State) (user : String) (floor : Option ℕ) : Prop :=
  ∀ f ∈ floor, ∃ v, current s user = some v ∧ f ≤ v

/-- What holds of the floors a worker knows and is about to publish. -/
structure Lagging (s : Revocation.Sync.State) : Prop where
  known : ∀ user, Lags s user (s.snapshot.tvFloors user)
  planned : ∀ c, Phase.cycle s.phase = some c → ∀ user, Lags s user (planned s c user)

theorem lags_current (s : Revocation.Sync.State) (user : String) : Lags s user (current s user) :=
  fun f hf => ⟨f, hf, le_rfl⟩

section Kept

variable {env : EnvVars} {s s' : Revocation.Sync.State}

theorem lagging_boot (nowMs : Revocation.Sync.Millis) (redis : Redis) :
    Lagging (Revocation.Sync.boot nowMs redis) where
  known := fun _ _ hf => by cases hf
  planned := fun _ hc => by cases hc

theorem Lagging.aside (h : Lagging s) (haside : Aside s s') : Lagging s' where
  known := fun user => by
    simpa [Lags, haside.tvFloors, haside.current] using h.known user
  planned := fun c hc user => by
    simpa [Lags, haside.planned, haside.current] using h.planned c (haside.cycle c hc) user

/-- A raised version is not below any floor. -/
theorem Lagging.changed {user : String} {value : Option String} {score : Int} (h : Lagging s)
    (hraises : ∃ v ∈ floorOf value, ∀ u ∈ current s user, u ≤ v) :
    Lagging (changed s user value score) := by
  rcases hraises with ⟨v, hv, hraised⟩
  have hlags : ∀ other floor, Lags s other floor →
      Lags (Revocation.FloorSync.changed s user value score) other floor := by
    intro other floor hlags f hf
    rcases hlags f hf with ⟨u, hu, hle⟩
    by_cases hother : other = user
    · subst hother
      have hcurrent : current (Revocation.FloorSync.changed s other value score) other = some v := by
        simpa [current, Revocation.FloorSync.changed] using hv
      exact ⟨v, hcurrent, hle.trans (hraised u hu)⟩
    · exact ⟨u, (current_changed_of_ne hother).trans hu, hle⟩
  exact ⟨fun other => hlags other _ (h.known other), fun c hc other => hlags other _ (h.planned c hc other)⟩

/-- What an exchange fetches or publishes is what Redis has, or was known or fetched before. -/
theorem Lagging.sync {x : Revocation.Sync.SyncStep} (h : Lagging s)
    (hs : syncStep env s x = some s') : Lagging s' := by
  cases syncStep_outcome hs with
  | gaveUp failed => exact h.aside (aside_enter rfl)
  | connected _ => exact h.aside (aside_enter rfl)
  | pulledRevocations _ => exact h.aside (aside_enter rfl)
  | pulledVersions _ =>
      -- Nothing is fetched yet: what would be published is what is known.
      refine ⟨h.known, fun c hc user => ?_⟩
      cases hc
      exact h.known user
  | @fetched c here =>
      refine ⟨h.known, fun c' hc user => ?_⟩
      cases hc
      by_cases hchunk : user ∈ c.pending.take Revocation.Sync.mgetChunk
      · have hfetched := planned_fetchChunk_of_mem (s := s) hchunk
        exact hfetched ▸ lags_current s user
      · have hfetched := planned_fetchChunk_of_not_mem (s := s) hchunk
        exact hfetched ▸ h.planned c (by rw [here]; rfl) user
  | @published c scannedKeys here complete =>
      exact ⟨h.planned c (by rw [here]; rfl), fun c' hc => by cases hc⟩
  | collected _ => exact h.aside ⟨rfl, rfl, rfl, rfl, fun c hc => by cases hc⟩

/-- The floors lag behind whatever happens, as long as versions are only raised. -/
theorem Lagging.step {e : Revocation.Sync.Event} (h : Lagging s) (hraises : Raises s e)
    (hs : Revocation.Sync.step env s e = some s') : Lagging s' := by
  cases e with
  | tick nowMs =>
      rcases step_tick hs with ⟨_, rfl⟩
      exact h.aside ⟨rfl, rfl, rfl, rfl, fun c hc => hc⟩
  | publication e =>
      rcases Option.map_eq_some_iff.1 hs with ⟨redis, haccept, rfl⟩
      cases e with
      | revoke key expiry =>
          cases haccept
          exact h.aside ⟨rfl, rfl, rfl, rfl, fun c hc => hc⟩
      | prune key =>
          rcases accept_prune haccept with ⟨_, _, _, rfl⟩
          exact h.aside ⟨rfl, rfl, rfl, rfl, fun c hc => hc⟩
      | setVersion user value score =>
          cases haccept
          exact h.changed hraises
  | sync x => exact h.sync hs

end Kept

/-! ## What is cached is what the token says -/

/-- Every cache entry has the version of its token. -/
def CacheFaithful (c : Crypto) (cache : TokenCache) : Prop :=
  ∀ token entry parts, (token, entry) ∈ cache → readToken c token = some parts →
    entry.tv = parts.claims.tv

structure Inv (c : Crypto) (w : World) : Prop where
  lagging : Lagging w.sync
  cached : CacheFaithful c w.cache

section Runs

variable {c : Crypto} {env : EnvVars} {w w' : World} {e : Event}

theorem CacheFaithful.validate {authHeader : String} (h : CacheFaithful c w.cache) :
    CacheFaithful c (w.view.validate c env authHeader).1 := by
  intro token entry parts hmem hread
  rcases AuthSoundness.mem_validateToken hmem with hold | ⟨token', checked, hchecked, hnew⟩
  · exact h token entry parts hold hread
  · rcases Prod.mk.inj hnew with ⟨rfl, rfl⟩
    exact tv_of_checkToken hchecked hread

theorem inv_start (c : Crypto) (nowMs : Revocation.Sync.Millis) (redis : Redis) (cfg : GatewayConfig) :
    Inv c (start nowMs redis cfg) where
  lagging := lagging_boot nowMs redis
  cached := fun _ _ _ hmem => absurd hmem (Lru.not_mem_empty _)

theorem inv_step (h : Inv c w) (hraises : OnlyRaises w e) (hs : step c env w e = some w') : Inv c w' := by
  cases e with
  | sync e =>
      rcases Option.map_eq_some_iff.1 hs with ⟨s, hsync, rfl⟩
      exact ⟨h.lagging.step hraises hsync, h.cached⟩
  | reload cfg =>
      cases hs
      exact ⟨h.lagging, h.cached⟩
  | validate authHeader =>
      cases hs
      exact ⟨h.lagging, h.cached.validate⟩

/-- The floor is at most the current version, so it is not below it only if it is that version. -/
theorem newestAccepted_iff (h : Inv c w) : NewestAccepted c env w e ↔ UpToDate c env w e := by
  unfold NewestAccepted UpToDate
  refine forall_congr' fun token => forall_congr' fun id => forall_congr' fun v =>
    forall_congr' fun _ => forall_congr' fun hnewest => ?_
  rcases hnewest.version with ⟨parts, hread, htv⟩
  have hcached : ∀ entry, (token, entry) ∈ w.view.cache → entry.tv = parts.claims.tv :=
    fun entry hmem => h.cached token entry parts hmem hread
  rw [validate_iff hread hcached hnewest.otherwise, htv, tvStatus_valid_iff]
  refine forall_congr' fun _ => forall_congr' fun floor => forall_congr' fun hfloor => ?_
  -- The floor is some earlier version or this one.
  rcases h.lagging.known _ floor hfloor with ⟨u, hu, hle⟩
  have huv : u = v := Option.some.inj (hu.symm.trans hnewest.newest)
  subst huv
  rw [Option.some_inj]
  exact ⟨fun heq => heq.le, fun hge => le_antisymm hge hle⟩

end Runs

/-! ## Tokens of one user -/

def aliceClaims (tv : ℕ) : JwtClaims where
  userId := "alice"
  homeRegion := some "US"
  exp := some 2000000000
  iss := some "i"
  aud := some "a"
  tv := some tv

/-- A token of Alice with this version. -/
def aliceToken (tv : ℕ) (payloadB64 signatureB64 : String) (mac digest : Bytes) : Issued where
  claims := aliceClaims tv
  payload := "\x7b\"sub\":\"alice\",\"home_region\":\"US\",\"exp\":2000000000,\"iss\":\"i\",\"aud\":\"a\",\"tv\":" ++
    toString tv ++ "\x7d"
  payloadB64 := payloadB64
  signatureB64 := signatureB64
  mac := mac
  digest := digest

def firstToken : Issued :=
  aliceToken 1
    "eyJzdWIiOiJhbGljZSIsImhvbWVfcmVnaW9uIjoiVVMiLCJleHAiOjIwMDAwMDAwMDAsImlzcyI6ImkiLCJhdWQiOiJhIiwidHYiOjF9"
    "iiZ_3x7yj8i-jrhdhYuaMpc2t7mqOYWOS4fKunNo0cI"
    [138, 38, 127, 223, 30, 242, 143, 200, 190, 142, 184, 93, 133, 139, 154, 50, 151, 54, 183, 185, 170,
      57, 133, 142, 75, 135, 202, 186, 115, 104, 209, 194]
    [235, 219, 243, 218, 1, 33, 123, 79, 230, 227, 161, 159, 158, 198, 217, 228, 232, 189, 194, 83, 197,
      187, 156, 107, 133, 18, 14, 120, 76, 230, 80, 102]

def secondToken : Issued :=
  aliceToken 2
    "eyJzdWIiOiJhbGljZSIsImhvbWVfcmVnaW9uIjoiVVMiLCJleHAiOjIwMDAwMDAwMDAsImlzcyI6ImkiLCJhdWQiOiJhIiwidHYiOjJ9"
    "SzoEFltVNQ0rSYwV-LZIadC1TRKK_rDgINsOT-nLG9o"
    [75, 58, 4, 22, 91, 85, 53, 13, 43, 73, 140, 21, 248, 182, 72, 105, 208, 181, 77, 18, 138, 254, 176,
      224, 32, 219, 14, 79, 233, 203, 27, 218]
    [226, 32, 53, 101, 62, 100, 31, 210, 185, 255, 151, 52, 143, 12, 196, 57, 22, 53, 70, 177, 138, 122,
      53, 227, 121, 245, 172, 178, 159, 190, 202, 85]

theorem known_firstToken : Known [firstToken] firstToken :=
  known_single (by simp [firstToken, aliceToken]) (by simp [firstToken, aliceToken, sampleHeaderB64])
    (by simp [firstToken, aliceToken])

theorem known_secondToken : Known [secondToken] secondToken :=
  known_single (by simp [secondToken, aliceToken]) (by simp [secondToken, aliceToken, sampleHeaderB64])
    (by simp [secondToken, aliceToken])

/-! ## The sample node -/

/-- The version of Alice is published. -/
def bump (version : String) : Event := .sync (.publication (.setVersion "alice" (some version) 1700000000000))

/-- One whole cycle of the sync thread. -/
def cycle : List Event :=
  [.sync (.sync (.connect true)), .sync (.sync (.pullRevocations true)), .sync (.sync (.pullVersions true)),
    .sync (.sync (.fetchChunk true)), .sync (.sync (.publish none))]

def sampleStart : World :=
  start ⟨1700000000000, by decide⟩ { revIndex := ∅, tvIndex := ∅, strings := fun _ => none }
    AuthSoundness.sampleState.cfg

/-- A worker of the sample node that has cached nothing and knows of no revocation. -/
structure Fresh (w : World) (floor version : ℕ) : Prop where
  cfg : w.cfg = AuthSoundness.sampleState.cfg
  cache : w.cache = Lru.empty
  clock : w.sync.nowMs.val = 1700000000000
  revoked : ∀ key, w.sync.snapshot.revoked key = none
  floor : w.sync.snapshot.tvFloors "alice" = some floor
  version : current w.sync "alice" = some version

theorem fresh_synced (c : Crypto) :
    ∃ w, run (step c fun _ => none) sampleStart (bump "1" :: cycle) = some w ∧ Fresh w 1 1 :=
  ⟨_, rfl, rfl, rfl, rfl, fun _ => rfl, rfl, rfl⟩

theorem fresh_bumped (c : Crypto) :
    ∃ w, run (step c fun _ => none) sampleStart (bump "1" :: cycle ++ [bump "2"]) = some w ∧ Fresh w 1 2 :=
  ⟨_, rfl, rfl, rfl, rfl, fun _ => rfl, rfl, rfl⟩

section Alice

variable {t : Issued} {tv floor version : ℕ} {w : World}

/-- The token is valid where its version is no matter, or the floor. -/
theorem checkToken_alice (hknown : Known [t] t) (hclaims : t.claims = aliceClaims tv)
    {snap : RevocationSnapshot} (hrevoked : ∀ key, snap.revoked key = none)
    (hvalid : tvStatus snap "alice" (some tv) = .valid) :
    checkToken (cryptoOf [t]) AuthSoundness.sampleState.cfg snap 1700000000 t.token =
      some { identity := AuthSoundness.alice, exp := 2000000000, tv := t.claims.tv } := by
  refine checkToken_issued hknown rfl (by rw [hclaims]; rfl) ?_ ?_ ?_
  · rw [hclaims]
    simp [claimsAccepted, isRevoked_of_unlisted hrevoked, aliceClaims, AuthSoundness.sampleState]
  · rw [hclaims]
    exact (versionStale_eq_false_iff rfl).2 fun _ => hvalid
  · have huser : sanitizeHeaderVal "alice" = some "alice" := by decide
    have hregion : sanitizeHeaderVal "US" = some "US" := by decide
    rw [hclaims]
    simp [buildIdentity, rawUserId, aliceClaims, AuthSoundness.alice, huser, hregion]

theorem newest_alice (hknown : Known [t] t) (hclaims : t.claims = aliceClaims tv)
    (hw : Fresh w floor tv) :
    Newest (cryptoOf [t]) (fun _ => none) w t.token AuthSoundness.alice tv where
  otherwise := by
    have hmiss : (w.cache.get t.token).2 = none := by
      rw [hw.cache]
      rfl
    have hchecked : checkToken (cryptoOf [t]) AuthSoundness.sampleState.cfg
        (withoutFloors w.sync.snapshot) 1700000000 t.token = some _ :=
      checkToken_alice hknown hclaims hw.revoked rfl
    rw [AuthSoundness.validateToken_of_miss rfl hmiss, hw.clock, hw.cfg]
    exact congrArg (Option.map Checked.identity) hchecked
  version := ⟨_, readToken_issued hknown, by rw [hclaims]; rfl⟩
  newest := hw.version

end Alice

/-- A run without a call. -/
theorem upToDate_of_no_call {c : Crypto} {env : EnvVars} {es : List Event}
    (h : ∀ e ∈ es, ∀ authHeader, e ≠ .validate authHeader) (w : World) :
    Along (step c env) (UpToDate c env) w es :=
  along_mono (I := fun _ => True) (fun _ _ _ _ _ _ => trivial)
    (fun _ _ _ hno _ _ _ hcall => absurd hcall (hno _)) trivial (along_of_forall h w)

/-- In every run in which versions are only raised, the newest token of a user is accepted exactly as long
as it is not compared with a floor below the current version; and raising the version of a token keeps it
valid exactly where the lower version is not the floor itself. -/
theorem newest_accepted_iff_up_to_date (c : Crypto) (env : EnvVars) (nowMs : Revocation.Sync.Millis)
    (redis : Redis) (cfg : GatewayConfig) {es : List Event}
    (h : Along (step c env) OnlyRaises (start nowMs redis cfg) es) :
    (Along (step c env) (NewestAccepted c env) (start nowMs redis cfg) es ↔
        Along (step c env) (UpToDate c env) (start nowMs redis cfg) es) ∧
      ∀ snap user v v', v ≤ v' →
        ((tvStatus snap user (some v) = .valid → tvStatus snap user (some v') = .valid) ↔
          (snap.tvFloors user = some v → v' = v)) := by
  constructor
  · -- Both directions carry the invariant along the run, which is kept because versions are only raised.
    have hkeep : ∀ {P : World → Event → Prop} w e w', Inv c w → (OnlyRaises w e ∧ P w e) →
        step c env w e = some w' → Inv c w' := fun w e w' hinv hlaw hs => inv_step hinv hlaw.1 hs
    constructor
    · intro haccepted
      exact along_mono hkeep (fun w e hinv hlaw => (newestAccepted_iff hinv).1 hlaw.2)
        (inv_start c nowMs redis cfg) (h.and haccepted)
    · intro hupToDate
      exact along_mono hkeep (fun w e hinv hlaw => (newestAccepted_iff hinv).2 hlaw.2)
        (inv_start c nowMs redis cfg) (h.and hupToDate)
  · intro snap user v v' _
    rw [tvStatus_valid_iff, tvStatus_valid_iff]
    constructor
    · intro hraise hfloor
      have hvalid : ∀ floor, snap.tvFloors user = some floor → some v = some floor :=
        fun floor hf => hfloor.symm.trans hf
      exact Option.some.inj (hraise hvalid v hfloor)
    · intro hsame hvalid floor hfloor
      have hv : v = floor := Option.some.inj (hvalid floor hfloor)
      rw [hsame (hv ▸ hfloor), hv]

/-- Alice presents a token of her first version when the worker has learned of it. -/
theorem first_version_accepted :
    Along (step (cryptoOf [firstToken]) fun _ => none) (NewestAccepted (cryptoOf [firstToken]) fun _ => none)
      sampleStart (bump "1" :: cycle ++ [.validate ("Bearer " ++ firstToken.token)]) := by
  rcases fresh_synced (cryptoOf [firstToken]) with ⟨w, hrun, hw⟩
  have hraises : Along (step (cryptoOf [firstToken]) fun _ => none) OnlyRaises sampleStart
      (bump "1" :: cycle ++ [.validate ("Bearer " ++ firstToken.token)]) :=
    along_append hrun (by decide) ⟨trivial, fun _ _ => trivial⟩
  refine (newest_accepted_iff_up_to_date _ _ _ _ _ hraises).1.2 (along_append hrun ?_ ⟨?_, fun _ _ => trivial⟩)
  · refine upToDate_of_no_call (fun e he authHeader => ?_) _
    rintro rfl
    simp [bump, cycle] at he
  · intro token id v hcall hnewest _ floor hfloor
    have htoken : firstToken.token = token := (String.append_right_inj _).1 (Event.validate.inj hcall)
    subst htoken
    have hid : AuthSoundness.alice = id := Option.some.inj
      ((newest_alice known_firstToken rfl hw).otherwise.symm.trans hnewest.otherwise)
    subst hid
    have hv : 1 = v := Option.some.inj (hw.version.symm.trans hnewest.newest)
    have hone : 1 = floor := Option.some.inj (hw.floor.symm.trans hfloor)
    exact (hv.symm.trans hone).le

/-- Her version is raised once more, and the token that carries it is refused until the next cycle. -/
theorem second_version_refused :
    (Along (step (cryptoOf [secondToken]) fun _ => none) OnlyRaises sampleStart
        (bump "1" :: cycle ++ [bump "2"] ++ [.validate ("Bearer " ++ secondToken.token)]) ∧
      ¬ Along (step (cryptoOf [secondToken]) fun _ => none)
        (NewestAccepted (cryptoOf [secondToken]) fun _ => none) sampleStart
        (bump "1" :: cycle ++ [bump "2"] ++ [.validate ("Bearer " ++ secondToken.token)])) ∧
      ∃ snap, tvStatus snap "alice" (some 1) = .valid ∧ tvStatus snap "alice" (some 2) = .stale := by
  rcases fresh_bumped (cryptoOf [secondToken]) with ⟨w, hrun, hw⟩
  have hfirst : tvStatus w.sync.snapshot "alice" (some 1) = .valid := by simp [tvStatus, hw.floor]
  have hsecond : tvStatus w.sync.snapshot "alice" (some 2) = .stale := by simp [tvStatus, hw.floor]
  refine ⟨⟨along_append hrun (by decide) ⟨trivial, fun _ _ => trivial⟩, fun h => ?_⟩,
    w.sync.snapshot, hfirst, hsecond⟩
  have hnewest := newest_alice known_secondToken rfl hw
  have haccepted := h.at hrun secondToken.token AuthSoundness.alice 2 rfl hnewest
  have hnone : ∀ entry, (secondToken.token, entry) ∈ w.view.cache → entry.tv = secondToken.claims.tv := by
    intro entry hmem
    have hempty : w.view.cache = Lru.empty := hw.cache
    exact absurd (hempty ▸ hmem) (Lru.not_mem_empty _)
  -- Accepted, she would have presented the floor; but the floor is still 1.
  have hvalid := (validate_iff (readToken_issued known_secondToken) hnone hnewest.otherwise).1 haccepted
    (Or.inl (by decide))
  exact absurd (hvalid.symm.trans hsecond) (by decide)

end NewestToken
end GatewayEdge
