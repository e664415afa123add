import GatewayEdge.Foundation.Lru
import GatewayEdge.Foundation.Utf8
import GatewayEdge.Revocation
import Mathlib.Control.Basic

/-!
# Auth — JWT validation with a bounded positive cache

`checkToken` is the complete check of an uncached token; `validateToken` puts the cache, the
fail-closed guard and the token-version re-check around it.  Base64, HMAC-SHA256, SHA-256 and the
JSON readers are fixed functions, the fields of `Crypto`.
-/

namespace GatewayEdge
namespace Auth

open Foundation
open Revocation (RevocationSnapshot TvStatus isRevoked tvStatus snapshotStale)

structure UserIdentity where
  userId : String
  homeRegion : Option String
  deriving DecidableEq, Repr

structure JwtHeader where
  alg : String
  kid : String := ""
  deriving DecidableEq, Repr

structure JwtClaims where
  /-- The claim `sub`. -/
  userId : String := ""
  homeRegion : Option String := none
  exp : Option Nat := none
  nbf : Option Nat := none
  iat : Option Nat := none
  iss : Option String := none
  aud : Option String := none
  jti : Option String := none
  tv : Option Nat := none
  deriving DecidableEq, Repr

structure CachedToken where
  identity : UserIdentity
  expiresAt : Nat
  tv : Option Nat
  deriving DecidableEq, Repr

def tokenCacheCapacity : Nat := 8192

/-- The worker's cache: token → validated entry. -/
abbrev TokenCache := Lru String CachedToken tokenCacheCapacity

/-- The library functions the validation is built from. -/
structure Crypto where
  base64Decode : String → Option Bytes
  hmacSha256 : Bytes → Bytes → Bytes
  sha256 : Bytes → Bytes
  parseHeader : Bytes → Option JwtHeader
  parseClaims : Bytes → Option JwtClaims
  /-- The alternative claim `user_id`. -/
  extractUserIdField : Bytes → Option String

def revocationFailClosed (env : EnvVars) : Bool := env.flag "REVOCATION_FAIL_CLOSED"

def cacheTtlSecs (env : EnvVars) : Nat := env.clamped "AUTH_CACHE_TTL_SECS" 1 300 30

def effectiveCacheExpiry (tokenExp now ttl : Nat) : Nat :=
  min tokenExp (min (now + ttl) (2 ^ 64 - 1))

/-- `token_hash_hex`: SHA-256 of the full token, lowercase hexadecimal. -/
def tokenHashHex (c : Crypto) (token : String) : String :=
  String.ofList ((c.sha256 (strBytes token)).flatMap fun b => toHex 2 b.toNat)

/-- `token.splitn(3, '.')` with exactly three parts. -/
def splitToken (token : String) : Option (String × String × String) :=
  match splitFirst '.' token.toList with
  | (_, none) => none
  | (header, some rest) =>
    match splitFirst '.' rest with
    | (_, none) => none
    | (payload, some sig) => some (String.ofList header, String.ofList payload, String.ofList sig)

/-- The HMAC secret: the primary one without a `kid`, else the named key. -/
def signingSecret (cfg : GatewayConfig) (header : JwtHeader) : Option Bytes :=
  if header.kid = "" then some (strBytes cfg.jwtSecret)
  else (cfg.jwtKeys.lookup header.kid).map strBytes

def signedMessage (headerB64 payloadB64 : String) : Bytes :=
  strBytes headerB64 ++ [0x2E] ++ strBytes payloadB64

/-- `sanitize_header_val`. -/
def sanitizeHeaderVal (val : String) : Option String :=
  if '\r' ∈ val.toList ∨ '\n' ∈ val.toList ∨ '\x00' ∈ val.toList then none else some val

/-- What a complete check yields: the identity, and what the cache entry needs. -/
structure Checked where
  identity : UserIdentity
  exp : Nat
  tv : Option Nat
  deriving DecidableEq, Repr

/-- The claim checks of steps 6 and 7: expiry, not-before, age, issuer, audience, revocation. -/
def claimsAccepted (c : Crypto) (cfg : GatewayConfig) (snap : RevocationSnapshot) (now : Nat)
    (token : String) (claims : JwtClaims) (exp : Nat) : Bool :=
  now < exp &&
  !(claims.nbf.any fun nbf => now < nbf) &&
  !(claims.iat.any fun iat => (iat + 86400) % 2 ^ 64 < now) &&
  claims.iss == some cfg.expectedIssuer &&
  claims.aud == some cfg.expectedAudience &&
  !isRevoked snap now claims.jti (tokenHashHex c token)

/-- The user id as the token states it, under either name. -/
def rawUserId (c : Crypto) (claims : JwtClaims) (payloadBytes : Bytes) : Option String :=
  if claims.userId = "" then c.extractUserIdField payloadBytes else some claims.userId

/-- Step 8: the identity, sanitised. -/
def buildIdentity (c : Crypto) (claims : JwtClaims) (payloadBytes : Bytes) :
    Option UserIdentity := do
  let raw ← rawUserId c claims payloadBytes
  let userId ← sanitizeHeaderVal raw
  match claims.homeRegion with
  | some r =>
    let home ← sanitizeHeaderVal r
    some { userId := userId, homeRegion := some home }
  | none => some { userId := userId, homeRegion := none }

/-- Step 7b: a token version below the floor, for a user id that is not empty. -/
def versionStale (c : Crypto) (snap : RevocationSnapshot) (claims : JwtClaims)
    (payloadBytes : Bytes) : Bool :=
  let raw := (rawUserId c claims payloadBytes).getD ""
  raw != "" && tvStatus snap raw claims.tv == .stale

/-- Steps 2 to 8 of `validate_token`: the complete check of a token that is not cached. -/
def checkToken (c : Crypto) (cfg : GatewayConfig) (snap : RevocationSnapshot) (now : Nat)
    (token : String) : Option Checked := do
  let (headerB64, payloadB64, sigB64) ← splitToken token
  let headerBytes ← c.base64Decode headerB64
  let header ← c.parseHeader headerBytes
  guard (header.alg = "HS256")
  let secret ← signingSecret cfg header
  let provided ← c.base64Decode sigB64
  -- Nothing of the payload is read before the signature is verified.
  guard (c.hmacSha256 secret (signedMessage headerB64 payloadB64) = provided)
  let payloadBytes ← c.base64Decode payloadB64
  let claims ← c.parseClaims payloadBytes
  let exp ← claims.exp
  guard (claimsAccepted c cfg snap now token claims exp = true)
  guard (versionStale c snap claims payloadBytes = false)
  let identity ← buildIdentity c claims payloadBytes
  some { identity := identity, exp := exp, tv := claims.tv }

/-- The uncached path: check, then remember the result for a bounded time. -/
def validateUncached (c : Crypto) (env : EnvVars) (cfg : GatewayConfig)
    (snap : RevocationSnapshot) (now : Nat) (token : String) (cache : TokenCache) :
    TokenCache × Option UserIdentity :=
  match checkToken c cfg snap now token with
  | none => (cache, none)
  | some checked =>
    let entry : CachedToken :=
      { identity := checked.identity
        expiresAt := effectiveCacheExpiry checked.exp now (cacheTtlSecs env)
        tv := checked.tv }
    (cache.put token entry, some checked.identity)

/-- `validate_token`. -/
def validateToken (c : Crypto) (env : EnvVars) (cfg : GatewayConfig) (snap : RevocationSnapshot)
    (nowMs : Nat) (authHeader : String) (cache : TokenCache) : TokenCache × Option UserIdentity :=
  match stripStart "Bearer " authHeader with
  | none => (cache, none)
  | some token =>
    let now := nowMs / 1000
    -- The guard comes before the cache: a stale snapshot rejects cached tokens too.
    if revocationFailClosed env && snapshotStale env nowMs snap then (cache, none)
    else
      match cache.get token with
      | (cache, some entry) =>
        if now < entry.expiresAt then
          -- Of all the checks a hit repeats only the one on the version floor.
          if tvStatus snap entry.identity.userId entry.tv = .stale then (cache.pop token, none)
          else (cache, some entry.identity)
        else validateUncached c env cfg snap now token (cache.pop token)
      | (cache, none) => validateUncached c env cfg snap now token cache

theorem cacheTtlSecs_mem (env : EnvVars) : 1 ≤ cacheTtlSecs env ∧ cacheTtlSecs env ≤ 300 :=
  env.clamped_mem _ (by decide) (by decide)

/-! ## A concrete token -/

def sampleHeader : String := "\x7b\"alg\":\"HS256\"\x7d"

def samplePayload : String :=
  "\x7b\"sub\":\"alice\",\"home_region\":\"US\",\"exp\":2000000000,\"iss\":\"i\",\"aud\":\"a\"\x7d"

def sampleHeaderB64 : String := "eyJhbGciOiJIUzI1NiJ9"

def samplePayloadB64 : String :=
  "eyJzdWIiOiJhbGljZSIsImhvbWVfcmVnaW9uIjoiVVMiLCJleHAiOjIwMDAwMDAwMDAsImlzcyI6ImkiLCJhdWQiOiJhIn0"

def sampleSignatureB64 : String := "-KIQi_m3a9wEEGQ74GR01WPSTQRb7XRZNQnFOG8BzCE"

/-- Alice's token, signed with the secret `k`. -/
def sampleToken : String :=
  sampleHeaderB64 ++ "." ++ samplePayloadB64 ++ "." ++ sampleSignatureB64

def sampleMac : Bytes :=
  [248, 162, 16, 139, 249, 183, 107, 220, 4, 16, 100, 59, 224, 100, 116, 213, 99, 210, 77, 4, 91,
    237, 116, 89, 53, 9, 197, 56, 111, 1, 204, 33]

def sampleTokenDigest : Bytes :=
  [226, 105, 43, 68, 109, 30, 78, 87, 133, 187, 225, 62, 209, 144, 100, 70, 236, 182, 91, 208,
    213, 73, 220, 50, 6, 102, 183, 196, 196, 137, 150, 64]

/-- The library functions on the strings of this token. -/
def sampleCrypto : Crypto where
  base64Decode := fun s =>
    if s = sampleHeaderB64 then some (strBytes sampleHeader)
    else if s = samplePayloadB64 then some (strBytes samplePayload)
    else if s = sampleSignatureB64 then some sampleMac
    else none
  hmacSha256 := fun key message =>
    if key = strBytes "k" ∧ message = signedMessage sampleHeaderB64 samplePayloadB64 then sampleMac
    else []
  sha256 := fun message => if message = strBytes sampleToken then sampleTokenDigest else []
  parseHeader := fun text => if text = strBytes sampleHeader then some { alg := "HS256" } else none
  parseClaims := fun text =>
    if text = strBytes samplePayload then
      some { userId := "alice", homeRegion := some "US", exp := some 2000000000, iss := some "i", aud := some "a" }
    else none
  extractUserIdField := fun _ => none

end Auth
end GatewayEdge
