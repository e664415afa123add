import GatewayEdge.AuthSoundness
import GatewayEdge.Foundation.Utf8Encode

/-!
# IssuedToken — a token the auth service signs passes the check

A token is given by its parts and the library by the strings of some tokens.  What `checkToken` makes of
such a token follows from its claims, so that a concrete run never decodes it.
-/

namespace GatewayEdge
namespace IssuedToken

open Auth
open AuthSoundness (Checks readToken checkToken_eq_some_iff splitToken_append)
open Foundation
open Revocation (RevocationSnapshot)

/-- A token signed with the secret `k`. -/
structure Issued where
  claims : JwtClaims
  payload : String
  payloadB64 : String
  signatureB64 : String
  mac : Bytes
  digest : Bytes

def Issued.token (t : Issued) : String :=
  sampleHeaderB64 ++ "." ++ t.payloadB64 ++ "." ++ t.signatureB64

/-- The library functions on the strings of these tokens. -/
def cryptoOf (ts : List Issued) : Crypto where
  base64Decode := fun s =>
    if s = sampleHeaderB64 then some (strBytes sampleHeader)
    else
      match ts.find? fun t => t.payloadB64 = s with
      | some t => some (strBytes t.payload)
      | none => (ts.find? fun t => t.signatureB64 = s).map Issued.mac
  hmacSha256 := fun key message =>
    match ts.find? fun t => key = strBytes "k" ∧
        message = signedMessage sampleHeaderB64 t.payloadB64 with
    | some t => t.mac
    | none => []
  sha256 := fun message => ((ts.find? fun t => message = strBytes t.token).map Issued.digest).getD []
  parseHeader := sampleCrypto.parseHeader
  parseClaims := fun text => (ts.find? fun t => text = strBytes t.payload).map Issued.claims
  extractUserIdField := fun _ => none

/-- The token is one of these, and told apart from the others by each of its parts. -/
structure Known (ts : List Issued) (t : Issued) : Prop where
  mem : t ∈ ts
  oneLine : '.' ∉ t.payloadB64.toList
  header : t.payloadB64 ≠ sampleHeaderB64 ∧ t.signatureB64 ≠ sampleHeaderB64
  payloadB64 : ∀ t' ∈ ts, t'.payloadB64 = t.payloadB64 → t' = t
  payload : ∀ t' ∈ ts, t'.payload = t.payload → t' = t
  signature : ∀ t' ∈ ts, t'.signatureB64 = t.signatureB64 → t' = t
  apart : ∀ t' ∈ ts, t'.payloadB64 ≠ t.signatureB64

/-! ## Reading and checking -/

theorem signedMessage_injective {header p₁ p₂ : String}
    (h : signedMessage header p₁ = signedMessage header p₂) : p₁ = p₂ :=
  strBytes_injective (List.append_cancel_left h)

theorem find?_eq_some_of_only {α : Type*} {q : α → Bool} {xs : List α} {x : α} (hx : x ∈ xs)
    (hq : q x = true) (honly : ∀ y ∈ xs, q y = true → y = x) : xs.find? q = some x := by
  cases hfind : xs.find? q with
  | none => exact absurd hq (List.find?_eq_none.1 hfind x hx)
  | some y => rw [honly y (List.mem_of_find?_eq_some hfind) (List.find?_some hfind)]

section Tokens

variable {ts : List Issued} {t : Issued}

theorem readToken_issued (h : Known ts t) :
    readToken (cryptoOf ts) t.token = some
      { header := { alg := "HS256" }
        claims := t.claims
        message := signedMessage sampleHeaderB64 t.payloadB64
        signature := t.mac
        payload := strBytes t.payload } := by
  have hsplit : splitToken t.token = some (sampleHeaderB64, t.payloadB64, t.signatureB64) :=
    splitToken_append (by decide) h.oneLine
  have hheader : (cryptoOf ts).base64Decode sampleHeaderB64 = some (strBytes sampleHeader) := by
    simp [cryptoOf]
  have hparsed : (cryptoOf ts).parseHeader (strBytes sampleHeader) = some { alg := "HS256" } := by
    simp [cryptoOf, sampleCrypto]
  have hpayload : (cryptoOf ts).base64Decode t.payloadB64 = some (strBytes t.payload) := by
    have hfind : (ts.find? fun t' => t'.payloadB64 = t.payloadB64) = some t :=
      find?_eq_some_of_only h.mem (by simp) fun t' ht' hq => h.payloadB64 t' ht' (by simpa using hq)
    simp [cryptoOf, h.header.1, hfind]
  have hsignature : (cryptoOf ts).base64Decode t.signatureB64 = some t.mac := by
    have hnone : (ts.find? fun t' => t'.payloadB64 = t.signatureB64) = none :=
      List.find?_eq_none.2 fun t' ht' => by simpa using h.apart t' ht'
    have hfind : (ts.find? fun t' => t'.signatureB64 = t.signatureB64) = some t :=
      find?_eq_some_of_only h.mem (by simp) fun t' ht' hq => h.signature t' ht' (by simpa using hq)
    simp [cryptoOf, h.header.2, hnone, hfind]
  have hclaims : (cryptoOf ts).parseClaims (strBytes t.payload) = some t.claims := by
    have hfind : (ts.find? fun t' => strBytes t.payload = strBytes t'.payload) = some t :=
      find?_eq_some_of_only h.mem (by simp) fun t' ht' hq =>
        h.payload t' ht' (strBytes_injective (by simpa using hq)).symm
    simp [cryptoOf, hfind]
  simp [readToken, hsplit, hheader, hparsed, hsignature, hpayload, hclaims]

/-- A platform may know one token only. -/
theorem known_single (hline : '.' ∉ t.payloadB64.toList)
    (hheader : t.payloadB64 ≠ sampleHeaderB64 ∧ t.signatureB64 ≠ sampleHeaderB64)
    (hapart : t.payloadB64 ≠ t.signatureB64) : Known [t] t where
  mem := List.mem_singleton_self _
  oneLine := hline
  header := hheader
  payloadB64 := fun _ ht _ => List.mem_singleton.1 ht
  payload := fun _ ht _ => List.mem_singleton.1 ht
  signature := fun _ ht _ => List.mem_singleton.1 ht
  apart := fun _ ht => List.mem_singleton.1 ht ▸ hapart

/-- Signed as it is, a token passes the check on the strength of its claims. -/
theorem checkToken_issued {cfg : GatewayConfig} {snap : RevocationSnapshot} {now exp : Nat}
    {id : UserIdentity} (h : Known ts t) (hkey : cfg.jwtSecret = "k") (hexp : t.claims.exp = some exp)
    (haccepted : claimsAccepted (cryptoOf ts) cfg snap now t.token t.claims exp = true)
    (hversion : versionStale (cryptoOf ts) snap t.claims (strBytes t.payload) = false)
    (hid : buildIdentity (cryptoOf ts) t.claims (strBytes t.payload) = some id) :
    checkToken (cryptoOf ts) cfg snap now t.token =
      some { identity := id, exp := exp, tv := t.claims.tv } := by
  have hmac : (cryptoOf ts).hmacSha256 (strBytes "k") (signedMessage sampleHeaderB64 t.payloadB64) =
      t.mac := by
    have hfind : (ts.find? fun t' => strBytes "k" = strBytes "k" ∧
        signedMessage sampleHeaderB64 t.payloadB64 =
          signedMessage sampleHeaderB64 t'.payloadB64) = some t := by
      refine find?_eq_some_of_only h.mem (by simp) fun t' ht' hq => h.payloadB64 t' ht' ?_
      exact (signedMessage_injective (by simpa using hq)).symm
    unfold cryptoOf
    dsimp only
    rw [hfind]
  exact checkToken_eq_some_iff.2 ⟨_,
    { read := readToken_issued h
      algorithm := rfl
      signed := ⟨strBytes "k", by simp [signingSecret, hkey], hmac⟩
      exp := hexp
      accepted := haccepted
      version := hversion
      identity := hid
      tv := rfl }⟩

end Tokens

end IssuedToken
end GatewayEdge
