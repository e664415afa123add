import GatewayEdge.ProcessRequest

/-!
# Cors — the dynamic CORS answer

The origin is looked up in the distributed config and the five header values travel to Lua packed
into one buffer, separated by `\x1f`.
-/

namespace GatewayEdge
namespace Cors

open Foundation
open Gateway (strArg writeCString)

def sep : Char := '\x1f'

/-- `allow_origin`: the value of `Access-Control-Allow-Origin`. -/
def allowOrigin (cfg : CorsConfig) (origin : String) : Option String :=
  if trim origin = "" then none
  else if cfg.allowedOrigins.any (· == "*") then some "*"
  else
    let exactly := cfg.allowedOrigins.any fun o => eqIgnoreAsciiCase o origin
    if exactly ∧ cfg.allowCredentials then some origin
    else if exactly then some origin
    else none

def effectiveCredentials (cfg : CorsConfig) (originValue : String) : Bool :=
  cfg.allowCredentials && originValue != "*"

/-- `packed_headers`: empty when the origin is not allowed or CORS is off. -/
def packedHeaders (cfg : GatewayConfig) (origin : String) : String :=
  match cfg.cors with
  | none => ""
  | some cors =>
    match allowOrigin cors origin with
    | none => ""
    | some value =>
      String.intercalate (String.singleton sep)
        [value, cors.allowedMethods, cors.allowedHeaders, toString cors.maxAge,
          if effectiveCredentials cors value then "true" else "false"]

/-- `get_cors_headers`: the buffer afterwards, and how many of its bytes are the answer. -/
def getCorsHeaders (cfg : GatewayConfig) (origin : Option Bytes) (buf : Option Bytes) :
    Option Bytes × Nat :=
  match buf with
  | none => (none, 0)
  | some b =>
    if b.length = 0 then (some b, 0)
    else
      let packed := packedHeaders cfg (strArg origin)
      (writeCString packed (some b), min (strBytes packed).length (b.length - 1))

/-- A wildcard answer never comes with credentials. -/
theorem effectiveCredentials_wildcard (cfg : CorsConfig) : effectiveCredentials cfg "*" = false := by
  simp [effectiveCredentials]

/-- Only a configured origin, or the wildcard, is ever echoed. -/
theorem allowOrigin_eq_some {cfg : CorsConfig} {origin value : String}
    (h : allowOrigin cfg origin = some value) :
    (value = "*" ∧ "*" ∈ cfg.allowedOrigins) ∨
      (value = origin ∧ ∃ o ∈ cfg.allowedOrigins, eqIgnoreAsciiCase o origin = true) := by
  unfold allowOrigin at h
  split at h
  · cases h
  · split at h
    · rename_i hwild
      have hvalue : "*" = value := Option.some.inj h
      exact Or.inl ⟨hvalue.symm, by simpa using hwild⟩
    · dsimp only at h
      split at h
      · rename_i hexact
        have hvalue : origin = value := Option.some.inj h
        exact Or.inr ⟨hvalue.symm, by simpa using hexact.1⟩
      · split at h
        · rename_i hexact
          have hvalue : origin = value := Option.some.inj h
          exact Or.inr ⟨hvalue.symm, by simpa using hexact⟩
        · cases h

end Cors
end GatewayEdge
