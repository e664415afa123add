import GatewayEdge.Foundation.Joined
import GatewayEdge.Lua.Gateway

/-!
# Lua.CorsHeaders — the CORS answer across the C boundary

The data plane joins five fields and copies the join into a buffer of fixed size; Lua reads the buffer
back and splits it.  The fields come out as they went in exactly when the join fits the buffer.
-/

namespace GatewayEdge
namespace Cors

open Foundation

variable {cfg : GatewayConfig} {cors : CorsConfig} {origin value : String}

/-! ## The fields -/

/-- What `packed_headers` joins for an allowed origin: allow-origin, methods, headers, max-age,
credentials. -/
def headerFields (cors : CorsConfig) (value : String) : List String :=
  [value, cors.allowedMethods, cors.allowedHeaders, toString cors.maxAge,
    if effectiveCredentials cors value then "true" else "false"]

/-- The wildcard is listed, or the origin is up to ASCII case. -/
def AllowListed (cors : CorsConfig) (origin : String) : Prop :=
  "*" ∈ cors.allowedOrigins ∨ ∃ o ∈ cors.allowedOrigins, eqIgnoreAsciiCase o origin = true

/-- No string of the section holds the separator. -/
def SeparatorFree (cors : CorsConfig) : Prop :=
  (∀ o ∈ cors.allowedOrigins, sep ∉ o.toList) ∧ sep ∉ cors.allowedMethods.toList ∧
    sep ∉ cors.allowedHeaders.toList

theorem packedHeaders_of_allowed (hcors : cfg.cors = some cors)
    (h : allowOrigin cors origin = some value) :
    packedHeaders cfg origin =
      String.intercalate (String.singleton sep) (headerFields cors value) := by
  unfold packedHeaders
  rw [hcors]
  dsimp only
  rw [h]
  rfl

theorem allowOrigin_isSome_iff :
    (allowOrigin cors origin).isSome = true ↔ trim origin ≠ "" ∧ AllowListed cors origin := by
  have hwild : (cors.allowedOrigins.any (· == "*")) = true ↔ "*" ∈ cors.allowedOrigins := by
    simp
  have hexact : (cors.allowedOrigins.any fun o => eqIgnoreAsciiCase o origin) = true ↔
      ∃ o ∈ cors.allowedOrigins, eqIgnoreAsciiCase o origin = true := List.any_eq_true
  unfold allowOrigin AllowListed
  rw [← hwild, ← hexact]
  by_cases hblank : trim origin = ""
  · simp [hblank]
  · cases cors.allowedOrigins.any (· == "*") with
    | true => simp [hblank]
    | false =>
        cases cors.allowedOrigins.any fun o => eqIgnoreAsciiCase o origin with
        | true => simp [hblank]
        | false => simp [hblank]

/-- Separators alone make a join of several fields non-empty. -/
theorem packedHeaders_ne_empty (hcors : cfg.cors = some cors)
    (h : allowOrigin cors origin = some value) : packedHeaders cfg origin ≠ "" := by
  intro hempty
  -- Four separators are at least four bytes.
  have hbytes := congrArg strBytes ((packedHeaders_of_allowed hcors h).symm.trans hempty)
  rw [strBytes_intercalate] at hbytes
  have hlen := congrArg List.length hbytes
  have hjoin := length_join (0x1f : UInt8) (List.cons_ne_nil (strBytes value)
    (((headerFields cors value).drop 1).map strBytes))
  have hsep : strBytes (String.singleton sep) = [0x1f] := by decide
  have hnone : (strBytes "").length = 0 := by decide
  rw [hsep, hnone] at hlen
  change ([0x1f].intercalate ((headerFields cors value).map strBytes)).length + 1 = _ + 5 at hjoin
  omega

/-- Nothing is packed without a section, for a blank origin, and for an origin that is not listed. -/
theorem packedHeaders_eq_empty_iff :
    packedHeaders cfg origin = "" ↔ cfg.cors = none ∨ trim origin = "" ∨
      ∃ cors, cfg.cors = some cors ∧ ¬ AllowListed cors origin := by
  cases hcors : cfg.cors with
  | none => simp [packedHeaders, hcors]
  | some cors =>
      have hiff : (allowOrigin cors origin).isSome = true ↔ trim origin ≠ "" ∧ AllowListed cors origin :=
        allowOrigin_isSome_iff
      cases hallowed : allowOrigin cors origin with
      | none =>
          rw [hallowed] at hiff
          have hempty : packedHeaders cfg origin = "" := by
            unfold packedHeaders
            rw [hcors]
            dsimp only
            rw [hallowed]
          simp only [hempty, true_iff, reduceCtorEq, false_or, Option.some.injEq, exists_eq_left']
          simp only [Option.isSome_none, Bool.false_eq_true, false_iff, not_and] at hiff
          exact Classical.or_iff_not_imp_left.2 hiff
      | some value =>
          rw [hallowed] at hiff
          simp only [packedHeaders_ne_empty hcors hallowed, reduceCtorEq, false_or, Option.some.injEq,
            exists_eq_left', false_iff, not_or, not_not]
          exact hiff.1 rfl

/-- The credentials are never announced together with the wildcard. -/
theorem no_credentials_with_wildcard (cors : CorsConfig) :
    (headerFields cors "*")[4]? = some "false" := by
  simp [headerFields, effectiveCredentials_wildcard]

/-! ## Fields without separators -/

/-- Only letters change in lower case. -/
theorem toLower_eq_sep {c : Char} (h : c.toLower = sep) : c = sep := by
  by_cases hupper : c.val ≥ 'A'.val ∧ c.val ≤ 'Z'.val
  · -- A letter: its lower case is looked up.
    have hge : 65 ≤ c.toNat := UInt32.le_iff_toNat_le.1 hupper.1
    have hle : c.toNat ≤ 90 := UInt32.le_iff_toNat_le.1 hupper.2
    have hchar : Char.ofNat c.toNat = c := Char.ofNat_toNat c
    have hnone : ∀ n ≤ 90, 65 ≤ n → (Char.ofNat n).toLower ≠ sep := by decide
    rw [← hchar] at h
    exact absurd h (hnone _ hle hge)
  · have hsame : c.toLower = c := by
      unfold Char.toLower
      exact dif_neg hupper
    rwa [hsame] at h

/-- An echoed origin has the separator only if a listed one has. -/
theorem sep_notMem_value (hfree : SeparatorFree cors) (h : allowOrigin cors origin = some value) :
    sep ∉ value.toList := by
  rcases allowOrigin_eq_some h with ⟨rfl, -⟩ | ⟨rfl, o, ho, hsame⟩
  · decide
  · intro hmem
    -- The origin is echoed as it came in, but it is a listed one up to case.
    have hfolded : o.toList.map Char.toLower = value.toList.map Char.toLower := by
      simpa [eqIgnoreAsciiCase] using hsame
    have hsep : sep ∈ o.toList.map Char.toLower := by
      rw [hfolded]
      exact List.mem_map.2 ⟨sep, hmem, by decide⟩
    rcases List.mem_map.1 hsep with ⟨c, hc, hlower⟩
    exact hfree.1 o ho (toLower_eq_sep hlower ▸ hc)

theorem sep_notMem_decimal (n : ℕ) : sep ∉ (toString n).toList := by
  intro hmem
  rw [Nat.toString_eq_ofList_toDigits, String.toList_ofList] at hmem
  exact absurd (Nat.isDigit_of_mem_toDigits (by decide) (by decide) hmem) (by decide)

/-- No field of a section without separators has one. -/
theorem sep_notMem_fields (hfree : SeparatorFree cors) (h : allowOrigin cors origin = some value) :
    ∀ field ∈ (headerFields cors value).map strBytes, (0x1f : UInt8) ∉ field := by
  have hascii : ∀ s : String, sep ∉ s.toList → (0x1f : UInt8) ∉ strBytes s :=
    fun s hs => ascii_notMem_strBytes (by decide) hs
  intro field hfield
  rcases List.mem_map.1 hfield with ⟨s, hs, rfl⟩
  apply hascii
  simp only [headerFields, List.mem_cons, List.not_mem_nil, or_false] at hs
  -- Allow-origin, methods, headers, max-age and credentials.
  rcases hs with rfl | rfl | rfl | rfl | rfl
  · exact sep_notMem_value hfree h
  · exact hfree.2.1
  · exact hfree.2.2
  · exact sep_notMem_decimal cors.maxAge
  · split <;> decide

end Cors

namespace Lua

open Foundation
open Gateway (strArg writeCString)

variable {cfg : GatewayConfig} {cors : CorsConfig} {origin buf : Bytes} {value : String}

/-! ## Reading the buffer back -/

/-- The string `apply_cors` reads from the buffer. -/
def corsRead (cfg : GatewayConfig) (origin buf : Bytes) : Bytes :=
  ((Cors.getCorsHeaders cfg (some origin) (some buf)).1.getD buf).take
    (Cors.getCorsHeaders cfg (some origin) (some buf)).2

/-- The parts `apply_cors` splits it into. -/
def corsParts (cfg : GatewayConfig) (origin buf : Bytes) : List Bytes :=
  (corsRead cfg origin buf).splitOn 0x1f

/-- Lua reads the packed string, cut off at one byte less than the buffer. -/
theorem corsRead_eq (hpos : 0 < buf.length) :
    corsRead cfg origin buf =
      (strBytes (Cors.packedHeaders cfg (strArg (some origin)))).take (buf.length - 1) := by
  generalize hpacked : strBytes (Cors.packedHeaders cfg (strArg (some origin))) = packed
  have hwritten : writeCString (Cors.packedHeaders cfg (strArg (some origin))) (some buf) = _ :=
    Gateway.writeCString_of_pos hpos
  have hanswer : Cors.getCorsHeaders cfg (some origin) (some buf) =
      (some (packed.take (buf.length - 1) ++ [0] ++ buf.drop (min packed.length (buf.length - 1) + 1)),
        min packed.length (buf.length - 1)) := by
    unfold Cors.getCorsHeaders
    dsimp only
    rw [if_neg (Nat.pos_iff_ne_zero.1 hpos), hwritten, hpacked]
  -- Lua takes as many bytes as were copied in front of the NUL.
  have hlen : min packed.length (buf.length - 1) = (packed.take (buf.length - 1)).length := by
    rw [List.length_take, Nat.min_comm]
  unfold corsRead
  rw [hanswer]
  dsimp only
  rw [Option.getD_some, List.append_assoc, hlen, List.take_left]

/-- What the client of an allowed preflight is told, by the parts. -/
structure PreflightTold (parts : List Bytes) (headers : Headers) : Prop where
  origin : headers "Access-Control-Allow-Origin" = parts[0]?
  methods : headers "Access-Control-Allow-Methods" = parts[1]?
  allowedHeaders : headers "Access-Control-Allow-Headers" = parts[2]?
  maxAge : headers "Access-Control-Max-Age" = parts[3]?
  credentials : headers "Access-Control-Allow-Credentials" =
    if parts[4]? = some (bytes "true") then some (bytes "true") else none

/-- A preflight with an answer is told its parts. -/
theorem applyCors_preflight {req : ClientRequest} (horigin : req.httpOrigin = some origin)
    (hne : origin ≠ []) (hmethod : req.method = bytes "OPTIONS")
    (hread : corsRead cfg origin buf ≠ []) :
    PreflightTold (corsParts cfg origin buf) (applyCors cfg req buf fun _ => none).2.1 := by
  unfold corsParts
  unfold corsRead at hread ⊢
  unfold applyCors
  rw [horigin]
  dsimp only
  rw [if_neg hne]
  generalize Cors.getCorsHeaders cfg (some origin) (some buf) = answer at hread ⊢
  rcases answer with ⟨written, n⟩
  dsimp only at hread ⊢
  rw [if_neg hread, hmethod]
  generalize ((written.getD buf).take n).splitOn 0x1f = parts
  -- The credentials header is only set for the text `true`.
  by_cases hcredentials : parts[4]? = some (bytes "true")
  · refine ⟨?_, ?_, ?_, ?_, ?_⟩ <;> simp [hcredentials, Function.update]
  · refine ⟨?_, ?_, ?_, ?_, ?_⟩ <;> simp [hcredentials, Function.update]

/-! ## The round trip -/

/-- The fields and the four separators between them leave room for the closing NUL. -/
def FieldsFit (cors : CorsConfig) (value : String) : Prop :=
  ((Cors.headerFields cors value).map fun field => (strBytes field).length).sum + 4 < corsLen

theorem corsParts_eq_iff (hcors : cfg.cors = some cors) (hfree : Cors.SeparatorFree cors)
    (hallowed : Cors.allowOrigin cors (strArg (some origin)) = some value)
    (hlen : buf.length = corsLen) :
    corsParts cfg origin buf = (Cors.headerFields cors value).map strBytes ↔ FieldsFit cors value := by
  have hsep : strBytes (String.singleton Cors.sep) = [0x1f] := by decide
  have hne : (Cors.headerFields cors value).map strBytes ≠ [] := List.cons_ne_nil _ _
  have hpos : 0 < buf.length := by
    rw [hlen]
    decide
  have hjoin := length_join (0x1f : UInt8) hne
  have hfields : ((Cors.headerFields cors value).map strBytes).length = 5 := rfl
  unfold corsParts
  rw [corsRead_eq hpos, Cors.packedHeaders_of_allowed hcors hallowed, strBytes_intercalate, hsep,
    splitOn_take_join_iff hne (Cors.sep_notMem_fields hfree hallowed), hlen]
  rw [List.map_map] at hjoin
  change _ = ((Cors.headerFields cors value).map fun field => (strBytes field).length).sum + _ at hjoin
  unfold FieldsFit corsLen
  omega

/-- The fields of a section without separators come out of the buffer as they were packed exactly when
they fit.  For every section and origin the credentials are never announced with the wildcard, and the
packed string is empty exactly without a section, for a blank origin or for one that is not listed. -/
theorem cors_fields_survive_iff_fit (cfg : GatewayConfig) (origin : String) :
    (∀ cors value bs buf, cfg.cors = some cors → Cors.SeparatorFree cors →
      strArg (some bs) = origin → Cors.allowOrigin cors origin = some value → buf.length = corsLen →
        (corsParts cfg bs buf = (Cors.headerFields cors value).map strBytes ↔ FieldsFit cors value)) ∧
    (∀ cors value, Cors.allowOrigin cors origin = some value →
      ¬(value = "*" ∧ (Cors.headerFields cors value)[4]? = some "true")) ∧
    (Cors.packedHeaders cfg origin = "" ↔
      cfg.cors = none ∨ trim origin = "" ∨
        ∃ cors, cfg.cors = some cors ∧ ¬ Cors.AllowListed cors origin) := by
  refine ⟨?_, ?_, Cors.packedHeaders_eq_empty_iff⟩
  · rintro cors value bs buf hcors hfree rfl hallowed hlen
    exact corsParts_eq_iff hcors hfree hallowed hlen
  · rintro cors value - ⟨rfl, htrue⟩
    rw [Cors.no_credentials_with_wildcard] at htrue
    exact absurd htrue (by decide)

/-- One origin, with the methods, headers and age a section has by default. -/
def shortCors : CorsConfig := { allowedOrigins := ["https://a.dev"] }

/-- The same with a list of headers as long as the buffer. -/
def longCors : CorsConfig :=
  { shortCors with allowedHeaders := String.ofList (List.replicate 512 'a') }

theorem allowed_sample (cors : CorsConfig) (horigins : cors.allowedOrigins = ["https://a.dev"])
    (hcredentials : cors.allowCredentials = true) :
    Cors.allowOrigin cors (strArg (some (bytes "https://a.dev"))) = some "https://a.dev" := by
  have horigin : strArg (some (bytes "https://a.dev")) = "https://a.dev" :=
    Gateway.strArg_strBytes (by decide)
  rw [horigin]
  unfold Cors.allowOrigin
  rw [horigins, hcredentials]
  decide

theorem short_section_survives :
    corsParts { cors := some shortCors } (bytes "https://a.dev") ScratchBuffers.fresh.cors =
      (Cors.headerFields shortCors "https://a.dev").map strBytes := by
  have hfree : Cors.SeparatorFree shortCors := by
    unfold Cors.SeparatorFree
    decide +kernel
  refine ((cors_fields_survive_iff_fit { cors := some shortCors } _).1 shortCors _ _ _ rfl hfree rfl
    (allowed_sample shortCors rfl rfl) List.length_replicate).2 ?_
  unfold FieldsFit
  decide +kernel

/-- A long list of headers fills the buffer: what follows it never reaches Lua. -/
theorem long_section_cut_off :
    Cors.SeparatorFree longCors ∧
      Cors.allowOrigin longCors (strArg (some (bytes "https://a.dev"))) = some "https://a.dev" ∧
      corsParts { cors := some longCors } (bytes "https://a.dev") ScratchBuffers.fresh.cors ≠
        (Cors.headerFields longCors "https://a.dev").map strBytes := by
  have hfree : Cors.SeparatorFree longCors := by
    refine ⟨by decide, by decide, ?_⟩
    unfold longCors
    rw [String.toList_ofList]
    intro hmem
    exact absurd (List.eq_of_mem_replicate hmem) (by decide)
  have hallowed := allowed_sample longCors rfl rfl
  refine ⟨hfree, hallowed, fun hparts => ?_⟩
  have hfit : FieldsFit longCors "https://a.dev" :=
    (corsParts_eq_iff rfl hfree hallowed List.length_replicate).1 hparts
  have hchars : longCors.allowedHeaders.toList.length = 512 := by
    unfold longCors
    rw [String.toList_ofList, List.length_replicate]
  have hlong := length_le_strBytes longCors.allowedHeaders
  unfold FieldsFit Cors.headerFields corsLen at hfit
  simp only [List.map_cons, List.map_nil, List.sum_cons] at hfit
  omega

end Lua
end GatewayEdge
