import GatewayEdge.IssuedToken
import GatewayEdge.Lua.Identity

/-!
# Lua.UpstreamHeaders — which user and region an upstream is told about

The validated identity crosses from the data plane to the bridge in buffers of 128 and 16 bytes.  A value
that does not fit is cut off without notice, so an upstream hears the first 127 bytes of a user id, and two
users who agree in these are one user to it.
-/

namespace GatewayEdge
namespace Lua
namespace UpstreamHeaders

open Foundation
open Auth (UserIdentity)
open AuthSoundness (HeaderSafe checkToken_sound sanitizeHeaderVal_of_safe)
open Gateway (Platform World cStr requestIdentity)
open Identity
open IssuedToken

/-- An admitted request of a user, somewhere in a run of some worker. -/
structure Served (p : Platform) (w : World) (es : List Event) (s : WorkerState) (req : ClientRequest)
    (headers : Headers) (id : UserIdentity) : Prop where
  reached : run (step p) (start w) es = some s
  admitted : (access p req headers s.world s.bufs).Admitted
  identity : requestIdentity p s.world (args req) = some id
  /-- Some complete check of a token has made the identity. -/
  validated : ∃ cfg snap now token checked,
    Auth.checkToken p.crypto cfg snap now token = some checked ∧ checked.identity = id

/-! ## What fits into a buffer -/

/-- The value fits into a buffer of this size, with its NUL. -/
def Fits (len : ℕ) (value : String) : Prop := (strBytes value).length ≤ len - 1

theorem strBytes_ne_nil {value : String} (h : value ≠ "") : strBytes value ≠ [] := by
  have hempty : strBytes "" = [] := by decide
  intro hnil
  exact h (strBytes_injective (hnil.trans hempty.symm))

/-- A value without a NUL is carried up to the size of the buffer. -/
theorem carried_of_safe {len : ℕ} {value : String} (h : HeaderSafe value) :
    carried len (some value) = (strBytes value).take (len - 1) := by
  have hzero : (0 : UInt8) ∉ strBytes value := zero_notMem_strBytes h.2.2
  exact Gateway.cStr_of_no_nul fun hmem => hzero (List.mem_of_mem_take hmem)

/-- A header that is set from a buffer. -/
theorem header_eq_take {len : ℕ} {value : String} {header : Option Bytes} (hlen : 1 < len)
    (hsafe : HeaderSafe value) (hne : value ≠ "")
    (hheader : header =
      if carried len (some value) ≠ [] then some (carried len (some value)) else none) :
    header = some ((strBytes value).take (len - 1)) := by
  have hbytes := strBytes_ne_nil hne
  rw [carried_of_safe hsafe] at hheader
  rw [hheader, if_pos]
  intro hnil
  rcases List.take_eq_nil_iff.1 hnil with hzero | hempty
  · omega
  · exact hbytes hempty

theorem take_eq_iff_fits {len : ℕ} {value : String} :
    some ((strBytes value).take (len - 1)) = some (strBytes value) ↔ Fits len value := by
  rw [Option.some.injEq, List.take_eq_self_iff]
  rfl

section Requests

variable {p : Platform} {w : World} {es : List Event} {s : WorkerState} {req : ClientRequest}
  {headers : Headers} {id : UserIdentity}

theorem Served.safe (h : Served p w es s req headers id) :
    HeaderSafe id.userId ∧ ∀ home, id.homeRegion = some home → HeaderSafe home := by
  rcases h.validated with ⟨cfg, snap, now, token, checked, hcheck, rfl⟩
  rcases checkToken_sound hcheck with ⟨parts, hvalid, -⟩
  exact ⟨hvalid.userIdSafe, hvalid.homeRegionSafe⟩

/-- The upstream is told as much of the user's id as fits. -/
theorem Served.userId_header (h : Served p w es s req headers id) (hne : id.userId ≠ "") :
    (access p req headers s.world s.bufs).requestHeaders "X-User-Id" =
      some ((strBytes id.userId).take (userIdLen - 1)) := by
  have hsizes := invariant_run (sizesKept_step p) (sizesKept_start w) h.reached
  have hheader := (access_headers h.admitted).userId
  rw [(buffers_of_admitted hsizes h.admitted).1 id h.identity] at hheader
  exact header_eq_take (by decide) h.safe.1 hne hheader

/-- The same for the home region. -/
theorem Served.homeRegion_header (h : Served p w es s req headers id) {home : String}
    (hregion : id.homeRegion = some home) (hne : home ≠ "") :
    (access p req headers s.world s.bufs).requestHeaders "X-Home-Region" =
      some ((strBytes home).take (homeRegionLen - 1)) := by
  have hsizes := invariant_run (sizesKept_step p) (sizesKept_start w) h.reached
  have hheader := (access_headers h.admitted).homeRegion
  rw [(buffers_of_admitted hsizes h.admitted).2 home (by rw [h.identity]; exact hregion)] at hheader
  exact header_eq_take (by decide) (h.safe.2 home hregion) hne hheader

/-- The user's own id arrives exactly when it fits. -/
theorem Served.userId_iff (h : Served p w es s req headers id) (hne : id.userId ≠ "") :
    (access p req headers s.world s.bufs).requestHeaders "X-User-Id" = some (strBytes id.userId) ↔
      Fits userIdLen id.userId := by
  rw [h.userId_header hne]
  exact take_eq_iff_fits

theorem Served.homeRegion_iff (h : Served p w es s req headers id) {home : String}
    (hregion : id.homeRegion = some home) (hne : home ≠ "") :
    (access p req headers s.world s.bufs).requestHeaders "X-Home-Region" = some (strBytes home) ↔
      Fits homeRegionLen home := by
  rw [h.homeRegion_header hregion hne]
  exact take_eq_iff_fits

end Requests

/-! ## Two requests -/

/-- Two headers tell two different values apart, and each is the value of its own request. -/
def ToldApart (header₁ header₂ : Option Bytes) (value₁ value₂ : String) : Prop :=
  header₁ ≠ header₂ ∧ header₁ = some (strBytes value₁) ∧ header₂ = some (strBytes value₂)

/-- Own values of different requests are different values. -/
theorem toldApart_iff {header₁ header₂ : Option Bytes} {value₁ value₂ : String} {len : ℕ}
    (h₁ : header₁ = some (strBytes value₁) ↔ Fits len value₁)
    (h₂ : header₂ = some (strBytes value₂) ↔ Fits len value₂) (hne : value₁ ≠ value₂) :
    ToldApart header₁ header₂ value₁ value₂ ↔ Fits len value₁ ∧ Fits len value₂ := by
  unfold ToldApart
  rw [← h₁, ← h₂]
  constructor
  · exact fun h => h.2
  · rintro ⟨hown₁, hown₂⟩
    refine ⟨fun hsame => hne (strBytes_injective ?_), hown₁, hown₂⟩
    exact Option.some.inj (hown₁.symm.trans (hsame.trans hown₂))

/-- Upstream, different users and different home regions stay different, each under its own name, exactly
when the user ids have at most 127 bytes and the regions at most 15. -/
theorem told_apart_iff_fit {p : Platform} {w₁ w₂ : World} {es₁ es₂ : List Event} {s₁ s₂ : WorkerState}
    {req₁ req₂ : ClientRequest} {headers₁ headers₂ : Headers} {id₁ id₂ : UserIdentity}
    (h₁ : Served p w₁ es₁ s₁ req₁ headers₁ id₁) (h₂ : Served p w₂ es₂ s₂ req₂ headers₂ id₂)
    (hne₁ : id₁.userId ≠ "") (hne₂ : id₂.userId ≠ "") :
    let r₁ := access p req₁ headers₁ s₁.world s₁.bufs
    let r₂ := access p req₂ headers₂ s₂.world s₂.bufs
    ((id₁.userId ≠ id₂.userId →
        ToldApart (r₁.requestHeaders "X-User-Id") (r₂.requestHeaders "X-User-Id") id₁.userId
          id₂.userId) ∧
      ∀ home₁ home₂, id₁.homeRegion = some home₁ → id₂.homeRegion = some home₂ → home₁ ≠ "" →
        home₂ ≠ "" → home₁ ≠ home₂ →
          ToldApart (r₁.requestHeaders "X-Home-Region") (r₂.requestHeaders "X-Home-Region") home₁
            home₂) ↔
    ((id₁.userId ≠ id₂.userId → Fits userIdLen id₁.userId ∧ Fits userIdLen id₂.userId) ∧
      ∀ home₁ home₂, id₁.homeRegion = some home₁ → id₂.homeRegion = some home₂ → home₁ ≠ "" →
        home₂ ≠ "" → home₁ ≠ home₂ → Fits homeRegionLen home₁ ∧ Fits homeRegionLen home₂) := by
  dsimp only
  refine and_congr (forall_congr' fun hne => ?_) ?_
  · exact toldApart_iff (h₁.userId_iff hne₁) (h₂.userId_iff hne₂) hne
  · refine forall_congr' fun home₁ => forall_congr' fun home₂ => ?_
    refine forall_congr' fun hregion₁ => forall_congr' fun hregion₂ => ?_
    refine forall_congr' fun hhome₁ => forall_congr' fun hhome₂ => forall_congr' fun hne => ?_
    exact toldApart_iff (h₁.homeRegion_iff hregion₁ hhome₁) (h₂.homeRegion_iff hregion₂ hhome₂) hne

/-! ## Two users of one region -/

/-- A user whose id is a run of `3 * copies + 1` letters `a` and one other letter, with the parts of his
token that depend on that letter. -/
structure Member where
  copies : ℕ
  last : Char
  /-- What the last letter is in Base64. -/
  mark : Char
  signatureB64 : String
  mac : Bytes
  digest : Bytes
  hash : ℕ
  p2cHash : ℕ

namespace Member

def userId (m : Member) : String :=
  String.ofList (List.replicate (3 * m.copies + 1) 'a') ++ String.singleton m.last

def identity (m : Member) : UserIdentity := { userId := m.userId, homeRegion := some "US" }

/-- Three letters `a` are four characters of Base64. -/
def stem (copies : ℕ) : List Char := (List.replicate copies ['Y', 'W', 'F', 'h']).flatten

def suffixB64 : String :=
  "IsImhvbWVfcmVnaW9uIjoiVVMiLCJleHAiOjIwMDAwMDAwMDAsImlzcyI6ImkiLCJhdWQiOiJhIn0"

def issued (m : Member) : Issued where
  claims :=
    { userId := m.userId
      homeRegion := some "US"
      exp := some 2000000000
      iss := some "i"
      aud := some "a" }
  payload := "\x7b\"sub\":\"" ++ m.userId ++
    "\",\"home_region\":\"US\",\"exp\":2000000000,\"iss\":\"i\",\"aud\":\"a\"\x7d"
  payloadB64 := "eyJzdWIiOiJh" ++ String.ofList (stem m.copies) ++ "Y" ++ String.singleton m.mark ++ suffixB64
  signatureB64 := m.signatureB64
  mac := m.mac
  digest := m.digest

def authorization (m : Member) : String := "Bearer " ++ m.issued.token

def request (m : Member) : ClientRequest := sampleRequest (some (bytes m.authorization))

/-- What there is to see of a member's strings. -/
structure WellFormed (m : Member) : Prop where
  copies : m.copies ≤ 200
  last : m.last ≠ '\r' ∧ m.last ≠ '\n' ∧ m.last ≠ '\x00'
  mark : m.mark ≠ '.' ∧ m.mark ≠ '\x00'
  signature : '\x00' ∉ m.signatureB64.toList
  length : m.signatureB64.toList.length = 43
  header : m.signatureB64 ≠ Auth.sampleHeaderB64

theorem userId_toList (m : Member) :
    m.userId.toList = List.replicate (3 * m.copies + 1) 'a' ++ [m.last] := by
  rw [userId, String.toList_append, String.toList_ofList, String.toList_singleton]

theorem payloadB64_toList (m : Member) :
    m.issued.payloadB64.toList =
      "eyJzdWIiOiJh".toList ++ stem m.copies ++ "Y".toList ++ [m.mark] ++ suffixB64.toList := by
  simp only [issued, String.toList_append, String.toList_ofList, String.toList_singleton]

theorem authorization_toList (m : Member) :
    m.authorization.toList = "Bearer ".toList ++ (Auth.sampleHeaderB64.toList ++ ".".toList ++
      m.issued.payloadB64.toList ++ ".".toList ++ m.signatureB64.toList) := by
  simp only [authorization, Issued.token, String.toList_append]
  rfl

theorem userId_ne_empty (m : Member) : m.userId ≠ "" := by
  intro hempty
  have hlength := congrArg (fun s => s.toList.length) hempty
  simp [m.userId_toList] at hlength

/-- The letters `a` come first. -/
theorem take_userId (m : Member) :
    (strBytes m.userId).take (3 * m.copies + 1) = List.replicate (3 * m.copies + 1) 97 := by
  have hletters : (List.replicate (3 * m.copies + 1) 'a').flatMap String.utf8EncodeChar =
      List.replicate (3 * m.copies + 1) 97 := by
    have hletter : String.utf8EncodeChar 'a' = [97] := by decide
    induction 3 * m.copies + 1 with
    | zero => rfl
    | succ n ih => rw [List.replicate_succ, List.flatMap_cons, ih, hletter, List.replicate_succ]; rfl
  rw [strBytes_eq, m.userId_toList, List.flatMap_append, hletters]
  exact List.take_left' List.length_replicate

theorem authorization_ne_empty (m : Member) : m.authorization ≠ "" := by
  intro hempty
  have hlength := congrArg (fun s => s.toList.length) hempty
  simp [m.authorization_toList] at hlength

theorem length_stem (copies : ℕ) : (stem copies).length = 4 * copies := by
  simp [stem, Nat.mul_comm]

theorem not_mem_stem {c : Char} {copies : ℕ} (h : c ∉ ['Y', 'W', 'F', 'h']) : c ∉ stem copies := by
  intro hmem
  rcases List.mem_flatten.1 hmem with ⟨group, hgroup, hc⟩
  rw [List.eq_of_mem_replicate hgroup] at hc
  exact h hc

theorem not_mem_payloadB64 {m : Member} {c : Char} (hmark : c ≠ m.mark) (hstem : c ∉ ['Y', 'W', 'F', 'h'])
    (hfixed : c ∉ "eyJzdWIiOiJh".toList ++ "Y".toList ++ suffixB64.toList) :
    c ∉ m.issued.payloadB64.toList := by
  have hnot : c ∉ stem m.copies := not_mem_stem hstem
  rw [m.payloadB64_toList]
  simp only [List.mem_append, not_or, List.mem_singleton] at hfixed ⊢
  exact ⟨⟨⟨⟨hfixed.1.1, hnot⟩, hfixed.1.2⟩, hmark⟩, hfixed.2⟩

namespace WellFormed

variable {m : Member}

theorem headerSafe (h : m.WellFormed) : HeaderSafe m.userId := by
  have hnot : ∀ {c : Char}, c ≠ 'a' → m.last ≠ c → c ∉ m.userId.toList := by
    intro c ha hlast hmem
    rw [m.userId_toList] at hmem
    rcases List.mem_append.1 hmem with hmem | hmem
    · exact ha (List.eq_of_mem_replicate hmem)
    · exact hlast (List.mem_singleton.1 hmem).symm
  exact ⟨hnot (by decide) h.last.1, hnot (by decide) h.last.2.1, hnot (by decide) h.last.2.2⟩

theorem authorization_no_nul (h : m.WellFormed) : '\x00' ∉ m.authorization.toList := by
  have hpayload : '\x00' ∉ m.issued.payloadB64.toList :=
    not_mem_payloadB64 h.mark.2.symm (by decide) (by simp [suffixB64])
  rw [m.authorization_toList]
  simp [Auth.sampleHeaderB64, hpayload, h.signature]

theorem authorization_size (h : m.WellFormed) :
    m.authorization.utf8ByteSize ≤ Waf.maxAuthHeaderLen := by
  have hle := utf8ByteSize_le m.authorization
  have hcopies := h.copies
  rw [m.authorization_toList, m.payloadB64_toList] at hle
  simp [Auth.sampleHeaderB64, length_stem, suffixB64, h.length] at hle
  unfold Waf.maxAuthHeaderLen
  omega

end WellFormed

end Member

/-- Two users whose ids differ in the last letter. -/
structure Twins (m n : Member) : Prop where
  copies : m.copies = n.copies
  left : m.WellFormed
  right : n.WellFormed
  last : m.last ≠ n.last
  mark : m.mark ≠ n.mark
  signature : m.signatureB64 ≠ n.signatureB64

namespace Twins

variable {m n : Member} {p : Platform} {ts : List Issued}

theorem symm (h : Twins m n) : Twins n m where
  copies := h.copies.symm
  left := h.right
  right := h.left
  last := h.last.symm
  mark := h.mark.symm
  signature := h.signature.symm

theorem userId_ne (h : Twins m n) : m.userId ≠ n.userId := by
  intro hsame
  have hlist := congrArg String.toList hsame
  rw [m.userId_toList, n.userId_toList, h.copies] at hlist
  exact h.last (List.singleton_inj.1 (List.append_cancel_left hlist))

/-- A platform that knows the two tokens knows each. -/
theorem known (h : Twins m n) (hm : m.issued ∈ ts) (hts : ∀ t ∈ ts, t = m.issued ∨ t = n.issued) :
    Known ts m.issued := by
  have hlength : ∀ k : Member, m.signatureB64.toList.length < k.issued.payloadB64.toList.length := by
    intro k
    rw [h.left.length, k.payloadB64_toList]
    simp [Member.suffixB64]
  refine
    { mem := hm
      oneLine := Member.not_mem_payloadB64 h.left.mark.1.symm (by decide) (by simp [Member.suffixB64])
      header := ⟨?_, h.left.header⟩
      payloadB64 := fun t ht hsame => ?_
      payload := fun t ht hsame => ?_
      signature := fun t ht hsame => ?_
      apart := fun t ht hsame => ?_ }
  · intro hheader
    have hhead := congrArg (fun s => s.toList.take 5) hheader
    simp only [m.payloadB64_toList] at hhead
    simp [Auth.sampleHeaderB64] at hhead
  · rcases hts t ht with rfl | rfl
    · rfl
    · have hlist := congrArg String.toList hsame
      rw [n.payloadB64_toList, m.payloadB64_toList, h.copies] at hlist
      have hmark := List.append_cancel_left (List.append_cancel_right hlist)
      exact absurd (List.singleton_inj.1 hmark).symm h.mark
  · rcases hts t ht with rfl | rfl
    · rfl
    · have hlist := congrArg String.toList hsame
      simp only [Member.issued, String.toList_append] at hlist
      have hids := List.append_cancel_left (List.append_cancel_right hlist)
      exact absurd (String.toList_injective hids).symm h.userId_ne
  · rcases hts t ht with rfl | rfl
    · rfl
    · exact absurd hsame.symm h.signature
  · have hlt : m.signatureB64.toList.length < t.payloadB64.toList.length := by
      rcases hts t ht with rfl | rfl
      · exact hlength m
      · exact hlength n
    rw [hsame] at hlt
    exact lt_irrefl _ hlt

/-- The token of either is a valid one. -/
theorem checked (h : Twins m n) (hknown : Known ts m.issued) :
    Auth.checkToken (cryptoOf ts) Gateway.sampleConfig Revocation.RevocationSnapshot.empty 1700000000
        m.issued.token =
      some { identity := m.identity, exp := 2000000000, tv := none } := by
  have hunlisted : ∀ key, Revocation.RevocationSnapshot.empty.revoked key = none := fun _ => rfl
  refine checkToken_issued hknown rfl rfl ?_ ?_ ?_
  · simp [Auth.claimsAccepted, Revocation.isRevoked_of_unlisted hunlisted, Member.issued, Gateway.sampleConfig]
  · simp [Auth.versionStale, Revocation.tvStatus, Revocation.RevocationSnapshot.empty]
  · have hid := sanitizeHeaderVal_of_safe h.left.headerSafe
    have hregion : Auth.sanitizeHeaderVal "US" = some "US" := by decide
    simp [Auth.buildIdentity, Auth.rawUserId, Member.issued, Member.identity, m.userId_ne_empty,
      hid, hregion]

/-- A fresh worker of the sample node serves either. -/
theorem served (h : Twins m n) (hm : m.issued ∈ ts) (hts : ∀ t ∈ ts, t = m.issued ∨ t = n.issued)
    (hmatchit : p.matchit = Gateway.samplePlatform.matchit)
    (henv : p.env = Gateway.samplePlatform.env) (hcrypto : p.crypto = cryptoOf ts) :
    Served p Gateway.sampleWorld [] (start Gateway.sampleWorld) m.request (fun _ => none)
      m.identity := by
  have hchecked := h.checked (h.known hm hts)
  have hauth : Gateway.strArg (args m.request).authHeader = m.authorization :=
    Gateway.strArg_strBytes h.left.authorization_no_nul
  have hid : requestIdentity p Gateway.sampleWorld (args m.request) = some m.identity := by
    unfold requestIdentity
    rw [hauth, hcrypto, henv]
    exact (AuthSoundness.validateToken_of_miss rfl rfl).trans
      (congrArg (Option.map Auth.Checked.identity) hchecked)
  exact
    { reached := rfl
      admitted := admitted_sample hmatchit henv h.left.authorization_no_nul m.authorization_ne_empty
        h.left.authorization_size hid _
      identity := hid
      validated := ⟨_, _, _, _, _, hcrypto ▸ hchecked, rfl⟩ }

end Twins

/-- The platform that knows two members. -/
def platformOf (m n : Member) : Platform :=
  { Gateway.samplePlatform with
    fxHash := fun s =>
      if s = m.userId then m.hash
      else if s = m.userId ++ ":p2c" then m.p2cHash
      else if s = n.userId then n.hash
      else if s = n.userId ++ ":p2c" then n.p2cHash
      else Gateway.sampleHash s
    crypto := cryptoOf [m.issued, n.issued] }

/-- The `X-User-Id` a fresh worker of the sample node sends on for a member. -/
def userHeader (p : Platform) (m : Member) : Option Bytes :=
  (access p m.request (fun _ => none) (start Gateway.sampleWorld).world
    (start Gateway.sampleWorld).bufs).requestHeaders "X-User-Id"

theorem Twins.both_served {m n : Member} (h : Twins m n) :
    Served (platformOf m n) Gateway.sampleWorld [] (start Gateway.sampleWorld) m.request
        (fun _ => none) m.identity ∧
      Served (platformOf m n) Gateway.sampleWorld [] (start Gateway.sampleWorld) n.request
        (fun _ => none) n.identity := by
  refine ⟨h.served (by simp) ?_ rfl rfl rfl, h.symm.served (by simp) ?_ rfl rfl rfl⟩
  · intro t ht
    simpa using ht
  · intro t ht
    simpa [or_comm] using ht

/-- When the letters `a` fill the buffer, the last letter is lost. -/
theorem Twins.userHeader_eq {m n : Member} (h : Twins m n) (hfull : 3 * m.copies + 1 = userIdLen - 1) :
    userHeader (platformOf m n) m = userHeader (platformOf m n) n := by
  rcases h.both_served with ⟨hm, hn⟩
  have hcut : (strBytes m.userId).take (userIdLen - 1) = (strBytes n.userId).take (userIdLen - 1) := by
    have hfull' := hfull
    rw [h.copies] at hfull'
    have hm := m.take_userId
    have hn := n.take_userId
    rw [hfull] at hm
    rw [hfull'] at hn
    exact hm.trans hn.symm
  exact (hm.userId_header m.userId_ne_empty).trans
    ((congrArg some hcut).trans (hn.userId_header n.userId_ne_empty).symm)

/-- Ids of two letters. -/
def shortB : Member where
  copies := 0
  last := 'b'
  mark := 'i'
  signatureB64 := "ifVx-6pHWGvj1fexSxofkpvTnW0RmTL8KdwGrMkX95M"
  mac := [137, 245, 113, 251, 170, 71, 88, 107, 227, 213, 247, 177, 75, 26, 31, 146, 155, 211, 157, 109,
    17, 153, 50, 252, 41, 220, 6, 172, 201, 23, 247, 147]
  digest := [46, 65, 70, 43, 227, 48, 205, 28, 29, 9, 160, 236, 210, 40, 196, 57, 99, 223, 237, 202, 96,
    0, 118, 195, 62, 1, 141, 121, 83, 216, 10, 179]
  hash := 3685887537073405863
  p2cHash := 8619353450638111044

def shortC : Member where
  copies := 0
  last := 'c'
  mark := 'y'
  signatureB64 := "hrcmmOAhdPfO1NpZ9gtzd5K_FYZKy0-BOMUOb9vdsXY"
  mac := [134, 183, 38, 152, 224, 33, 116, 247, 206, 212, 218, 89, 246, 11, 115, 119, 146, 191, 21, 134,
    74, 203, 79, 129, 56, 197, 14, 111, 219, 221, 177, 118]
  digest := [78, 121, 40, 122, 206, 251, 122, 18, 37, 71, 8, 69, 130, 149, 140, 46, 126, 30, 5, 84, 34,
    3, 142, 67, 29, 106, 241, 35, 237, 255, 96, 5]
  hash := 164534329276797836
  p2cHash := 15289566666854335495

theorem short_twins : Twins shortB shortC where
  copies := rfl
  left :=
    { copies := by decide
      last := by decide
      mark := by decide
      signature := by simp [shortB]
      length := by simp [shortB]
      header := by simp [shortB, Auth.sampleHeaderB64] }
  right :=
    { copies := by decide
      last := by decide
      mark := by decide
      signature := by simp [shortC]
      length := by simp [shortC]
      header := by simp [shortC, Auth.sampleHeaderB64] }
  last := by decide
  mark := by decide
  signature := by simp [shortB, shortC]

/-- Two users with short ids are told apart. -/
theorem short_ids_told_apart :
    ToldApart (userHeader (platformOf shortB shortC) shortB) (userHeader (platformOf shortB shortC) shortC)
      shortB.userId shortC.userId := by
  have htold : ∀ m n, Twins m n → Fits userIdLen m.userId ∧ Fits userIdLen n.userId →
      ToldApart (userHeader (platformOf m n) m) (userHeader (platformOf m n) n) m.userId n.userId := by
    intro m n htwins hfits
    rcases htwins.both_served with ⟨hm, hn⟩
    refine ((told_apart_iff_fit hm hn m.userId_ne_empty n.userId_ne_empty).2 ⟨fun _ => hfits, ?_⟩).1
      htwins.userId_ne
    intro home₁ home₂ hhome₁ hhome₂ _ _ hne
    exact absurd ((Option.some.inj hhome₁).symm.trans (Option.some.inj hhome₂)) hne
  have hfits : Fits userIdLen shortB.userId ∧ Fits userIdLen shortC.userId := by
    unfold Fits
    decide
  exact htold shortB shortC short_twins hfits

/-- Ids of 128 letters, the last of which does not fit. -/
def longB : Member where
  copies := 42
  last := 'b'
  mark := 'i'
  signatureB64 := "w05EqxkEYSEeVStNQsBAOtjyqRseofV0Nx596CiNsdI"
  mac := [195, 78, 68, 171, 25, 4, 97, 33, 30, 85, 43, 77, 66, 192, 64, 58, 216, 242, 169, 27, 30, 161,
    245, 116, 55, 30, 125, 232, 40, 141, 177, 210]
  digest := [236, 100, 158, 63, 214, 56, 214, 112, 52, 151, 219, 4, 166, 164, 164, 217, 52, 185, 218,
    184, 193, 126, 14, 184, 138, 180, 137, 19, 178, 140, 255, 120]
  hash := 17307887349466811157
  p2cHash := 9206361029886603549

def longC : Member where
  copies := 42
  last := 'c'
  mark := 'y'
  signatureB64 := "KVgvvXFxM2_GgGwpqJKAER8CxKaaoY-EwjMA0aBKZFc"
  mac := [41, 88, 47, 189, 113, 113, 51, 111, 198, 128, 108, 41, 168, 146, 128, 17, 31, 2, 196, 166, 154,
    161, 143, 132, 194, 51, 0, 209, 160, 74, 100, 87]
  digest := [230, 235, 140, 67, 24, 131, 161, 29, 56, 5, 107, 39, 255, 197, 73, 39, 228, 17, 241, 144,
    130, 213, 33, 106, 184, 33, 169, 23, 209, 71, 116, 42]
  hash := 15885419022711854116
  p2cHash := 1892183830374559208

theorem long_twins : Twins longB longC where
  copies := rfl
  left :=
    { copies := by decide
      last := by decide
      mark := by decide
      signature := by simp [longB]
      length := by simp [longB]
      header := by simp [longB, Auth.sampleHeaderB64] }
  right :=
    { copies := by decide
      last := by decide
      mark := by decide
      signature := by simp [longC]
      length := by simp [longC]
      header := by simp [longC, Auth.sampleHeaderB64] }
  last := by decide
  mark := by decide
  signature := by simp [longB, longC]

/-- Two different users with ids of 128 letters are one user upstream. -/
theorem long_ids_confused :
    Served (platformOf longB longC) Gateway.sampleWorld [] (start Gateway.sampleWorld) longB.request
        (fun _ => none) longB.identity ∧
      Served (platformOf longB longC) Gateway.sampleWorld [] (start Gateway.sampleWorld) longC.request
        (fun _ => none) longC.identity ∧
      longB.userId ≠ longC.userId ∧
      userHeader (platformOf longB longC) longB = userHeader (platformOf longB longC) longC :=
  ⟨long_twins.both_served.1, long_twins.both_served.2, long_twins.userId_ne,
    long_twins.userHeader_eq (by decide)⟩

end UpstreamHeaders
end Lua
end GatewayEdge
