import GatewayEdge.Foundation.Octets
import GatewayEdge.Lua.Identity

/-!
# UpstreamUrl — the address of an upstream as the prober and as NGINX read it

The active health check turns an address into a URL with `normalize_url`, NGINX with the map
`$gateway_upstream_base`.  NGINX is handed the address in a buffer of 256 bytes, so it reads the first 255 of
them.  The two agree on a bare `host:port` only, if it fits the buffer, and not on port 443, where the map
switches to TLS and the prober does not.

Both readers go byte by byte, as the end of the buffer may fall into a character.
-/

namespace GatewayEdge
namespace UpstreamUrl

open Foundation
open Url
open Lua (upstreamLen)
open Lua.Identity (carried)

/-! ## Addresses -/

/-- What a config or an `UPSTREAM_<SERVICE>` override may hold. -/
inductive Address
  | bare (host : Host) (port : PortText)
  | url (scheme : Scheme) (host : Host) (port : Option PortText)

def Address.chars : Address → List Char
  | .bare host port => host.text ++ portSuffix (some port)
  | .url scheme host port => scheme.text ++ (host.text ++ portSuffix port)

def Address.text (a : Address) : String := String.ofList a.chars

/-! ## The two readings -/

/-- `normalize_url`. -/
def normalizeUrl (address path : String) : String :=
  let path := if startsWith path "/" then path else "/" ++ path
  if startsWith address "http://" || startsWith address "https://" then address ++ path
  else "http://" ++ address ++ path

/-- The capture of `^(.+):443$`: the dot stands for no line feed, and the end may be in front of one. -/
def tlsHost (target : List Char) : Option (List Char) :=
  let line := if target.getLast? = some '\n' then target.dropLast else target
  let stem := line.take (line.length - 4)
  if [':', '4', '4', '3'] <:+ line ∧ stem ≠ [] ∧ '\n' ∉ stem then some stem else none

/-- The map `$gateway_upstream_base`. -/
def gatewayUpstreamBase (target : List Char) : List Char :=
  match tlsHost target with
  | some host => "https://".toList ++ host
  | none => "http://".toList ++ target

/-- The server the active health check asks. -/
def probed (address path : String) : Option Server :=
  parseServer (latin (strBytes (normalizeUrl address path)))

/-- The server a request for `/rest` is sent to, by what the buffer carries of the address. -/
def proxied (address rest : String) : Option Server :=
  parseServer (gatewayUpstreamBase (latin (carried upstreamLen (some address))) ++
    '/' :: latin (strBytes rest))

/-- Both ask one server. -/
def SameServer (address path rest : String) : Prop :=
  probed address path ≠ none ∧ probed address path = proxied address rest

/-- The address is a bare `host:port` that fits the buffer and whose port is not written `443`, or one whose
host alone fills the buffer, so that the port is cut off, and whose port is the default one. -/
def Address.Plain (a : Address) : Prop :=
  ∃ host port, a = .bare host port ∧
    (((strBytes a.text).length < upstreamLen ∧ port.digits ≠ ['4', '4', '3']) ∨
      ((octets host.text).length + 1 = upstreamLen ∧ port.number = 80))

/-! ## Byte by byte -/

/-- The address as its bytes are read. -/
def Address.octets : Address → Address
  | .bare host port => .bare host.octets port
  | .url scheme host port => .url scheme host.octets port

theorem Address.chars_octets (a : Address) : a.octets.chars = Foundation.octets a.chars := by
  cases a with
  | bare host port =>
      unfold Address.octets Address.chars
      rw [octets_append, octets_portSuffix]
      rfl
  | url scheme host port =>
      unfold Address.octets Address.chars
      rw [octets_append, octets_append, octets_portSuffix, Scheme.octets_text]
      rfl

theorem Address.toList_text (a : Address) : a.text.toList = a.chars := String.toList_ofList

/-- The bytes of an address are those of its characters. -/
theorem Address.latin_text (a : Address) : latin (strBytes a.text) = a.octets.chars := by
  rw [latin_strBytes, Address.toList_text, Address.chars_octets]

theorem Address.length_text (a : Address) : (strBytes a.text).length = a.octets.chars.length := by
  rw [← Address.latin_text]
  exact (List.length_map _).symm

/-- Everything in an address is visible. -/
theorem Address.visible (a : Address) : ∀ c ∈ a.chars, 0x20 < c.toNat := by
  have hport : ∀ port : Option PortText, ∀ c ∈ portSuffix port, 0x20 < c.toNat := fun port c hc =>
    (range_portSuffix port c hc).1
  cases a with
  | bare host port =>
      intro c hc
      exact (List.mem_append.1 hc).elim (host.visible c) (hport (some port) c)
  | url scheme host port =>
      intro c hc
      rcases List.mem_append.1 hc with hc | hc
      · exact (scheme.range_text c hc).1
      · exact (List.mem_append.1 hc).elim (host.visible c) (hport port c)

theorem Address.lineFeed_notMem (a : Address) : '\n' ∉ a.chars := fun hmem =>
  absurd (a.visible _ hmem) (by decide)

/-- The buffer carries the first bytes of an address. -/
theorem latin_carried (a : Address) :
    latin (carried upstreamLen (some a.text)) = a.octets.chars.take (upstreamLen - 1) := by
  have hzero : (0 : UInt8) ∉ strBytes a.text := by
    apply zero_notMem_strBytes
    rw [Address.toList_text]
    exact fun hmem => absurd (a.visible _ hmem) (by decide)
  have hread : carried upstreamLen (some a.text) = (strBytes a.text).take (upstreamLen - 1) := by
    unfold carried Gateway.cStr
    rw [Option.getD_some, List.takeWhile_eq_self_iff]
    intro b hb
    exact decide_eq_true fun hb0 => hzero (hb0 ▸ List.mem_of_mem_take hb)
  rw [hread, ← Address.latin_text]
  exact List.map_take

/-! ## What the prober reads -/

theorem startsWith_iff {s start : String} : startsWith s start = true ↔ start.toList <+: s.toList := by
  unfold startsWith
  exact List.isPrefixOf_iff_prefix

/-- Every probe path begins with a slash. -/
theorem probePath (path : String) :
    ∃ rest, (if startsWith path "/" then path else "/" ++ path).toList = '/' :: rest := by
  by_cases h : startsWith path "/" = true
  · rw [if_pos h]
    rcases startsWith_iff.1 h with ⟨rest, hrest⟩
    exact ⟨rest, hrest.symm⟩
  · rw [if_neg h]
    exact ⟨path.toList, by simp⟩

theorem slash_notMem_bare (host : Host) (port : PortText) : '/' ∉ (Address.bare host port).chars := by
  intro hmem
  rcases List.mem_append.1 hmem with hhost | hport
  · have := host.in_authority '/' hhost
    cases this
  · rcases List.mem_cons.1 hport with hcolon | hdigit
    · cases hcolon
    · have := port.in_authority '/' hdigit
      cases this

/-- The server an address stands for, a bare one over plain HTTP. -/
def Address.server : Address → Server
  | .bare host port => { scheme := .http, host := host.text, port := port.number }
  | .url scheme host port => { scheme := scheme, host := host.text, port := portOf scheme port }

/-- A URL is read byte by byte as it is put together. -/
theorem parseServer_octets (scheme : Scheme) (host : Host) (port : Option PortText) (rest : List Char) :
    parseServer (octets (scheme.text ++ (host.text ++ portSuffix port ++ '/' :: rest))) =
      some { scheme := scheme, host := host.octets.text, port := portOf scheme port } := by
  have hslash : octets ('/' :: rest) = '/' :: octets rest := by
    rw [octets_cons]
    rfl
  rw [octets_append, octets_append, octets_append, Scheme.octets_text, octets_portSuffix, hslash]
  exact parseServer_text scheme host.octets port _

theorem probed_eq (a : Address) (path : String) : probed a.text path = some a.octets.server := by
  rcases probePath path with ⟨rest, hrest⟩
  unfold probed normalizeUrl
  rw [latin_strBytes]
  dsimp only
  cases a with
  | bare host port =>
      have hno : ∀ start : String, '/' ∈ start.toList →
          startsWith (Address.bare host port).text start = false := by
        intro start hslash
        rw [Bool.eq_false_iff]
        intro h
        have hstem := startsWith_iff.1 h
        rw [Address.toList_text] at hstem
        exact slash_notMem_bare host port (hstem.subset hslash)
      rw [hno "http://" (by decide), hno "https://" (by decide)]
      have hchars : ("http://" ++ (Address.bare host port).text ++
          if startsWith path "/" then path else "/" ++ path).toList =
            Scheme.http.text ++ (host.text ++ portSuffix (some port) ++ '/' :: rest) := by
        rw [String.toList_append, String.toList_append, hrest, Address.toList_text]
        simp [Address.chars, Scheme.text]
      rw [Bool.or_false, if_neg Bool.false_ne_true, hchars]
      exact parseServer_octets .http host (some port) rest
  | url scheme host port =>
      have hstarts : (startsWith (Address.url scheme host port).text "http://" ||
          startsWith (Address.url scheme host port).text "https://") = true := by
        rw [Bool.or_eq_true, startsWith_iff, startsWith_iff, Address.toList_text]
        cases scheme with
        | http => exact Or.inl (List.prefix_append _ _)
        | https => exact Or.inr (List.prefix_append _ _)
      rw [if_pos hstarts, String.toList_append, hrest, Address.toList_text]
      have hchars : (Address.url scheme host port).chars ++ '/' :: rest =
          scheme.text ++ (host.text ++ portSuffix port ++ '/' :: rest) := by
        simp [Address.chars]
      rw [hchars]
      exact parseServer_octets scheme host port rest

/-! ## What NGINX reads -/

/-- The map switches to TLS exactly on a text that ends in `:443`, and takes the rest. -/
theorem tlsHost_eq_some_iff {text stem : List Char} (hline : '\n' ∉ text) :
    tlsHost text = some stem ↔ stem ≠ [] ∧ text = stem ++ [':', '4', '4', '3'] := by
  have hwhole : (if text.getLast? = some '\n' then text.dropLast else text) = text :=
    if_neg fun hlast => hline (List.mem_of_getLast? hlast)
  unfold tlsHost
  rw [hwhole]
  dsimp only
  constructor
  · intro h
    split at h
    · rename_i hcond
      rcases hcond with ⟨⟨front, hfront⟩, hne, -⟩
      have hstem : text.take (text.length - 4) = front := by
        rw [← hfront]
        simp
      cases h
      rw [hstem] at hne ⊢
      exact ⟨hne, hfront.symm⟩
    · cases h
  · rintro ⟨hne, htext⟩
    have hstem : text.take (text.length - 4) = stem := by
      rw [htext]
      simp
    have hclean : '\n' ∉ stem := fun hmem => hline (htext ▸ List.mem_append_left _ hmem)
    rw [hstem, if_pos ⟨⟨stem, htext.symm⟩, hne, hclean⟩]

/-- What the buffer carries of an address. -/
def cut (a : Address) : List Char := a.octets.chars.take (upstreamLen - 1)

theorem lineFeed_notMem_cut (a : Address) : '\n' ∉ cut a := fun hmem =>
  a.octets.lineFeed_notMem (List.mem_of_mem_take hmem)

theorem proxied_of_tls {a : Address} {stem : List Char} (h : tlsHost (cut a) = some stem) (rest : String) :
    proxied a.text rest = parseServer (Scheme.https.text ++ (stem ++ '/' :: latin (strBytes rest))) := by
  have hcut : latin (carried upstreamLen (some a.text)) = cut a := latin_carried a
  unfold proxied gatewayUpstreamBase
  rw [hcut, h]
  simp [Scheme.text]

theorem proxied_of_plain {a : Address} (h : tlsHost (cut a) = none) (rest : String) :
    proxied a.text rest = parseServer (Scheme.http.text ++ (cut a ++ '/' :: latin (strBytes rest))) := by
  have hcut : latin (carried upstreamLen (some a.text)) = cut a := latin_carried a
  unfold proxied gatewayUpstreamBase
  rw [hcut, h]
  simp [Scheme.text]

/-- What NGINX proxies to has a host that stands in what it was handed. -/
theorem host_of_proxied {a : Address} {rest : String} {server : Server}
    (h : proxied a.text rest = some server) : server.host <+: cut a := by
  cases htls : tlsHost (cut a) with
  | none =>
      rw [proxied_of_plain htls] at h
      exact (parseServer_sound h).2
  | some stem =>
      rw [proxied_of_tls htls] at h
      have hcut := ((tlsHost_eq_some_iff (lineFeed_notMem_cut a)).1 htls).2
      exact (parseServer_sound h).2.trans ⟨_, hcut.symm⟩

/-- The part of a URL in front of `:443` still begins with the scheme. -/
theorem scheme_front {scheme : Scheme} {authority stem : List Char}
    (h : scheme.text ++ authority = stem ++ [':', '4', '4', '3']) : ∃ front, stem = scheme.text ++ front := by
  rcases List.append_eq_append_iff.1 h with ⟨front, hstem, -⟩ | ⟨back, hscheme, hport⟩
  · exact ⟨front, hstem⟩
  · -- What would be left of the scheme ends in a slash, of which the port has none.
    cases hback : back with
    | nil => exact ⟨[], by rw [hscheme, hback, List.append_nil, List.append_nil]⟩
    | cons c cs =>
        have hlast : back.getLast? = some '/' := by
          have hscheme' : scheme.text.getLast? = some '/' := by cases scheme <;> rfl
          rw [hscheme, List.getLast?_append, hback] at hscheme'
          rw [hback]
          simpa using hscheme'
        have hmem : '/' ∈ [':', '4', '4', '3'] := by
          rw [hport]
          exact List.mem_append_left _ (List.mem_of_getLast? hlast)
        exact absurd hmem (by decide)

/-- NGINX finds no server in an address that brings a scheme of its own. -/
theorem proxied_url (scheme : Scheme) (host : Host) (port : Option PortText) (rest : String) :
    proxied (Address.url scheme host port).text rest = none := by
  -- The scheme fits the buffer, whatever of the rest does.
  have hcut : ∃ authority, cut (Address.url scheme host port) = scheme.text ++ authority := by
    have hfits : scheme.text.length ≤ upstreamLen - 1 := by cases scheme <;> decide
    have hchars : (Address.url scheme host port).octets.chars =
        scheme.text ++ (host.octets.text ++ portSuffix port) := rfl
    exact ⟨_, by rw [cut, hchars, List.take_append, List.take_of_length_le hfits]⟩
  rcases hcut with ⟨authority, hcut⟩
  cases htls : tlsHost (cut (Address.url scheme host port)) with
  | none =>
      rw [proxied_of_plain htls, hcut, List.append_assoc]
      exact parseServer_scheme_twice .http scheme _
  | some stem =>
      have hstem := ((tlsHost_eq_some_iff (lineFeed_notMem_cut _)).1 htls).2
      rw [hcut] at hstem
      rcases scheme_front hstem with ⟨front, rfl⟩
      rw [proxied_of_tls htls, List.append_assoc]
      exact parseServer_scheme_twice .https scheme _

/-! ## Where the two meet -/

/-- A host with its port ends in `:443` exactly if the port is written so. -/
theorem tlsHost_port_eq_none_iff (host : Host) (port : PortText) :
    tlsHost (Address.bare host port).chars = none ↔ port.digits ≠ ['4', '4', '3'] := by
  rw [Option.eq_none_iff_forall_ne_some]
  constructor
  · intro hnone hport
    refine hnone host.text ((tlsHost_eq_some_iff (Address.lineFeed_notMem _)).2 ⟨?_, ?_⟩)
    · exact (splitHost_text host (Or.inl rfl)).1
    · rw [← hport]
      rfl
  · intro hport stem htls
    have hends : [':', '4', '4', '3'] <:+ (Address.bare host port).chars :=
      ⟨stem, ((tlsHost_eq_some_iff (Address.lineFeed_notMem _)).1 htls).2.symm⟩
    have hown : ':' :: port.digits <:+ (Address.bare host port).chars := ⟨host.text, rfl⟩
    have hdigits : ':' ∉ port.digits := fun hmem => absurd (port.isDigit _ hmem) (by decide)
    -- Of the two endings one ends the other, and neither has a second colon.
    rcases List.suffix_or_suffix_of_suffix hends hown with hless | hmore
    · rcases List.suffix_cons_iff.1 hless with hsame | hinner
      · exact hport (List.cons.inj hsame).2.symm
      · exact hdigits (hinner.subset List.mem_cons_self)
    · rcases List.suffix_cons_iff.1 hmore with hsame | hinner
      · exact hport (List.cons.inj hsame).2
      · exact absurd (hinner.subset List.mem_cons_self) (by decide)

/-- A host alone does not end in a port. -/
theorem tlsHost_host (host : Host) : tlsHost host.text = none := by
  rw [Option.eq_none_iff_forall_ne_some]
  intro stem htls
  have hline : '\n' ∉ host.text := fun hmem => absurd (host.visible _ hmem) (by decide)
  have htext := ((tlsHost_eq_some_iff hline).1 htls).2
  rcases host.wellFormed with ⟨-, hchars⟩ | ⟨inner, hbracket, -⟩
  · exact absurd (hchars ':' (by simp [htext])) (by decide)
  · have hlast : ('[' :: (inner ++ [']'])).getLast? = some '3' := by
      rw [← hbracket, htext, List.getLast?_append]
      rfl
    have hbrackets : '[' :: (inner ++ [']']) = ('[' :: inner) ++ [']'] := rfl
    rw [hbrackets, List.getLast?_concat] at hlast
    cases hlast

section Bare

variable (host : Host) (port : PortText) (path rest : String)

/-- An address that fits the buffer is read whole. -/
theorem same_iff_of_fits (hfits : (Address.bare host port).octets.chars.length < upstreamLen) :
    SameServer (Address.bare host port).text path rest ↔ port.digits ≠ ['4', '4', '3'] := by
  have hcut : cut (Address.bare host port) = (Address.bare host.octets port).chars :=
    List.take_of_length_le (Nat.le_sub_one_of_lt hfits)
  have hplain := tlsHost_port_eq_none_iff host.octets port
  rw [← hcut] at hplain
  unfold SameServer
  rw [probed_eq, ← hplain]
  constructor
  · rintro ⟨-, hsame⟩
    cases htls : tlsHost (cut (Address.bare host port)) with
    | none => rfl
    | some stem =>
        rw [proxied_of_tls htls] at hsame
        cases (parseServer_sound hsame.symm).1
  · intro htls
    refine ⟨Option.some_ne_none _, ?_⟩
    rw [proxied_of_plain htls, hcut]
    exact (parseServer_text .http host.octets (some port) _).symm

/-- Of an address whose host fills the buffer the host is read. -/
theorem same_iff_of_host_fills (hfills : host.octets.text.length + 1 = upstreamLen) :
    SameServer (Address.bare host port).text path rest ↔ port.number = 80 := by
  have hcut : cut (Address.bare host port) = host.octets.text :=
    List.take_left' (by omega)
  have htls : tlsHost (cut (Address.bare host port)) = none := by
    rw [hcut]
    exact tlsHost_host host.octets
  have hread := parseServer_text .http host.octets none (latin (strBytes rest))
  rw [portSuffix, List.append_nil] at hread
  unfold SameServer
  rw [probed_eq, proxied_of_plain htls, hcut, hread]
  constructor
  · rintro ⟨-, hsame⟩
    exact congrArg Server.port (Option.some.inj hsame)
  · intro hport
    refine ⟨Option.some_ne_none _, ?_⟩
    have hserver : (Address.bare host port).octets.server =
        { scheme := .http, host := host.octets.text, port := port.number } := rfl
    rw [hserver, hport]
    rfl

/-- Of a host that is longer than the buffer only a part is read. -/
theorem not_same_of_host_cut (hlong : upstreamLen ≤ host.octets.text.length) :
    ¬ SameServer (Address.bare host port).text path rest := by
  unfold SameServer
  rw [probed_eq]
  rintro ⟨-, hsame⟩
  have hlength := (host_of_proxied hsame.symm).length_le
  have hcut : (cut (Address.bare host port)).length ≤ upstreamLen - 1 := List.length_take_le _ _
  have hpos : 0 < upstreamLen := by decide
  exact absurd (hlength.trans hcut) (Nat.not_le.2 (Nat.lt_of_lt_of_le (Nat.sub_one_lt hpos.ne') hlong))

/-- A port of which some digits are cut off is another port, or none. -/
theorem not_same_of_port_cut (hhost : host.octets.text.length + 1 < upstreamLen)
    (hlong : upstreamLen ≤ (Address.bare host port).octets.chars.length) :
    ¬ SameServer (Address.bare host port).text path rest := by
  have hchars : (Address.bare host port).octets.chars = host.octets.text ++ ':' :: port.digits := rfl
  rcases hsplit : port.digits.splitAt (upstreamLen - 1 - host.octets.text.length - 1) with ⟨front, back⟩
  rw [List.splitAt_eq] at hsplit
  rcases Prod.mk.inj hsplit with ⟨hfront, hback⟩
  have hdigits : port.digits = front ++ back := by
    rw [← hfront, ← hback, List.take_append_drop]
  have hcut : cut (Address.bare host port) = host.octets.text ++ ':' :: front := by
    have hleft : upstreamLen - 1 - host.octets.text.length =
        (upstreamLen - 1 - host.octets.text.length - 1) + 1 := by omega
    rw [cut, hchars, List.take_append, List.take_of_length_le (by omega), hleft, List.take_succ_cons, hfront]
  have hne : back ≠ [] := by
    rintro rfl
    have hshort := List.drop_eq_nil_iff.1 hback
    rw [hchars, List.length_append, List.length_cons] at hlong
    omega
  have hnumber := number_of_parsePort port.parses
  unfold SameServer
  rw [probed_eq]
  rintro ⟨-, hsame⟩
  cases htls : tlsHost (cut (Address.bare host port)) with
  | some stem =>
      -- What is left ends in `:443`: the schemes differ.
      rw [proxied_of_tls htls] at hsame
      cases (parseServer_sound hsame.symm).1
  | none =>
      -- The number of the digits that are left is smaller.
      have hfrontDigits : ∀ c ∈ front, c.isDigit = true := fun c hc =>
        port.isDigit c (hdigits ▸ List.mem_append_left _ hc)
      rw [proxied_of_plain htls, hcut, parseServer_digits .http host.octets hfrontDigits] at hsame
      rcases Option.map_eq_some_iff.1 hsame.symm with ⟨number, hparsed, hserver⟩
      have hport : number = port.number := congrArg Server.port hserver
      rw [hdigits] at hnumber
      apply decimal_ne_of_cut hne (hnumber.1 ▸ hnumber.2)
      rw [← (number_of_parsePort hparsed).1, hport, hnumber.1]

end Bare

/-- Prober and proxy ask one server exactly when the address is a bare `host:port` that fits the buffer and is
not written with port `443`, or one of which the buffer cuts off just the default port. -/
theorem same_server_iff_plain (a : Address) (path rest : String) :
    SameServer a.text path rest ↔ a.Plain := by
  cases a with
  | url scheme host port =>
      -- The proxy finds no server behind a second scheme.
      unfold SameServer
      rw [probed_eq, proxied_url]
      constructor
      · rintro ⟨-, hsame⟩
        cases hsame
      · rintro ⟨host', port', hbare, -⟩
        cases hbare
  | bare host port =>
      have hplain : (Address.bare host port).Plain ↔
          ((Address.bare host port).octets.chars.length < upstreamLen ∧ port.digits ≠ ['4', '4', '3']) ∨
            (host.octets.text.length + 1 = upstreamLen ∧ port.number = 80) := by
        rw [← Address.length_text]
        constructor
        · rintro ⟨host', port', hbare, h⟩
          cases hbare
          exact h
        · exact fun h => ⟨host, port, rfl, h⟩
      have hlength : (Address.bare host port).octets.chars.length =
          host.octets.text.length + (port.digits.length + 1) := List.length_append
      rw [hplain]
      by_cases hfits : (Address.bare host port).octets.chars.length < upstreamLen
      · rw [same_iff_of_fits host port path rest hfits]
        constructor
        · exact fun h => Or.inl ⟨hfits, h⟩
        · rintro (⟨-, h⟩ | ⟨hfills, -⟩)
          · exact h
          · omega
      · -- Cut: within the port, right after the host, or within the host.
        rcases Nat.lt_trichotomy (host.octets.text.length + 1) upstreamLen with hshort | hfills | hlong
        · refine iff_of_false (not_same_of_port_cut host port path rest hshort (Nat.le_of_not_lt hfits)) ?_
          rintro (⟨h, -⟩ | ⟨hfills, -⟩)
          · exact hfits h
          · exact absurd hfills hshort.ne
        · rw [same_iff_of_host_fills host port path rest hfills]
          constructor
          · exact fun h => Or.inr ⟨hfills, h⟩
          · rintro (⟨h, -⟩ | ⟨-, h⟩)
            · exact absurd h hfits
            · exact h
        · refine iff_of_false (not_same_of_host_cut host port path rest (Nat.le_of_lt_succ hlong)) ?_
          rintro (⟨h, -⟩ | ⟨hfills, -⟩)
          · exact hfits h
          · exact absurd hfills hlong.ne'

/-- The address the configuration names as its example. -/
def exampleHost : Host where
  text := "uam-backend.onrender.com".toList
  wellFormed := Or.inl ⟨by decide, List.all_eq_true.1 (by decide)⟩

def port443 : PortText where
  digits := "443".toList
  number := 443
  parses := by decide

/-- `https://uam-backend.onrender.com:443` is probed and cannot be proxied to, and the bare form is probed
without TLS. -/
theorem example_override_not_proxied :
    ¬ SameServer (Address.url .https exampleHost (some port443)).text "/health" "" ∧
      ¬ SameServer (Address.bare exampleHost port443).text "/health" "" := by
  unfold SameServer
  decide +kernel

end UpstreamUrl
end GatewayEdge
