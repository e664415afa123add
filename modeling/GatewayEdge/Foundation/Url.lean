import GatewayEdge.Foundation.Text
import Mathlib.Data.List.TakeWhile

/-!
# Url — the server a URL addresses

Scheme, host and port are read from a URL as an HTTP client or proxy reads them: the authority ends at the
first `/`, `?` or `#`, the port is what follows the host's colon, and a colon without a port in range is an
error.  Hosts and ports are types of their own, so that a text that is built from them is read back.
-/

namespace GatewayEdge
namespace Foundation
namespace Url

inductive Scheme
  | http
  | https
  deriving DecidableEq, Repr

def Scheme.text : Scheme → List Char
  | .http => ['h', 't', 't', 'p', ':', '/', '/']
  | .https => ['h', 't', 't', 'p', 's', ':', '/', '/']

def Scheme.defaultPort : Scheme → Nat
  | .http => 80
  | .https => 443

structure Server where
  scheme : Scheme
  host : List Char
  port : Nat
  deriving DecidableEq, Repr

/-! ## Hosts and ports -/

def delimiters : List Char := [':', '/', '?', '#', '@', '[', ']', '\\', '%']

/-- A character of a registered name or an IPv4 address: no delimiter, no space, no control character. -/
def hostChar (c : Char) : Bool := decide (c ∉ delimiters) && 0x20 < c.toNat && c.toNat != 0x7F

/-- A character of an IPv6 address. -/
def literalChar (c : Char) : Bool := c == ':' || c == '.' || (hexValue c).isSome

/-- A name, or an IPv6 address in brackets. -/
structure Host where
  text : List Char
  wellFormed : (text ≠ [] ∧ ∀ c ∈ text, hostChar c = true) ∨
    ∃ inner, text = '[' :: (inner ++ [']']) ∧ ∀ c ∈ inner, literalChar c = true

/-- The number a run of decimal digits stands for. -/
def decimal (digits : List Char) : Nat := digits.foldl (fun n c => n * 10 + (c.toNat - 48)) 0

def parsePort (digits : List Char) : Option Nat :=
  if digits ≠ [] ∧ digits.all Char.isDigit = true ∧ 1 ≤ decimal digits ∧ decimal digits ≤ 65535 then
    some (decimal digits)
  else none

/-- A port as it is written. -/
structure PortText where
  digits : List Char
  number : Nat
  parses : parsePort digits = some number

/-! ## Reading -/

def stripScheme (url : List Char) : Option (Scheme × List Char) :=
  if Scheme.http.text <+: url then some (.http, url.drop Scheme.http.text.length)
  else if Scheme.https.text <+: url then some (.https, url.drop Scheme.https.text.length)
  else none

/-- The host of an authority and what follows it, brackets being closed. -/
def splitHost : List Char → Option (List Char × List Char)
  | '[' :: cs =>
    match splitFirst ']' cs with
    | (inner, some rest) => some ('[' :: (inner ++ [']']), rest)
    | (_, none) => none
  | cs => some (cs.takeWhile (· ≠ ':'), cs.dropWhile (· ≠ ':'))

def readAuthority (scheme : Scheme) (authority : List Char) : Option Server :=
  match splitHost authority with
  | none => none
  | some (host, rest) =>
    if host = [] then none
    else
      match rest with
      | [] => some { scheme := scheme, host := host, port := scheme.defaultPort }
      | ':' :: digits => (parsePort digits).map fun port => { scheme := scheme, host := host, port := port }
      | _ => none

def authorityEnd (c : Char) : Bool := c == '/' || c == '?' || c == '#'

/-- The server of a URL, none when the URL is malformed up to its path. -/
def parseServer (url : List Char) : Option Server :=
  match stripScheme url with
  | none => none
  | some (scheme, rest) => readAuthority scheme (rest.takeWhile fun c => !authorityEnd c)

/-! ## Texts read back -/

theorem takeWhile_append_of_stop {α : Type*} {q : α → Bool} {xs ys : List α} {y : α}
    (hxs : ∀ x ∈ xs, q x = true) (hy : q y = false) : (xs ++ y :: ys).takeWhile q = xs := by
  rw [List.takeWhile_append_of_pos hxs, List.takeWhile_cons_of_neg (by simp [hy]), List.append_nil]

theorem takeWhile_prefix_of_stop {α : Type*} {q : α → Bool} {xs ys : List α} {y : α} (hy : q y = false) :
    (xs ++ y :: ys).takeWhile q <+: xs := by
  induction xs with
  | nil => simp [hy]
  | cons x xs ih =>
      by_cases hx : q x = true
      · simpa [hx, List.cons_prefix_cons] using ih
      · simp [hx]

theorem stripScheme_text (scheme : Scheme) (rest : List Char) :
    stripScheme (scheme.text ++ rest) = some (scheme, rest) := by
  cases scheme with
  | http => simp [stripScheme, Scheme.text]
  | https => simp [stripScheme, Scheme.text]

theorem ne_of_hostChar {c d : Char} (h : hostChar c = true) (hd : d ∈ delimiters) : c ≠ d := by
  rintro rfl
  simp [hostChar, hd] at h

/-- A host is not empty and stands in front of what follows it, be it nothing or a port. -/
theorem splitHost_text (h : Host) {rest : List Char} (hrest : rest = [] ∨ ∃ digits, rest = ':' :: digits) :
    h.text ≠ [] ∧ splitHost (h.text ++ rest) = some (h.text, rest) := by
  rcases h.wellFormed with ⟨hne, hchars⟩ | ⟨inner, htext, hchars⟩
  · refine ⟨hne, ?_⟩
    have hcolon : ∀ c ∈ h.text, decide (c ≠ ':') = true := fun c hc =>
      decide_eq_true (ne_of_hostChar (hchars c hc) (by decide))
    have htake : (h.text ++ rest).takeWhile (· ≠ ':') = h.text := by
      rw [List.takeWhile_append_of_pos hcolon]
      rcases hrest with rfl | ⟨digits, rfl⟩ <;> simp
    have hdrop : (h.text ++ rest).dropWhile (· ≠ ':') = rest := by
      rw [List.dropWhile_append_of_pos hcolon]
      rcases hrest with rfl | ⟨digits, rfl⟩ <;> simp
    unfold splitHost
    split
    · rename_i cs hcs
      -- A name does not begin with a bracket.
      cases htext : h.text with
      | nil => exact absurd htext hne
      | cons c name =>
          rw [htext, List.cons_append] at hcs
          exact absurd (List.cons.inj hcs).1
            (ne_of_hostChar (hchars c (htext ▸ List.mem_cons_self)) (by decide))
    · rw [htake, hdrop]
  · rw [htext]
    refine ⟨List.cons_ne_nil _ _, ?_⟩
    have hinner : ']' ∉ inner := fun hmem => absurd (hchars ']' hmem) (by decide)
    have happend : '[' :: (inner ++ [']']) ++ rest = '[' :: (inner ++ ']' :: rest) := by simp
    rw [happend, splitHost, splitFirst_append hinner]

/-- What satisfies a test that the three ends fail does not end an authority. -/
theorem not_authorityEnd {q : Char → Bool} (hq : ['/', '?', '#'].all (fun c => !q c) = true) {c : Char}
    (h : q c = true) : authorityEnd c = false := by
  rw [Bool.eq_false_iff]
  intro hend
  unfold authorityEnd at hend
  simp only [Bool.or_eq_true, beq_iff_eq] at hend
  have hmem : c ∈ ['/', '?', '#'] := by
    rcases hend with (rfl | rfl) | rfl <;> decide
  have hfails := List.all_eq_true.1 hq c hmem
  rw [h] at hfails
  cases hfails

theorem Host.in_authority (h : Host) : ∀ c ∈ h.text, authorityEnd c = false := by
  intro c hc
  rcases h.wellFormed with ⟨-, hchars⟩ | ⟨inner, htext, hchars⟩
  · exact not_authorityEnd (q := hostChar) (by decide) (hchars c hc)
  · rw [htext] at hc
    rcases List.mem_cons.1 hc with rfl | hc
    · decide
    · rcases List.mem_append.1 hc with hc | hc
      · exact not_authorityEnd (q := literalChar) (by decide) (hchars c hc)
      · rw [List.mem_singleton.1 hc]
        decide

theorem PortText.isDigit (port : PortText) : ∀ c ∈ port.digits, c.isDigit = true := by
  have hparses := port.parses
  unfold parsePort at hparses
  split at hparses
  · rename_i h
    exact List.all_eq_true.1 h.2.1
  · cases hparses

theorem PortText.in_authority (port : PortText) : ∀ c ∈ port.digits, authorityEnd c = false :=
  fun c hc => not_authorityEnd (q := Char.isDigit) (by decide) (port.isDigit c hc)

/-- What a port adds to the authority. -/
def portSuffix (port : Option PortText) : List Char :=
  match port with
  | some port => ':' :: port.digits
  | none => []

/-- The port a server is spoken to on. -/
def portOf (scheme : Scheme) (port : Option PortText) : Nat :=
  match port with
  | some port => port.number
  | none => scheme.defaultPort

theorem readAuthority_text (scheme : Scheme) (h : Host) (port : Option PortText) :
    readAuthority scheme (h.text ++ portSuffix port) =
      some { scheme := scheme, host := h.text, port := portOf scheme port } := by
  cases port with
  | none =>
      rcases splitHost_text h (Or.inl rfl) with ⟨hne, hsplit⟩
      unfold readAuthority portSuffix portOf
      rw [hsplit]
      dsimp only
      rw [if_neg hne]
  | some port =>
      rcases splitHost_text h (Or.inr ⟨port.digits, rfl⟩) with ⟨hne, hsplit⟩
      unfold readAuthority portSuffix portOf
      rw [hsplit]
      dsimp only
      rw [if_neg hne]
      simp only [port.parses, Option.map_some]

/-- The authority of a URL ends where its path begins. -/
theorem parseServer_authority (scheme : Scheme) {authority : List Char}
    (h : ∀ c ∈ authority, authorityEnd c = false) (path : List Char) :
    parseServer (scheme.text ++ (authority ++ '/' :: path)) = readAuthority scheme authority := by
  unfold parseServer
  rw [stripScheme_text]
  dsimp only
  rw [takeWhile_append_of_stop (fun c hc => by rw [h c hc]; rfl) (by decide)]

/-- A URL that is put together from its parts is read back, whatever its path. -/
theorem parseServer_text (scheme : Scheme) (h : Host) (port : Option PortText) (path : List Char) :
    parseServer (scheme.text ++ (h.text ++ portSuffix port ++ '/' :: path)) =
      some { scheme := scheme, host := h.text, port := portOf scheme port } := by
  rw [parseServer_authority, readAuthority_text]
  intro c hc
  rcases List.mem_append.1 hc with hhost | hport
  · exact h.in_authority c hhost
  · cases port with
    | none => cases hport
    | some port =>
        rcases List.mem_cons.1 hport with rfl | hdigit
        · decide
        · exact port.in_authority c hdigit

/-- Behind a host and a colon the digits decide. -/
theorem parseServer_digits (scheme : Scheme) (h : Host) {digits : List Char}
    (hdigits : ∀ c ∈ digits, c.isDigit = true) (path : List Char) :
    parseServer (scheme.text ++ (h.text ++ ':' :: digits ++ '/' :: path)) =
      (parsePort digits).map fun port => { scheme := scheme, host := h.text, port := port } := by
  rw [parseServer_authority]
  · rcases splitHost_text h (Or.inr ⟨digits, rfl⟩) with ⟨hne, hsplit⟩
    unfold readAuthority
    rw [hsplit]
    dsimp only
    rw [if_neg hne]
    rfl
  · intro c hc
    rcases List.mem_append.1 hc with hhost | hport
    · exact h.in_authority c hhost
    · rcases List.mem_cons.1 hport with rfl | hdigit
      · decide
      · exact not_authorityEnd (q := Char.isDigit) (by decide) (hdigits c hdigit)

theorem number_of_parsePort {digits : List Char} {number : Nat} (h : parsePort digits = some number) :
    number = decimal digits ∧ 1 ≤ number := by
  unfold parsePort at h
  split at h
  · rename_i hok
    cases h
    exact ⟨rfl, hok.2.2.1⟩
  · cases h

theorem le_decimal_from (digits : List Char) :
    ∀ n, n ≤ digits.foldl (fun n c => n * 10 + (c.toNat - 48)) n := by
  induction digits with
  | nil =>
      intro n
      exact Nat.le_refl n
  | cons c digits ih =>
      intro n
      calc
        n ≤ n * 10 + (c.toNat - 48) := by omega
        _ ≤ _ := ih _

/-- A port whose last digits are cut off is another number. -/
theorem decimal_ne_of_cut {front back : List Char} (hback : back ≠ []) (hpos : 1 ≤ decimal (front ++ back)) :
    decimal front ≠ decimal (front ++ back) := by
  intro hsame
  rcases List.exists_cons_of_ne_nil hback with ⟨c, rest, rfl⟩
  have hle := le_decimal_from rest (decimal front * 10 + (c.toNat - 48))
  have hwhole : decimal (front ++ c :: rest) =
      rest.foldl (fun n c => n * 10 + (c.toNat - 48)) (decimal front * 10 + (c.toNat - 48)) := by
    unfold decimal
    rw [List.foldl_append, List.foldl_cons]
  omega

theorem splitHost_begins {authority host rest : List Char} (h : splitHost authority = some (host, rest)) :
    host <+: authority := by
  unfold splitHost at h
  split at h
  · rename_i cs
    split at h
    · rename_i inner rest hsplit
      cases h
      have hcs := splitFirst_eq_some hsplit
      exact ⟨rest, by rw [hcs]; simp⟩
    · cases h
  · cases h
    exact List.takeWhile_prefix _

/-- What is read stands in the URL: the scheme in front, and behind it the host, in front of the path. -/
theorem parseServer_sound {scheme : Scheme} {authority path : List Char} {server : Server}
    (h : parseServer (scheme.text ++ (authority ++ '/' :: path)) = some server) :
    server.scheme = scheme ∧ server.host <+: authority := by
  unfold parseServer at h
  rw [stripScheme_text] at h
  dsimp only at h
  have hprefix : (authority ++ '/' :: path).takeWhile (fun c => !authorityEnd c) <+: authority :=
    takeWhile_prefix_of_stop (by decide)
  unfold readAuthority at h
  split at h
  · cases h
  · rename_i host rest hsplit
    have hhost := (splitHost_begins hsplit).trans hprefix
    split at h
    · cases h
    · split at h
      · cases h
        exact ⟨rfl, hhost⟩
      · rcases Option.map_eq_some_iff.1 h with ⟨port, -, rfl⟩
        exact ⟨rfl, hhost⟩
      · cases h

/-- A second scheme behind the first is read as a host without a port after its colon. -/
theorem parseServer_scheme_twice (outer inner : Scheme) (rest : List Char) :
    parseServer (outer.text ++ (inner.text ++ rest)) = none := by
  unfold parseServer
  rw [stripScheme_text]
  cases inner with
  | http => rfl
  | https => rfl

end Url
end Foundation
end GatewayEdge
