import GatewayEdge.Config
import GatewayEdge.Foundation.WindowCounter
import GatewayEdge.Sentinel
import Mathlib.Logic.Function.Basic

/-!
# Waf — size guards, injection and bot scans, per-IP rate limit

The automata are substring searches up to ASCII case.  The per-IP buckets and the block counter
live in one mapped file shared by the node's workers.
-/

namespace GatewayEdge
namespace Waf

open Foundation

/-! ## Patterns and limits -/

def injectionPatterns : List String := [
  "../", "..\\",
  "<script", "</script>", "javascript:", "onerror=", "onload=", "alert(",
  "union select", "union all select", "' or '1'='1", "\" or \"1\"=\"1", "or 1=1",
  "exec(", "execute(", "xp_cmdshell", "sp_executesql",
  "/etc/passwd", "/etc/shadow", "/bin/sh", "/bin/bash", "cmd.exe", "powershell",
  "<!entity", "<!doctype", "file://", "dict://", "gopher://",
  "\x7b\x7b", "\x7d\x7d", "$\x7b", "#\x7b"]

def botPatterns : List String := [
  "sqlmap", "nikto", "nmap", "masscan", "zgrab", "dirbuster", "gobuster",
  "nuclei", "hydra", "burpsuite", "metasploit", "w3af", "acunetix", "wfuzz"]

def maxUriLen : Nat := 2048
def maxAuthHeaderLen : Nat := 4096
def maxUaLen : Nat := 512
def maxBodyScanLen : Nat := 8192
def maxDecodePasses : Nat := 3
def ipRateLimitSlots : Nat := 1000000

/-- `ip_rate_limit_rps`: the configured budget, tightened by the posture, never below one. -/
def ipRateLimitRps (env : EnvVars) (posture : Nat) : Nat :=
  max (((env "WAF_IP_RATE_LIMIT_RPS").bind (parseUnsigned 32)).getD 100
    / Sentinel.wafBudgetDivisor posture) 1

/-! ## Truncation on a character boundary -/

/-- `s.len()`, in bytes. -/
def byteLen (s : List Char) : Nat := (s.map Char.utf8Size).sum

def isCharBoundary : List Char → Nat → Bool
  | _, 0 => true
  | [], _ + 1 => false
  | c :: cs, n + 1 => c.utf8Size ≤ n + 1 && isCharBoundary cs (n + 1 - c.utf8Size)

/-- The backward loop: the last boundary at or below the given offset. -/
def walkBack (s : List Char) : Nat → Nat
  | 0 => 0
  | n + 1 => if isCharBoundary s (n + 1) then n + 1 else walkBack s n

/-- `&s[..n]`. -/
def sliceTo : List Char → Nat → List Char
  | [], _ => []
  | c :: cs, n => if c.utf8Size ≤ n then c :: sliceTo cs (n - c.utf8Size) else []

def truncateOnCharBoundary (s : List Char) (max : Nat) : List Char :=
  if byteLen s ≤ max then s else sliceTo s (walkBack s max)

/-! ## Percent-decoding -/

/-- `url_decode`: two characters are consumed after every `%`, hexadecimal or not. -/
def urlDecode : List Char → List Char
  | [] => []
  | c :: rest =>
    if c = '%' then
      match rest with
      | h1 :: h2 :: rest =>
        -- Both characters are taken off the input before they are looked at.
        match hexValue h1, hexValue h2 with
        | some d1, some d2 => Char.ofNat (d1 * 16 + d2) :: urlDecode rest
        | _, _ => '%' :: h1 :: h2 :: urlDecode rest
      -- Fewer than two are left: they are dropped and the `%` stays.
      | _ => ['%']
    else if c = '+' then ' ' :: urlDecode rest
    else c :: urlDecode rest

/-- The remaining passes; a pass that changes nothing ends the loop. -/
def urlDecodeLoop : Nat → List Char → List Char
  | 0, current => current
  | n + 1, current =>
    if urlDecode current = current then current else urlDecodeLoop n (urlDecode current)

def urlDecodeRecursive (encoded : List Char) : List Char :=
  urlDecodeLoop (maxDecodePasses - 1) (urlDecode encoded)

/-! ## The per-IP limiter -/

/-- The mapped file: the block counter and the per-IP buckets. -/
structure Shm where
  blocks : Nat
  ip : Nat → Nat

def incrementWafBlocks (shm : Shm) : Shm := { shm with blocks := (shm.blocks + 1) % 2 ^ 64 }

/-- One pass of the loop of `ip_rate_exceeded`: the word to install, `none` for `return true`. -/
def ipRateBody (budget now current : Nat) : Option Nat :=
  let currentTs := (current >>> 32) % 2 ^ 32
  let currentCount := current &&& 0xFFFFFFFF
  -- The same step as in the per-user limiter, with another budget.
  if currentTs ≠ now then some ((now <<< 32) ||| 1)
  else if currentCount ≥ budget then none
  else some ((now <<< 32) ||| (currentCount + 1))

theorem ipRateBody_eq (budget now current : Nat) :
    ipRateBody budget now current = WindowCounter.bump budget now current := rfl

/-- What the WAF reads besides the request: hash, environment, clock in seconds, posture. -/
structure Context where
  fxHash : String → Nat
  env : EnvVars
  now : Nat
  posture : Nat

variable (ctx : Context)

def ipSlot (ip : String) : Nat := ctx.fxHash ip % ipRateLimitSlots

def Context.budget : Nat := ipRateLimitRps ctx.env ctx.posture

/-- `ip_rate_exceeded`, its compare-exchange succeeding at the first attempt. -/
def ipRateExceeded (ip : String) (shm : Shm) : Shm × Bool :=
  match ipRateBody ctx.budget (ctx.now % 2 ^ 32) (shm.ip (ipSlot ctx ip)) with
  | some word => ({ shm with ip := Function.update shm.ip (ipSlot ctx ip) word }, false)
  | none => (shm, true)

/-! ## Inspection -/

inductive WafDecision
  | allow
  | block (status : Nat) (reason : String)
  deriving DecidableEq, Repr

/-- Count a block and answer with it. -/
def blocked (status : Nat) (reason : String) (shm : Shm) : Shm × WafDecision :=
  (incrementWafBlocks shm, .block status reason)

def inspect (uri authHeader userAgent body clientIp : String) (shm : Shm) : Shm × WafDecision :=
  if maxUriLen < uri.utf8ByteSize then blocked 400 "URI too long" shm
  else if maxAuthHeaderLen < authHeader.utf8ByteSize then blocked 400 "Auth header too large" shm
  else if matchesAny injectionPatterns (urlDecodeRecursive uri.toList) then
    blocked 403 "Forbidden: injection in URI" shm
  else if body ≠ "" ∧ matchesAny injectionPatterns
      (truncateOnCharBoundary body.toList maxBodyScanLen) then
    blocked 403 "Forbidden: injection in body" shm
  else if matchesAny botPatterns (truncateOnCharBoundary userAgent.toList maxUaLen) then
    blocked 403 "Forbidden: bot detected" shm
  -- A request with credentials is limited per user later on.
  else if authHeader = "" ∧ clientIp ≠ "" then
    match ipRateExceeded ctx clientIp shm with
    | (shm, true) => blocked 429 "Too Many Requests: IP rate limit" shm
    | (shm, false) => (shm, .allow)
  else (shm, .allow)

/-! ## Rules for the callers -/

theorem budget_pos : 1 ≤ ctx.budget := le_max_right _ _

/-- The budget is a `u32`. -/
theorem budget_lt : ctx.budget < 2 ^ 32 := by
  have hsetting : ((ctx.env "WAF_IP_RATE_LIMIT_RPS").bind (parseUnsigned 32)).getD 100 < 2 ^ 32 := by
    cases hparse : (ctx.env "WAF_IP_RATE_LIMIT_RPS").bind (parseUnsigned 32) with
    | none => decide
    | some n =>
        rcases Option.bind_eq_some_iff.1 hparse with ⟨text, _, hn⟩
        exact parseUnsigned_lt hn
  exact max_lt (lt_of_le_of_lt (Nat.div_le_self _ _) hsetting) (by decide)

/-- A hit that is let through is one bump of the bucket of its address. -/
theorem ipRateExceeded_false {ip : String} {shm shm' : Shm}
    (h : ipRateExceeded ctx ip shm = (shm', false)) :
    ∃ word, WindowCounter.bump ctx.budget (ctx.now % 2 ^ 32) (shm.ip (ipSlot ctx ip)) = some word ∧
      shm'.ip = Function.update shm.ip (ipSlot ctx ip) word := by
  unfold ipRateExceeded at h
  rw [ipRateBody_eq] at h
  split at h
  · rename_i word hbump
    exact ⟨word, hbump, by rw [← (Prod.mk.inj h).1]⟩
  · simp at h

/-- A refused hit leaves the buckets alone. -/
theorem ipRateExceeded_true {ip : String} {shm shm' : Shm}
    (h : ipRateExceeded ctx ip shm = (shm', true)) : shm' = shm := by
  unfold ipRateExceeded at h
  split at h
  · simp at h
  · simpa using h.symm

/-- Everything an inspection can do: a guard or a scan blocks before the limiter is asked, the limiter
decides for a request without credentials, or nothing stands against the request. -/
theorem inspect_cases (uri authHeader userAgent body clientIp : String) (shm : Shm) :
    (∃ status reason, (status = 400 ∨ status = 403) ∧
      inspect ctx uri authHeader userAgent body clientIp shm = blocked status reason shm) ∨
    ((authHeader = "" ∧ clientIp ≠ "") ∧
      ((ipRateExceeded ctx clientIp shm = (shm, true) ∧
        inspect ctx uri authHeader userAgent body clientIp shm =
          blocked 429 "Too Many Requests: IP rate limit" shm) ∨
      ∃ shm', ipRateExceeded ctx clientIp shm = (shm', false) ∧
        inspect ctx uri authHeader userAgent body clientIp shm = (shm', .allow))) ∨
    (¬(authHeader = "" ∧ clientIp ≠ "") ∧
      inspect ctx uri authHeader userAgent body clientIp shm = (shm, .allow)) := by
  unfold inspect
  -- The guards in the order of the source; only what passes all of them gets to the limiter.
  split
  · exact Or.inl ⟨400, _, Or.inl rfl, rfl⟩
  split
  · exact Or.inl ⟨400, _, Or.inl rfl, rfl⟩
  split
  · exact Or.inl ⟨403, _, Or.inr rfl, rfl⟩
  split
  · exact Or.inl ⟨403, _, Or.inr rfl, rfl⟩
  split
  · exact Or.inl ⟨403, _, Or.inr rfl, rfl⟩
  split
  · rename_i hanon
    refine Or.inr (Or.inl ⟨hanon, ?_⟩)
    rcases hip : ipRateExceeded ctx clientIp shm with ⟨shm', answer⟩
    cases answer with
    | true =>
        have hsame : shm' = shm := ipRateExceeded_true ctx hip
        subst hsame
        exact Or.inl ⟨rfl, rfl⟩
    | false => exact Or.inr ⟨shm', rfl, rfl⟩
  · rename_i hauth
    exact Or.inr (Or.inr ⟨hauth, rfl⟩)

/-- A request without credentials is let through only by the limiter, and every other request
without it. -/
theorem inspect_allow {uri authHeader userAgent body clientIp : String} {shm shm' : Shm}
    (h : inspect ctx uri authHeader userAgent body clientIp shm = (shm', .allow)) :
    (authHeader = "" ∧ clientIp ≠ "" ∧ ipRateExceeded ctx clientIp shm = (shm', false)) ∨
      (¬(authHeader = "" ∧ clientIp ≠ "") ∧ shm' = shm) := by
  rcases inspect_cases ctx uri authHeader userAgent body clientIp shm with
    ⟨status, reason, -, hres⟩ | ⟨hanon, ⟨-, hres⟩ | ⟨shm₁, hip, hres⟩⟩ | ⟨hauth, hres⟩
  · simp [hres, blocked] at h
  · simp [hres, blocked] at h
  · have hshm : shm₁ = shm' := (Prod.mk.inj (hres.symm.trans h)).1
    exact Or.inl ⟨hanon.1, hanon.2, hshm ▸ hip⟩
  · exact Or.inr ⟨hauth, (Prod.mk.inj (hres.symm.trans h)).1.symm⟩

/-- A blocked request leaves the buckets alone, and its status says what blocked it. -/
theorem inspect_block {uri authHeader userAgent body clientIp : String} {shm shm' : Shm}
    {status : Nat} {reason : String}
    (h : inspect ctx uri authHeader userAgent body clientIp shm = (shm', .block status reason)) :
    shm'.ip = shm.ip ∧ (status = 400 ∨ status = 403 ∨ status = 429) := by
  have hblocked : ∀ s r, blocked s r shm = (shm', .block status reason) → shm'.ip = shm.ip ∧ s = status := by
    intro s r hres
    rcases Prod.mk.inj hres with ⟨hshm, hdecision⟩
    exact ⟨by rw [← hshm]; rfl, (WafDecision.block.inj hdecision).1⟩
  rcases inspect_cases ctx uri authHeader userAgent body clientIp shm with
    ⟨s, r, hs, hres⟩ | ⟨-, ⟨-, hres⟩ | ⟨shm₁, -, hres⟩⟩ | ⟨-, hres⟩
  · rcases hblocked s r (hres.symm.trans h) with ⟨hip, rfl⟩
    exact ⟨hip, hs.imp_right Or.inl⟩
  · rcases hblocked _ _ (hres.symm.trans h) with ⟨hip, rfl⟩
    exact ⟨hip, Or.inr (Or.inr rfl)⟩
  · exact absurd (Prod.mk.inj (hres.symm.trans h)).2 (by simp)
  · exact absurd (Prod.mk.inj (hres.symm.trans h)).2 (by simp)

/-- What an inspection does to one bucket: nothing, or one bump. -/
theorem inspect_ip {uri authHeader userAgent body clientIp : String} (shm : Shm) (i : Nat) :
    let after := (inspect ctx uri authHeader userAgent body clientIp shm).1
    after.ip i = shm.ip i ∨
      WindowCounter.bump ctx.budget (ctx.now % 2 ^ 32) (shm.ip i) = some (after.ip i) := by
  dsimp only
  rcases hinspect : inspect ctx uri authHeader userAgent body clientIp shm with ⟨shm', decision⟩
  cases decision with
  | block status reason => exact Or.inl (congrFun (inspect_block ctx hinspect).1 i)
  | allow =>
      rcases inspect_allow ctx hinspect with ⟨_, _, hip⟩ | ⟨_, hsame⟩
      · rcases ipRateExceeded_false ctx hip with ⟨word, hbump, hupdate⟩
        rw [hupdate]
        by_cases hi : i = ipSlot ctx clientIp
        · subst hi
          exact Or.inr (by simpa using hbump)
        · exact Or.inl (by simp [Function.update_of_ne hi])
      · exact Or.inl (by rw [hsame])

example : urlDecodeRecursive "%253Cscript".toList = "<script".toList := by decide +kernel

end Waf
end GatewayEdge
