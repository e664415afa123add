import GatewayEdge.Config
import GatewayEdge.Foundation.Utf8
import Mathlib.Logic.Function.Basic

/-!
# Quota — per-user daily ceilings counted in Redis

The counters are Redis state shared by the fleet.  A counter key carries its UTC day and is given
more than a day to live, so its expiry is never seen by a check of that day and is left out.
-/

namespace GatewayEdge
namespace Quota

open Foundation

/-- Decimal digits, padded with zeros to a minimal width: `{:0width}`. -/
def padDecimal (width n : Nat) : List Char :=
  let digits := Nat.toDigits 10 n
  List.replicate (width - digits.length) '0' ++ digits

/-- Stable shard of the counter key: the first eight bytes of the SHA-256 in hexadecimal. -/
def userShard (sha256 : Bytes → Bytes) (userId : String) : List Char :=
  ((sha256 (strBytes userId)).take 8).flatMap fun b => toHex 2 b.toNat

/-- The civil date of a day number since 1970-01-01 (years from March, eras of 400 years). -/
def civilFromDays (days : Nat) : Nat × Nat × Nat :=
  let z := days + 719468
  let era := z / 146097
  let doe := z % 146097
  let yoe := (doe - doe / 1460 + doe / 36524 - doe / 146096) / 365
  let y := yoe + era * 400
  let doy := doe - (365 * yoe + yoe / 4 - yoe / 100)
  let mp := (5 * doy + 2) / 153
  let d := doy - (153 * mp + 2) / 5 + 1
  let m := if mp < 10 then mp + 3 else mp - 9
  (if m ≤ 2 then y + 1 else y, m, d)

/-- `yyyymmdd` of an instant, UTC. -/
def utcDayKey (secs : Nat) : List Char :=
  let (y, m, d) := civilFromDays (secs / 86400)
  padDecimal 4 y ++ padDecimal 2 m ++ padDecimal 2 d

def counterKey (sha256 : Bytes → Bytes) (secs : Nat) (service userId : String) : String :=
  "gateway:quota:" ++ service ++ ":" ++ String.ofList (utcDayKey secs) ++ ":" ++
    String.ofList (userShard sha256 userId)

inductive QuotaDecision
  | allow
  | borrowed
  | rejected
  deriving DecidableEq, Repr

def exceeds (counter limit : Nat) : Bool := 0 < limit && limit < counter

/-- `quota_decision`, in wrapping `u64` arithmetic. -/
def quotaDecision (count limit borrowPercent : Nat) : QuotaDecision :=
  if limit = 0 then .allow
  else if count ≤ limit then .allow
  else
    let ceiling := (limit + limit * borrowPercent % 2 ^ 64 / 100) % 2 ^ 64
    if count ≤ ceiling ∧ 0 < borrowPercent then .borrowed else .rejected

/-! ## Talking to Redis -/

/-- What becomes of one pipelined `INCR`: answered, lost before it took effect, or executed with
its reply lost. -/
inductive CommandFate
  | replied
  | lostBefore
  | lostAfter
  deriving DecidableEq, Repr

/-- One attempt: does opening a connection succeed (if one has to be opened), and the fate of the
command. -/
structure Attempt where
  opens : Bool := true
  fate : CommandFate := .replied
  deriving DecidableEq, Repr

/-- The fleet's counters and this worker's persistent connection. -/
structure State where
  counters : String → Int
  connected : Bool

def incr (key : String) (s : State) : State :=
  { s with counters := Function.update s.counters key (s.counters key + 1) }

/-- The attempts of one check; `none` is the error path. -/
def attempts (key : String) : List Attempt → State → State × Option Int
  | [], s => (s, none)
  | a :: rest, s =>
    -- A connection that cannot be opened ends the check without a second attempt.
    if !s.connected && !a.opens then (s, none)
    else
      match a.fate with
      | .replied =>
        let s := { incr key s with connected := true }
        (s, some (s.counters key))
      | .lostBefore => attempts key rest { s with connected := false }
      -- The retry increments again.
      | .lostAfter => attempts key rest { incr key s with connected := false }

/-- `check_quota`: two attempts at most, and open on any failure. -/
def checkQuota (sha256 : Bytes → Bytes) (secs : Nat) (service userId : String)
    (policy : QuotaPolicy) (io : List Attempt) (s : State) : State × Bool :=
  match attempts (counterKey sha256 secs service userId) (io.take 2) s with
  | (s, none) => (s, true)
  | (s, some count) =>
    match quotaDecision (count % 2 ^ 64).toNat policy.dailyLimit policy.borrowPercent with
    | .allow => (s, true)
    | .borrowed => (s, true)
    | .rejected => (s, false)

example : utcDayKey 1709164800 = "20240229".toList := by decide

end Quota
end GatewayEdge
