import GatewayEdge.Config
import GatewayEdge.Foundation.WindowCounter
import Mathlib.Logic.Function.Basic

/-!
# RateLimit — the per-user limiter and its fleet-wide synchronisation

Layer 1 is one packed word per hashed user in a mapped file.  Layer 2 queues a message for each
counted request; a background thread increments a Redis counter per message and saturates the
local word when the reply exceeds the limit.
-/

namespace GatewayEdge
namespace RateLimit

open Foundation

def shmSlots : Nat := 1000000
def channelCapacity : Nat := 512
/-- Seconds a fleet counter lives: "1-second window + 1-second buffer". -/
def redisTtlSecs : Nat := 2

structure SyncMsg where
  userKey : String
  localCount : Nat
  windowTs : Nat
  maxRps : Nat
  deriving DecidableEq, Repr

/-- `rl_redis_enabled`. -/
def rlRedisEnabled (env : EnvVars) : Bool :=
  match env "RATE_LIMIT_REDIS_ENABLED" with
  | some v => v != "0" && !eqIgnoreAsciiCase v "false"
  | none => true

/-! ## Layer 1: the local bucket -/

/-- One pass of the compare-exchange loop of `check_rate_limit`: the word to install, `none` for
`return false`. -/
def checkRateBody (maxRps now current : Nat) : Option Nat :=
  let currentTs := (current >>> 32) % 2 ^ 32
  let currentCount := current &&& 0xFFFFFFFF
  -- A word of any other second, a later one included, starts a new window.
  if currentTs ≠ now then some ((now <<< 32) ||| 1)
  else if currentCount ≥ maxRps % 2 ^ 32 then none
  else some ((now <<< 32) ||| (currentCount + 1))

theorem checkRateBody_eq (maxRps now current : Nat) :
    checkRateBody maxRps now current = WindowCounter.bump (maxRps % 2 ^ 32) now current := rfl

/-- `try_send` on the bounded channel: a full channel drops the message. -/
def trySend (msg : SyncMsg) (queue : List SyncMsg) : List SyncMsg :=
  if queue.length < channelCapacity then queue ++ [msg] else queue

theorem mem_trySend {msg m : SyncMsg} {queue : List SyncMsg} (h : m ∈ trySend msg queue) :
    m ∈ queue ∨ m = msg := by
  unfold trySend at h
  split at h
  · exact (List.mem_append.1 h).imp_right List.mem_singleton.1
  · exact Or.inl h

/-- What the limiter touches: the mapped buckets and the worker's channel, if the sync thread
has been started. -/
structure State where
  shm : Nat → Nat
  tx : Option (List SyncMsg)

def bucketSlot (fxHash : String → Nat) (userKey : String) : Nat := fxHash userKey % shmSlots

/-- `check_rate_limit`, its compare-exchange succeeding at the first attempt. -/
def checkRateLimit (fxHash : String → Nat) (env : EnvVars) (nowSecs maxRps : Nat)
    (userKey : Option String) (s : State) : State × Bool :=
  if maxRps = 0 then (s, true)
  else
    match userKey.filter (· ≠ "") with
    -- Anonymous requests are the business of the WAF.
    | none => (s, true)
    | some key =>
      let now := nowSecs % 2 ^ 32
      match checkRateBody maxRps now (s.shm (bucketSlot fxHash key)) with
      | none => (s, false)
      | some word =>
        -- The message carries the window the request was counted in.
        let msg : SyncMsg :=
          { userKey := key, localCount := word &&& 0xFFFFFFFF, windowTs := now
            maxRps := maxRps % 2 ^ 32 }
        ({ shm := Function.update s.shm (bucketSlot fxHash key) word
           tx := if rlRedisEnabled env then s.tx.map (trySend msg) else s.tx }, true)

/-! ## Layer 2: the sync thread -/

/-- `i64 as u32`. -/
def asU32 (n : Int) : Nat := (n % 2 ^ 32).toNat

/-- The bucket after the sync thread has handled a successful reply: saturated for the window
the message was queued in when the fleet count exceeds the limit. -/
def applyReply (msg : SyncMsg) (fleetCount : Int) (word : Nat) : Nat :=
  if asU32 fleetCount > msg.maxRps then (msg.windowTs <<< 32) ||| (msg.maxRps + 1) else word

theorem applyReply_eq (msg : SyncMsg) (fleetCount : Int) (word : Nat) :
    applyReply msg fleetCount word =
      if asU32 fleetCount > msg.maxRps then WindowCounter.pack msg.windowTs (msg.maxRps + 1)
      else word := rfl

/-- A Redis counter: its value and the time in milliseconds it expires at. -/
structure FleetKey where
  count : Int
  expiresAtMs : Nat
  deriving DecidableEq, Repr

/-- `RL_LUA_SCRIPT`: increment, and set the expiry when the increment created the key. -/
def runScript (nowMs : Nat) (key : Option FleetKey) : FleetKey :=
  match key.filter (fun k => nowMs < k.expiresAtMs) with
  | some k => { k with count := k.count + 1 }
  | none => { count := 1, expiresAtMs := nowMs + redisTtlSecs * 1000 }

end RateLimit
end GatewayEdge
