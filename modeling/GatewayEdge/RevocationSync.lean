import GatewayEdge.Foundation.SortedSet
import GatewayEdge.Revocation
import Mathlib.Data.String.Basic

/-!
# RevocationSync — the background thread of the auth snapshot

One worker's sync thread against a Redis that publishers write at the same time.  A cycle of
`sync_once` is taken apart at its exchanges with Redis, so that publishers and the clock may move
between any two of them, and each exchange may fail.

Scores are exact integers, and `none` is the watermark `-inf` of a thread that has seen none.
-/

namespace GatewayEdge
namespace Revocation
namespace Sync

open Foundation

/-! ## Redis -/

def skewOverlapSecs : Int := 60
def mgetChunk : Nat := 500
def tvKey (user : String) : String := "gateway:user:tv:" ++ user

structure Redis where
  /-- `gateway:revocation:index`: revoked key, scored by its expiry in epoch seconds. -/
  revIndex : SortedSet String
  /-- `gateway:tv:index`: user, scored by the epoch milliseconds of the change. -/
  tvIndex : SortedSet String
  /-- The plain string keys. -/
  strings : String → Option String

/-- What publishers do: revoke a key, drop a member of the index that has expired, or change the
version floor of a user. -/
inductive Publication
  | revoke (key : String) (expiry : Int)
  | prune (key : String)
  | setVersion (user : String) (value : Option String) (score : Int)
  deriving DecidableEq, Repr

/-- Publishers never remove an unexpired member. -/
def Redis.accept (r : Redis) (nowSecs : Nat) : Publication → Option Redis
  | .revoke key expiry => some { r with revIndex := r.revIndex.insert key expiry }
  | .prune key =>
    match r.revIndex.lookup key with
    | some expiry =>
      if expiry ≤ nowSecs then some { r with revIndex := r.revIndex.erase key } else none
    | none => none
  | .setVersion user value score =>
    some { r with
      tvIndex := r.tvIndex.insert user score
      strings := Function.update r.strings (tvKey user) value }

/-! ## One cycle -/

/-- A cycle past its two index queries: the changed users whose floors are still to be fetched, and
the floors fetched so far. -/
structure Cycle where
  now : Nat
  revDelta : List (String × Int)
  maxTvScore : Option Int
  pending : List String
  fetchedFloors : String → Option (Option Nat)

/-- The place in `sync_once` the thread has got to. -/
inductive Phase
  | idle
  | connected (now : Nat)
  | revocationsPulled (now : Nat) (revDelta : List (String × Int))
  | fetching (c : Cycle)
  | published (now : Nat)

/-- `as u64` of a score, saturating at both ends. -/
def asU64 (score : Int) : Nat := min score.toNat (2 ^ 64 - 1)

/-- One `MGET` for the next users, its replies zipped with them. -/
def Cycle.fetchChunk (c : Cycle) (strings : String → Option String) : Cycle :=
  let chunk := c.pending.take mgetChunk
  let vals := chunk.map fun user => strings (tvKey user)
  { c with
    pending := c.pending.drop mgetChunk
    fetchedFloors :=
      overwrite (fun val : Option String => val.bind (parseUnsigned 64)) c.fetchedFloors
        (chunk.zip vals) }

/-- The unexpired part of the last snapshot, then the delta, then what a scan found, for which six
intervals stand in for an unknown expiry. -/
def rebuildRevoked (env : EnvVars) (now : Nat) (prev : String → Option Nat)
    (revDelta : List (String × Int)) (scannedKeys : Option (List String)) : String → Option Nat :=
  -- The order matters: a later source overwrites the expiry an earlier one gave.
  let kept := fun key => (prev key).filter fun expiry => decide (now < expiry)
  let revoked := overwrite asU64 kept revDelta
  match scannedKeys with
  | some keys =>
    overwrite id revoked (keys.map fun key => (key, now + syncIntervalSecs env * 6))
  | none => revoked

/-- A fetched floor replaces the last one, and a deleted one removes it. -/
def rebuildFloors (prev : String → Option Nat) (fetchedFloors : String → Option (Option Nat)) :
    String → Option Nat := fun user =>
  match fetchedFloors user with
  | some floor => floor
  | none => prev user

/-- A watermark is only ever set to a finite score. -/
def commitScore (last max : Option Int) : Option Int :=
  match max with
  | some score => some score
  | none => last

def scanFallbackEnabled (env : EnvVars) : Bool := env.flag "AUTH_SNAPSHOT_SCAN_FALLBACK"

/-! ## The worker, Redis and the clock -/

/-- The wall clock in milliseconds, a `u64`. -/
abbrev Millis := Fin (2 ^ 64)

structure State where
  nowMs : Millis
  redis : Redis
  snapshot : RevocationSnapshot
  lastRevScore : Option Int
  lastTvScore : Option Int
  phase : Phase

def State.nowSecs (s : State) : Nat := s.nowMs.val / 1000

def State.enter (s : State) (phase : Phase) : State := { s with phase := phase }

/-- Store the new snapshot and advance the watermarks. -/
def State.publish (s : State) (env : EnvVars) (c : Cycle) (scannedKeys : Option (List String)) :
    State :=
  { s with
    snapshot :=
      { revoked := rebuildRevoked env c.now s.snapshot.revoked c.revDelta
          (if scanFallbackEnabled env then scannedKeys else none)
        tvFloors := rebuildFloors s.snapshot.tvFloors c.fetchedFloors
        syncedAtMs := s.nowMs.val
        generation := s.snapshot.generation + 1 }
    lastRevScore := commitScore s.lastRevScore (Watermark.raise s.lastRevScore c.revDelta)
    lastTvScore := commitScore s.lastTvScore c.maxTvScore
    phase := .published c.now }

/-- Drop what expired more than an hour before the cycle. -/
def State.collect (s : State) (now : Nat) : State :=
  { s with
    redis := { s.redis with revIndex := SortedSet.removeUpTo ((now - 3600 : Nat) : Int) s.redis.revIndex }
    phase := .idle }

/-- The exchanges of `sync_once`, each with whether it succeeds, and the publication in between
with the result of a scan. -/
inductive SyncStep
  | connect (ok : Bool)
  | pullRevocations (ok : Bool)
  | pullVersions (ok : Bool)
  | fetchChunk (ok : Bool)
  | publish (scannedKeys : Option (List String))
  | collect (ok : Bool)
  deriving DecidableEq, Repr

/-- A failed exchange ends the cycle and changes nothing else. -/
def syncStep (env : EnvVars) (s : State) : SyncStep → Option State
  | .connect ok =>
    match s.phase with
    -- `now` is read once; what expires during the cycle is still carried over.
    | .idle => some (s.enter (if ok then .connected s.nowSecs else .idle))
    | _ => none
  | .pullRevocations ok =>
    match s.phase with
    | .connected now =>
      let revFrom := Watermark.queryFrom skewOverlapSecs s.lastRevScore
      some (s.enter
        (if ok then .revocationsPulled now (SortedSet.rangeFrom revFrom s.redis.revIndex) else .idle))
    | _ => none
  | .pullVersions ok =>
    match s.phase with
    | .revocationsPulled now revDelta =>
      let tvFrom := Watermark.queryFrom (skewOverlapSecs * 1000) s.lastTvScore
      let tvDelta := SortedSet.rangeFrom tvFrom s.redis.tvIndex
      -- The watermark of this index is computed here and stored only when the cycle succeeds.
      some (s.enter
        (if ok then
          .fetching
            { now := now
              revDelta := revDelta
              maxTvScore := Watermark.raise s.lastTvScore tvDelta
              pending := tvDelta.map Prod.fst
              fetchedFloors := fun _ => none }
        else .idle))
    | _ => none
  | .fetchChunk ok =>
    match s.phase with
    | .fetching c =>
      -- The values are those of this moment, not those of the index query.
      if c.pending = [] then none
      else some (s.enter (if ok then .fetching (c.fetchChunk s.redis.strings) else .idle))
    | _ => none
  | .publish scannedKeys =>
    match s.phase with
    | .fetching c => if c.pending = [] then some (s.publish env c scannedKeys) else none
    | _ => none
  | .collect ok =>
    match s.phase with
    -- The snapshot is already live, so the result of the collection is ignored.
    | .published now => some (if ok then s.collect now else s.enter .idle)
    | _ => none

inductive Event
  | tick (nowMs : Millis)
  | publication (e : Publication)
  | sync (x : SyncStep)
  deriving DecidableEq, Repr

/-- The clock does not go back. -/
def step (env : EnvVars) (s : State) : Event → Option State
  | .tick nowMs => if s.nowMs ≤ nowMs then some { s with nowMs := nowMs } else none
  | .publication e => (s.redis.accept s.nowSecs e).map fun redis => { s with redis := redis }
  | .sync x => syncStep env s x

/-- A thread about to start its first cycle, on any Redis. -/
def boot (nowMs : Millis) (redis : Redis) : State where
  nowMs := nowMs
  redis := redis
  snapshot := RevocationSnapshot.empty
  lastRevScore := none
  lastTvScore := none
  phase := .idle

/-! ## What a step can do -/

theorem step_tick {env : EnvVars} {s s' : State} {nowMs : Millis}
    (h : step env s (.tick nowMs) = some s') :
    s.nowMs ≤ nowMs ∧ s' = { s with nowMs := nowMs } := by
  by_cases hle : s.nowMs ≤ nowMs
  · exact ⟨hle, by simpa [step, hle] using h.symm⟩
  · simp [step, hle] at h

/-- Only a member that has expired is pruned. -/
theorem accept_prune {r r' : Redis} {nowSecs : Nat} {key : String}
    (h : r.accept nowSecs (.prune key) = some r') :
    ∃ expired, r.revIndex.lookup key = some expired ∧ expired ≤ (nowSecs : Int) ∧
      r' = { r with revIndex := r.revIndex.erase key } := by
  unfold Redis.accept at h
  cases hlookup : r.revIndex.lookup key with
  | none => simp [hlookup] at h
  | some expired =>
      have hcut : expired ≤ (nowSecs : Int) ∧
          { r with revIndex := r.revIndex.erase key } = r' := by
        simpa [hlookup] using h
      exact ⟨expired, rfl, hcut.1, hcut.2.symm⟩

/-- Whether the exchange succeeded; the publication is none and cannot fail. -/
def SyncStep.ok : SyncStep → Bool
  | .connect ok | .pullRevocations ok | .pullVersions ok | .fetchChunk ok | .collect ok => ok
  | .publish _ => true

/-- The revocations from the next query's lower end on. -/
def State.revDelta (s : State) : List (String × Int) :=
  SortedSet.rangeFrom (Watermark.queryFrom skewOverlapSecs s.lastRevScore) s.redis.revIndex

/-- The version changes from the next query's lower end on. -/
def State.tvDelta (s : State) : List (String × Int) :=
  SortedSet.rangeFrom (Watermark.queryFrom (skewOverlapSecs * 1000) s.lastTvScore) s.redis.tvIndex

/-- The cycle as the query for version changes leaves it. -/
def State.openCycle (s : State) (now : Nat) (revDelta : List (String × Int)) : Cycle where
  now := now
  revDelta := revDelta
  maxTvScore := Watermark.raise s.lastTvScore s.tvDelta
  pending := s.tvDelta.map Prod.fst
  fetchedFloors := fun _ => none

/-- The outcomes of the exchanges, each with the place in the cycle it belongs to. -/
inductive Outcome (env : EnvVars) (s : State) : SyncStep → State → Prop
  | gaveUp {x : SyncStep} (failed : x.ok = false) : Outcome env s x (s.enter .idle)
  | connected (here : s.phase = .idle) :
      Outcome env s (.connect true) (s.enter (.connected s.nowSecs))
  | pulledRevocations {now : Nat} (here : s.phase = .connected now) :
      Outcome env s (.pullRevocations true) (s.enter (.revocationsPulled now s.revDelta))
  | pulledVersions {now : Nat} {revDelta : List (String × Int)}
      (here : s.phase = .revocationsPulled now revDelta) :
      Outcome env s (.pullVersions true) (s.enter (.fetching (s.openCycle now revDelta)))
  | fetched {c : Cycle} (here : s.phase = .fetching c) :
      Outcome env s (.fetchChunk true) (s.enter (.fetching (c.fetchChunk s.redis.strings)))
  | published {c : Cycle} (scannedKeys : Option (List String)) (here : s.phase = .fetching c)
      (complete : c.pending = []) :
      Outcome env s (.publish scannedKeys) (s.publish env c scannedKeys)
  | collected {now : Nat} (here : s.phase = .published now) :
      Outcome env s (.collect true) (s.collect now)

theorem syncStep_outcome {env : EnvVars} {s s' : State} {x : SyncStep}
    (h : syncStep env s x = some s') : Outcome env s x s' := by
  cases x with
  | connect ok =>
      cases hphase : s.phase with
      | idle =>
          simp only [syncStep, hphase, Option.some.injEq] at h
          subst h
          cases ok with
          | false => exact .gaveUp rfl
          | true => exact .connected hphase
      | _ => simp [syncStep, hphase] at h
  | pullRevocations ok =>
      cases hphase : s.phase with
      | connected now =>
          simp only [syncStep, hphase, Option.some.injEq] at h
          subst h
          cases ok with
          | false => exact .gaveUp rfl
          | true => exact .pulledRevocations hphase
      | _ => simp [syncStep, hphase] at h
  | pullVersions ok =>
      cases hphase : s.phase with
      | revocationsPulled now revDelta =>
          simp only [syncStep, hphase, Option.some.injEq] at h
          subst h
          cases ok with
          | false => exact .gaveUp rfl
          | true => exact .pulledVersions hphase
      | _ => simp [syncStep, hphase] at h
  | fetchChunk ok =>
      cases hphase : s.phase with
      | fetching c =>
          by_cases hpending : c.pending = []
          · simp [syncStep, hphase, hpending] at h
          simp only [syncStep, hphase, hpending, if_false, Option.some.injEq] at h
          subst h
          cases ok with
          | false => exact .gaveUp rfl
          | true => exact .fetched hphase
      | _ => simp [syncStep, hphase] at h
  | publish scannedKeys =>
      cases hphase : s.phase with
      | fetching c =>
          by_cases hpending : c.pending = []
          · simp only [syncStep, hphase, hpending, if_true, Option.some.injEq] at h
            subst h
            exact .published scannedKeys hphase hpending
          · simp [syncStep, hphase, hpending] at h
      | _ => simp [syncStep, hphase] at h
  | collect ok =>
      cases hphase : s.phase with
      | published now =>
          simp only [syncStep, hphase, Option.some.injEq] at h
          subst h
          cases ok with
          | false => exact .gaveUp rfl
          | true => exact .collected hphase
      | _ => simp [syncStep, hphase] at h

/-- The revocations a cycle has pulled and not yet published. -/
def Phase.reply : Phase → Option (List (String × Int))
  | .revocationsPulled _ revDelta => some revDelta
  | .fetching c => some c.revDelta
  | _ => none

/-- The clock reading the cycle works with. -/
def Phase.now : Phase → Option Nat
  | .idle => none
  | .connected now => some now
  | .revocationsPulled now _ => some now
  | .fetching c => some c.now
  | .published now => some now

/-- The part of the effect that every exchange but two has: the thread moves on within its cycle,
or gives the cycle up. -/
structure Moves (s : State) (phase : Phase) : Prop where
  reply : phase.reply = none ∨ phase.reply = s.phase.reply
  now : ∀ t, phase.now = some t → t = s.nowSecs ∨ s.phase.now = some t

theorem moves_idle (s : State) : Moves s .idle := ⟨Or.inl rfl, by simp [Phase.now]⟩

/-- As far as revocations are concerned, only a successful query, the publication and the collection do
more than move the thread. -/
theorem syncStep_cases {env : EnvVars} {s s' : State} {x : SyncStep}
    (h : syncStep env s x = some s') :
    (x = .pullRevocations true ∧ ∃ now, s.phase = .connected now ∧
      s' = s.enter (.revocationsPulled now s.revDelta)) ∨
    (∃ scannedKeys c, x = .publish scannedKeys ∧ s.phase = .fetching c ∧
      s' = s.publish env c scannedKeys) ∨
    (∃ now, x = .collect true ∧ s.phase = .published now ∧ s' = s.collect now) ∨
    (x ≠ .pullRevocations true ∧ (∀ scannedKeys, x ≠ .publish scannedKeys) ∧
      ∃ phase, Moves s phase ∧ s' = s.enter phase) := by
  cases syncStep_outcome h with
  | gaveUp failed =>
      refine Or.inr (Or.inr (Or.inr ⟨?_, ?_, .idle, moves_idle s, rfl⟩))
      · rintro rfl
        cases failed
      · rintro scannedKeys rfl
        cases failed
  | connected here =>
      refine Or.inr (Or.inr (Or.inr ⟨by simp, by simp, _, ⟨Or.inl rfl, fun t ht => Or.inl ?_⟩, rfl⟩))
      exact (Option.some.inj ht).symm
  | pulledRevocations here => exact Or.inl ⟨rfl, _, here, rfl⟩
  | pulledVersions here =>
      refine Or.inr (Or.inr (Or.inr ⟨by simp, by simp, _,
        ⟨Or.inr ?_, fun t ht => Or.inr ?_⟩, rfl⟩))
      · rw [here]
        rfl
      · rw [here]
        exact ht
  | fetched here =>
      refine Or.inr (Or.inr (Or.inr ⟨by simp, by simp, _,
        ⟨Or.inr ?_, fun t ht => Or.inr ?_⟩, rfl⟩))
      · rw [here]
        rfl
      · rw [here]
        exact ht
  | published scannedKeys here complete => exact Or.inr (Or.inl ⟨scannedKeys, _, rfl, here, rfl⟩)
  | collected here => exact Or.inr (Or.inr (Or.inl ⟨_, rfl, here, rfl⟩))

end Sync
end Revocation
end GatewayEdge
