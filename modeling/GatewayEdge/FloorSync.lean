import GatewayEdge.DeltaSync

/-!
# FloorSync — the version floors follow Redis

The index of version changes is scored by the time of the change.  A change whose score is not below
the scores published before it by more than the overlap is never out of reach of the next query: no
watermark is above what has been published.  So a user whose floor is out of date is asked about, and
the values fetched for him are those of a moment after the query.

Beside the worker runs the largest score published so far, and for each user the values that Redis has
held since the last query of the index.
-/

namespace GatewayEdge
namespace Revocation
namespace FloorSync

open Foundation
open Sync
open DeltaSync (commitScore_raise)

/-! ## The record of version changes -/

structure Audit where
  state : State
  /-- The largest score published so far. -/
  top : Option Int
  /-- What each user's key has held since the index was last queried. -/
  held : String → List (Option String)

def record (a : Audit) (s : State) : Event → Audit
  | .publication (.setVersion user value score) =>
    { state := s
      top := Watermark.raise a.top [(user, score)]
      held := Function.update a.held user (value :: a.held user) }
  | .sync (.pullVersions true) =>
    { a with state := s, held := fun user => [s.redis.strings (tvKey user)] }
  | _ => { a with state := s }

def auditStep (env : EnvVars) (a : Audit) (e : Event) : Option Audit :=
  (step env a.state e).map fun s => record a s e

/-- A worker that starts before the first version is published. -/
def start (nowMs : Millis) (revIndex : SortedSet String) : Audit where
  state := boot nowMs { revIndex := revIndex, tvIndex := ∅, strings := fun _ => none }
  top := none
  held := fun _ => [none]

/-- A version change is at most the overlap behind the changes before it. -/
def WithinSkew (a : Audit) : Event → Prop
  | .publication (.setVersion _ _ score) =>
    Watermark.AtLeast (Watermark.queryFrom (skewOverlapSecs * 1000) a.top) score
  | _ => True

instance (a : Audit) : ∀ e, Decidable (WithinSkew a e)
  | .publication (.setVersion _ _ _) => inferInstanceAs (Decidable (Watermark.AtLeast _ _))
  | .publication (.revoke _ _) => isTrue trivial
  | .publication (.prune _) => isTrue trivial
  | .tick _ => isTrue trivial
  | .sync _ => isTrue trivial

/-- The floor that a value of the key stands for. -/
def floorOf (value : Option String) : Option ℕ := value.bind (parseUnsigned 64)

/-- What a successful cycle publishes for a user, his key has held since the cycle's query. -/
def Converges (env : EnvVars) (a : Audit) (e : Event) : Prop :=
  ∀ scannedKeys a', e = .sync (.publish scannedKeys) → auditStep env a e = some a' →
    ∀ user, ∃ value ∈ a.held user, a'.state.snapshot.tvFloors user = floorOf value

/-! ## Who is up to date and who will be asked about -/

/-- The floor of the user as Redis has it now. -/
def current (s : State) (user : String) : Option ℕ := floorOf (s.redis.strings (tvKey user))

/-- The next query finds the user if it starts from this watermark. -/
def Asked (s : State) (watermark : Option Int) (user : String) : Prop :=
  ∃ score ∈ s.redis.tvIndex.lookup user,
    Watermark.AtLeast (Watermark.queryFrom (skewOverlapSecs * 1000) watermark) score

/-- The floor that the cycle is going to publish. -/
def planned (s : State) (c : Cycle) : String → Option ℕ :=
  rebuildFloors s.snapshot.tvFloors c.fetchedFloors

/-- What holds of a cycle that has queried the index. -/
structure InCycle (a : Audit) (c : Cycle) : Prop where
  maxLe : Watermark.Le c.maxTvScore a.top
  committed : commitScore a.state.lastTvScore c.maxTvScore = c.maxTvScore
  holds : ∀ user, a.state.redis.strings (tvKey user) ∈ a.held user
  upToDate : ∀ user, user ∈ c.pending ∨ planned a.state c user = current a.state user ∨
    Asked a.state c.maxTvScore user
  sinceQuery : ∀ user, user ∈ c.pending ∨
    ∃ value ∈ a.held user, planned a.state c user = floorOf value

def Phase.cycle : Phase → Option Cycle
  | .fetching c => some c
  | _ => none

structure Inv (a : Audit) : Prop where
  bounded : ∀ user score, a.state.redis.tvIndex.lookup user = some score →
    Watermark.Le (some score) a.top
  lastLe : Watermark.Le a.state.lastTvScore a.top
  upToDate : ∀ user, a.state.snapshot.tvFloors user = current a.state user ∨
    Asked a.state a.state.lastTvScore user
  inCycle : ∀ c, Phase.cycle a.state.phase = some c → InCycle a c

/-! ## The invariant is kept -/

theorem tvKey_injective : Function.Injective tvKey := fun _ _ h => String.append_right_inj _ |>.1 h

section Kept

variable {env : EnvVars} {a : Audit}

theorem inv_start (nowMs : Millis) (revIndex : SortedSet String) : Inv (start nowMs revIndex) where
  bounded := fun _ _ h => by cases h
  lastLe := Watermark.none_le _
  upToDate := fun _ => Or.inl rfl
  inCycle := fun _ h => by cases h

/-! ### What does not concern versions -/

/-- The part of the state that version floors depend on is the same, and no fetch has begun. -/
structure Aside (s s' : State) : Prop where
  tvIndex : s'.redis.tvIndex = s.redis.tvIndex
  strings : s'.redis.strings = s.redis.strings
  tvFloors : s'.snapshot.tvFloors = s.snapshot.tvFloors
  lastTvScore : s'.lastTvScore = s.lastTvScore
  cycle : ∀ c, Phase.cycle s'.phase = some c → Phase.cycle s.phase = some c

namespace Aside

variable {s s' : State} (h : Aside s s')
include h

theorem current (user : String) : current s' user = current s user := by
  rw [FloorSync.current, h.strings]
  rfl

theorem asked (watermark : Option Int) (user : String) :
    Asked s' watermark user ↔ Asked s watermark user := by
  rw [Asked, h.tvIndex]
  rfl

theorem planned (c : Cycle) : planned s' c = planned s c := by
  rw [FloorSync.planned, h.tvFloors]
  rfl

end Aside

theorem inv_aside {s : State} (h : Inv a) (haside : Aside a.state s) : Inv { a with state := s } where
  bounded := fun user score hlookup => h.bounded user score (haside.tvIndex ▸ hlookup)
  lastLe := haside.lastTvScore ▸ h.lastLe
  upToDate := fun user => by
    simpa [haside.tvFloors, haside.lastTvScore, haside.current, haside.asked] using h.upToDate user
  inCycle := fun c hc => by
    have hcycle := h.inCycle c (haside.cycle c hc)
    exact
      { maxLe := hcycle.maxLe
        committed := haside.lastTvScore ▸ hcycle.committed
        holds := fun user => haside.strings ▸ hcycle.holds user
        upToDate := fun user => by
          simpa [haside.planned, haside.current, haside.asked] using hcycle.upToDate user
        sinceQuery := fun user => by
          simpa [haside.planned] using hcycle.sinceQuery user }

/-! ### A version change -/

/-- The state after a version change. -/
def changed (s : State) (user : String) (value : Option String) (score : Int) : State :=
  { s with
    redis :=
      { s.redis with
        tvIndex := s.redis.tvIndex.insert user score
        strings := Function.update s.redis.strings (tvKey user) value } }

section Changed

variable {s : State} {user other : String} {value : Option String} {score : Int}

theorem strings_changed_of_ne (h : other ≠ user) :
    (changed s user value score).redis.strings (tvKey other) = s.redis.strings (tvKey other) :=
  Function.update_of_ne (fun hkey => h (tvKey_injective hkey)) _ _

theorem current_changed_of_ne (h : other ≠ user) :
    current (changed s user value score) other = current s other := by
  rw [current, strings_changed_of_ne h]
  rfl

theorem asked_changed_of_ne (h : other ≠ user) (watermark : Option Int) :
    Asked (changed s user value score) watermark other ↔ Asked s watermark other := by
  have hlookup : (changed s user value score).redis.tvIndex.lookup other =
      s.redis.tvIndex.lookup other := AList.lookup_insert_ne h
  rw [Asked, hlookup]
  rfl

/-- A user whose version has just changed is asked about, unless the watermark is past the overlap. -/
theorem asked_changed {watermark : Option Int}
    (h : Watermark.AtLeast (Watermark.queryFrom (skewOverlapSecs * 1000) watermark) score) :
    Asked (changed s user value score) watermark user :=
  ⟨score, AList.lookup_insert _, h⟩

end Changed

theorem inv_setVersion {user : String} {value : Option String} {score : Int} (h : Inv a)
    (hskew : Watermark.AtLeast (Watermark.queryFrom (skewOverlapSecs * 1000) a.top) score) :
    Inv
      { state := changed a.state user value score
        top := Watermark.raise a.top [(user, score)]
        held := Function.update a.held user (value :: a.held user) } := by
  -- No watermark of the worker is past what has been published.
  have hreached : ∀ watermark, Watermark.Le watermark a.top →
      Asked (changed a.state user value score) watermark user :=
    fun watermark hle => asked_changed (hle.queryFrom _ score hskew)
  have hraise : Watermark.Le a.top (Watermark.raise a.top [(user, score)]) := Watermark.le_raise _ _
  refine ⟨?_, h.lastLe.trans hraise, ?_, ?_⟩
  · intro other score' hlookup
    by_cases hother : other = user
    · subst hother
      have hscore : score = score' :=
        Option.some.inj ((AList.lookup_insert _).symm.trans hlookup)
      exact hscore ▸ Watermark.le_raise_single a.top (other, score)
    · have hold : a.state.redis.tvIndex.lookup other = some score' :=
        (AList.lookup_insert_ne hother).symm.trans hlookup
      exact (h.bounded other score' hold).trans hraise
  · intro other
    by_cases hother : other = user
    · subst hother
      exact Or.inr (hreached _ h.lastLe)
    · rw [current_changed_of_ne hother]
      exact (h.upToDate other).imp_right (asked_changed_of_ne hother _).2
  · intro c hc
    have hcycle : InCycle a c := h.inCycle c hc
    refine ⟨hcycle.maxLe.trans hraise, hcycle.committed, ?_, ?_, ?_⟩
    · intro other
      by_cases hother : other = user
      · subst hother
        simp [changed]
      · simpa [strings_changed_of_ne hother, hother] using hcycle.holds other
    · intro other
      by_cases hother : other = user
      · subst hother
        exact Or.inr (Or.inr (hreached _ hcycle.maxLe))
      · rw [current_changed_of_ne hother]
        exact (hcycle.upToDate other).imp_right (Or.imp_right (asked_changed_of_ne hother _).2)
    · intro other
      refine (hcycle.sinceQuery other).imp_right ?_
      rintro ⟨value', hheld, hplanned⟩
      refine ⟨value', ?_, hplanned⟩
      by_cases hother : other = user
      · subst hother
        simp [hheld]
      · simpa [hother] using hheld

/-! ### The steps of a cycle -/

/-- The query finds exactly the users who are asked about. -/
theorem mem_pending_openCycle {s : State} {now : ℕ} {revDelta : List (String × Int)} {user : String} :
    user ∈ (s.openCycle now revDelta).pending ↔ Asked s s.lastTvScore user := by
  constructor
  · intro h
    rcases List.mem_map.1 h with ⟨m, hm, rfl⟩
    rcases SortedSet.mem_rangeFrom.1 hm with ⟨hlookup, hreach⟩
    exact ⟨m.2, hlookup, hreach⟩
  · rintro ⟨score, hlookup, hreach⟩
    exact List.mem_map.2 ⟨(user, score), SortedSet.mem_rangeFrom.2 ⟨hlookup, hreach⟩, rfl⟩

/-- Whoever the query does not find has the floor that Redis has at this moment. -/
theorem inv_pullVersions (h : Inv a) (now : ℕ) (revDelta : List (String × Int)) :
    Inv
      { a with
        state := a.state.enter (.fetching (a.state.openCycle now revDelta))
        held := fun user => [a.state.redis.strings (tvKey user)] } := by
  have hplanned : ∀ user, user ∈ (a.state.openCycle now revDelta).pending ∨
      planned a.state (a.state.openCycle now revDelta) user = current a.state user := by
    intro user
    rcases h.upToDate user with hcurrent | hasked
    · exact Or.inr hcurrent
    · exact Or.inl (mem_pending_openCycle.2 hasked)
  refine ⟨h.bounded, h.lastLe, h.upToDate, fun c hc => ?_⟩
  cases hc
  refine ⟨?_, commitScore_raise _ _, fun user => List.mem_singleton.2 rfl, ?_, ?_⟩
  · exact Watermark.raise_le h.lastLe fun m hm =>
      h.bounded m.1 m.2 (SortedSet.mem_rangeFrom.1 hm).1
  · intro user
    exact (hplanned user).imp_right Or.inl
  · intro user
    exact (hplanned user).imp_right fun hcurrent => ⟨_, List.mem_singleton.2 rfl, hcurrent⟩

section Chunk

variable {s : State} {c : Cycle} {user : String}

/-- The replies of an `MGET` go to the users it asks for. -/
theorem chunk_zip (c : Cycle) (strings : String → Option String) :
    (c.pending.take mgetChunk).zip ((c.pending.take mgetChunk).map fun user => strings (tvKey user)) =
      (c.pending.take mgetChunk).map fun user => (user, strings (tvKey user)) :=
  List.map_prod_left_eq_zip.symm

theorem planned_fetchChunk_of_mem (h : user ∈ c.pending.take mgetChunk) :
    planned s (c.fetchChunk s.redis.strings) user = current s user := by
  have hsingle : SingleValued ((c.pending.take mgetChunk).map fun user =>
      (user, s.redis.strings (tvKey user))) := by
    intro m v w hv hw
    rcases List.mem_map.1 hv with ⟨_, _, rfl, rfl⟩
    rcases List.mem_map.1 hw with ⟨_, _, rfl, rfl⟩
    rfl
  have hfetched : (c.fetchChunk s.redis.strings).fetchedFloors user = some (current s user) := by
    unfold Cycle.fetchChunk
    dsimp only
    rw [chunk_zip]
    exact overwrite_of_mem hsingle (List.mem_map.2 ⟨user, h, rfl⟩) _
  simp [planned, rebuildFloors, hfetched]

theorem planned_fetchChunk_of_not_mem (h : user ∉ c.pending.take mgetChunk) :
    planned s (c.fetchChunk s.redis.strings) user = planned s c user := by
  have hfetched : (c.fetchChunk s.redis.strings).fetchedFloors user = c.fetchedFloors user := by
    unfold Cycle.fetchChunk
    dsimp only
    rw [chunk_zip]
    refine overwrite_of_not_mem (fun v hv => ?_) _
    rcases List.mem_map.1 hv with ⟨_, hmem, rfl, _⟩
    exact h hmem
  simp [planned, rebuildFloors, hfetched]

end Chunk

/-- What is fetched is what Redis has at this moment. -/
theorem inv_fetchChunk {c : Cycle} (h : Inv a) (hphase : a.state.phase = .fetching c) :
    Inv { a with state := a.state.enter (.fetching (c.fetchChunk a.state.redis.strings)) } := by
  have hcycle : InCycle a c := h.inCycle c (by rw [hphase]; rfl)
  have hsplit : ∀ user, user ∈ c.pending → user ∉ c.pending.take mgetChunk →
      user ∈ c.pending.drop mgetChunk := by
    intro user hpending hnot
    rw [← List.take_append_drop mgetChunk c.pending] at hpending
    exact (List.mem_append.1 hpending).resolve_left hnot
  refine ⟨h.bounded, h.lastLe, h.upToDate, fun c' hc' => ?_⟩
  cases hc'
  refine ⟨hcycle.maxLe, hcycle.committed, hcycle.holds, fun user => ?_, fun user => ?_⟩
  · by_cases hchunk : user ∈ c.pending.take mgetChunk
    · exact Or.inr (Or.inl (planned_fetchChunk_of_mem hchunk))
    · rcases hcycle.upToDate user with hpending | hrest
      · exact Or.inl (hsplit user hpending hchunk)
      · exact Or.inr (hrest.imp_left (planned_fetchChunk_of_not_mem hchunk).trans)
  · by_cases hchunk : user ∈ c.pending.take mgetChunk
    · exact Or.inr ⟨_, hcycle.holds user, planned_fetchChunk_of_mem hchunk⟩
    · rcases hcycle.sinceQuery user with hpending | ⟨value, hheld, hplanned⟩
      · exact Or.inl (hsplit user hpending hchunk)
      · exact Or.inr ⟨value, hheld, (planned_fetchChunk_of_not_mem hchunk).trans hplanned⟩

theorem inv_publish {c : Cycle} (h : Inv a) (hphase : a.state.phase = .fetching c)
    (hpending : c.pending = []) (scannedKeys : Option (List String)) :
    Inv { a with state := a.state.publish env c scannedKeys } := by
  have hcycle : InCycle a c := h.inCycle c (by rw [hphase]; rfl)
  have hlast : (a.state.publish env c scannedKeys).lastTvScore = c.maxTvScore := hcycle.committed
  refine ⟨h.bounded, hlast ▸ hcycle.maxLe, fun user => ?_, fun c' hc' => by cases hc'⟩
  rw [hlast]
  exact (hcycle.upToDate user).resolve_left (by simp [hpending])

/-! ### The exchanges -/

/-- Where a cycle ends, or has not queried the versions yet, none is under way. -/
theorem aside_enter {s : State} {phase : Phase} (h : Phase.cycle phase = none) :
    Aside s (s.enter phase) :=
  ⟨rfl, rfl, rfl, rfl, fun c hc => by rw [State.enter, h] at hc; cases hc⟩

/-- A failed exchange queries nothing and publishes nothing. -/
theorem record_of_not_ok {x : SyncStep} {s : State} (h : x.ok = false) :
    record a s (.sync x) = { a with state := s } := by
  cases x with
  | pullVersions ok =>
      cases ok with
      | true => cases h
      | false => rfl
  | _ => rfl

theorem inv_sync {x : SyncStep} {s : State} (h : Inv a) (hs : syncStep env a.state x = some s) :
    Inv (record a s (.sync x)) := by
  cases syncStep_outcome hs with
  | gaveUp failed =>
      rw [record_of_not_ok failed]
      exact inv_aside h (aside_enter rfl)
  | connected _ => exact inv_aside h (aside_enter rfl)
  | pulledRevocations _ => exact inv_aside h (aside_enter rfl)
  | pulledVersions _ => exact inv_pullVersions h _ _
  | fetched here => exact inv_fetchChunk h here
  | published scannedKeys here complete => exact inv_publish h here complete scannedKeys
  | collected _ => exact inv_aside h ⟨rfl, rfl, rfl, rfl, fun c hc => by cases hc⟩

theorem inv_publication {e : Publication} {redis : Redis} (h : Inv a)
    (hskew : WithinSkew a (.publication e))
    (haccept : a.state.redis.accept a.state.nowSecs e = some redis) :
    Inv (record a { a.state with redis := redis } (.publication e)) := by
  cases e with
  | revoke key expiry =>
      cases haccept
      exact inv_aside h ⟨rfl, rfl, rfl, rfl, fun c hc => hc⟩
  | prune key =>
      rcases accept_prune haccept with ⟨_, _, _, rfl⟩
      exact inv_aside h ⟨rfl, rfl, rfl, rfl, fun c hc => hc⟩
  | setVersion user value score =>
      cases haccept
      exact inv_setVersion h hskew

theorem inv_auditStep {e : Event} {a' : Audit} (h : Inv a) (hskew : WithinSkew a e)
    (hstep : auditStep env a e = some a') : Inv a' := by
  rcases Option.map_eq_some_iff.1 hstep with ⟨s, hs, rfl⟩
  cases e with
  | tick nowMs =>
      rcases step_tick hs with ⟨_, rfl⟩
      exact inv_aside h ⟨rfl, rfl, rfl, rfl, fun c hc => hc⟩
  | publication e =>
      rcases Option.map_eq_some_iff.1 hs with ⟨redis, haccept, rfl⟩
      exact inv_publication h hskew haccept
  | sync x => exact inv_sync h hs

/-- A cycle that succeeds has fetched every user it had to ask about. -/
theorem converges_of_inv {e : Event} (h : Inv a) : Converges env a e := by
  rintro scannedKeys a' rfl hstep user
  rcases Option.map_eq_some_iff.1 hstep with ⟨s, hs, rfl⟩
  have hsync : syncStep env a.state (.publish scannedKeys) = some s := hs
  cases syncStep_outcome hsync with
  | gaveUp failed => cases failed
  | published _ here complete =>
      have hcycle := h.inCycle _ (by rw [here]; rfl)
      exact (hcycle.sinceQuery user).resolve_left (by simp [complete])

end Kept

/-! ## Whole runs -/

/-- In every run in which version changes stay within the overlap, whatever the order of exchanges,
failures and changes, each successful cycle publishes for every user a floor that Redis has held since
the cycle's query. -/
theorem floors_converge (env : EnvVars) (nowMs : Millis) (revIndex : SortedSet String) {es : List Event}
    (h : Along (auditStep env) WithinSkew (start nowMs revIndex) es) :
    Along (auditStep env) (Converges env) (start nowMs revIndex) es :=
  along_mono (fun _ _ _ hinv hskew hstep => inv_auditStep hinv hskew hstep)
    (fun _ _ hinv _ => converges_of_inv hinv) (inv_start nowMs revIndex) h

/-- A version is published, and between the query and the fetch of the first cycle another one, with a
score just inside the overlap. -/
def lateChange : List Event :=
  [.publication (.setVersion "u" (some "7") 1000000), .sync (.connect true),
    .sync (.pullRevocations true), .sync (.pullVersions true),
    .publication (.setVersion "u" (some "8") 940000), .sync (.fetchChunk true), .sync (.publish none)]

theorem late_change_converges :
    Along (auditStep fun _ => none) (Converges fun _ => none) (start 1000000 ∅) lateChange ∧
      (run (auditStep fun _ => none) (start 1000000 ∅) lateChange).map
        (fun a => a.state.snapshot.tvFloors "u") = some (some 8) := by
  refine ⟨floors_converge _ _ _ ?_, ?_⟩
  · decide
  · decide

end FloorSync
end Revocation
end GatewayEdge
