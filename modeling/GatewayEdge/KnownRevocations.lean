import GatewayEdge.DeltaSync

/-!
# KnownRevocations — what a worker has learned of a revocation, and for how long it keeps it

Each cycle rebuilds the revoked keys from the last snapshot, from the index and, with the fallback on,
from a scan.  The index gives the expiry of a key.  A scan cannot, so its keys get six sync intervals,
and it has the last word: a key of which the index has told a later expiry is shortened to that.  It is
not seen again in the index, which is only asked for what lies near the watermark, and when a later
scan does not report it either, its token is accepted again.

Beside the worker runs what the index has last said of each key, and what a published snapshot has had
from it.  Between two steps of the worker Redis may change in any way.
-/

namespace GatewayEdge
namespace Revocation
namespace KnownRevocations

open Foundation
open Sync
open DeltaSync (inFlight inFlight_of_none asU64_mono lt_asU64 rebuildRevoked_of_mem
  rebuildRevoked_of_not_mem)

/-! ## The worker and what it has learned -/

structure Trail where
  state : State
  /-- The last score of each key that has been in the index. -/
  scored : String → Option Int
  /-- The expiry each key had, from the index, in a published snapshot. -/
  known : String → Option Int

/-- What a new snapshot has from the index is known from now on. -/
def learn (known : String → Option Int) (revDelta : List (String × Int)) (snap : RevocationSnapshot) :
    String → Option Int := fun key =>
  match revDelta.find? fun m => m.1 = key with
  | some m => if snap.revoked key = some (asU64 m.2) then some m.2 else known key
  | none => known key

inductive Event
  | tick (nowMs : Millis)
  /-- Anything that happens to Redis. -/
  | redis (redis : Redis)
  | sync (x : SyncStep)

def trailStep (env : EnvVars) (a : Trail) : Event → Option Trail
  | .tick nowMs =>
    if a.state.nowMs ≤ nowMs then some { a with state := { a.state with nowMs := nowMs } } else none
  | .redis redis =>
    some
      { a with
        state := { a.state with redis := redis }
        scored := fun key => (redis.revIndex.lookup key).or (a.scored key) }
  | .sync (.publish scannedKeys) =>
    (syncStep env a.state (.publish scannedKeys)).map fun s =>
      { a with state := s, known := learn a.known (inFlight a.state) s.snapshot }
  | .sync x => (syncStep env a.state x).map fun s => { a with state := s }

def start (nowMs : Millis) (redis : Redis) : Trail where
  state := boot nowMs redis
  scored := fun key => redis.revIndex.lookup key
  known := fun _ => none

/-! ## The promise and its conditions -/

section Key

variable (key : String)

/-- What is known of the key is enforced until it expires. -/
def Persists (a : Trail) : Prop :=
  ∀ expiry, a.known key = some expiry → (a.state.nowSecs : Int) < expiry →
    ∀ jti tokenHashHex, Names jti tokenHashHex key →
      isRevoked a.state.snapshot a.state.nowSecs jti tokenHashHex = true

/-- The key does not come back into the index, or stay there, with a lower score. -/
def NeverLowers (a : Trail) : Event → Prop
  | .redis redis => ∀ old ∈ a.scored key, ∀ new ∈ redis.revIndex.lookup key, old ≤ new
  | _ => True

/-- A scan that takes effect does not report the key while it is known to be revoked for longer than
the six intervals that the scan stands for. -/
def NoShortScan (env : EnvVars) (a : Trail) : Event → Prop
  | .sync (.publish (some keys)) =>
    scanFallbackEnabled env = true → key ∈ keys → ∀ now ∈ a.state.phase.now, ∀ expiry ∈ a.known key,
      (a.state.nowSecs : Int) < expiry → expiry ≤ (now + syncIntervalSecs env * 6 : ℕ)
  | _ => True

instance (a : Trail) : ∀ e, Decidable (NeverLowers key a e)
  | .redis _ => inferInstanceAs (Decidable (∀ old ∈ a.scored key, _))
  | .tick _ => isTrue trivial
  | .sync _ => isTrue trivial

instance (env : EnvVars) (a : Trail) : ∀ e, Decidable (NoShortScan key env a e)
  | .sync (.publish (some _)) => inferInstanceAs (Decidable (_ → _))
  | .sync (.publish none) => isTrue trivial
  | .sync (.connect _) => isTrue trivial
  | .sync (.pullRevocations _) => isTrue trivial
  | .sync (.pullVersions _) => isTrue trivial
  | .sync (.fetchChunk _) => isTrue trivial
  | .sync (.collect _) => isTrue trivial
  | .tick _ => isTrue trivial
  | .redis _ => isTrue trivial

structure Inv (a : Trail) : Prop where
  indexed : ∀ score, a.state.redis.revIndex.lookup key = some score → a.scored key = some score
  pulled : ∀ score, (key, score) ∈ inFlight a.state → ∃ top ∈ a.scored key, score ≤ top
  learned : ∀ expiry, a.known key = some expiry → ∃ top ∈ a.scored key, expiry ≤ top
  /-- What is in flight has been asked for after what is known. -/
  ordered : ∀ expiry score, a.known key = some expiry → (key, score) ∈ inFlight a.state →
    expiry ≤ score
  kept : ∀ expiry, a.known key = some expiry → (a.state.nowSecs : Int) < expiry →
    ∃ n, a.state.snapshot.revoked key = some n ∧ asU64 expiry ≤ n
  singleValued : SingleValued (inFlight a.state)
  started : ∀ t, a.state.phase.now = some t → t ≤ a.state.nowSecs

end Key

/-- What the snapshot keeps until it expires is enforced. -/
theorem persists_of_inv {key : String} {a : Trail} (h : Inv key a) : Persists key a := by
  intro expiry hknown hfuture jti tokenHashHex hnames
  rcases h.kept expiry hknown hfuture with ⟨n, hn, hle⟩
  have hlt : a.state.nowSecs < n := lt_of_lt_of_le (lt_asU64 a.state hfuture) hle
  exact isRevoked_iff.2 ⟨key, hnames, by simpa [RevocationSnapshot.listed, hn] using hlt⟩

/-! ## Rebuilding the revoked keys -/

section Rebuild

variable {env : EnvVars} {now : ℕ} {prev : String → Option ℕ} {revDelta : List (String × Int)}
  {key : String} {expiry : Int}

theorem learn_eq_some {known : String → Option Int} {snap : RevocationSnapshot}
    (h : learn known revDelta snap key = some expiry) :
    known key = some expiry ∨
      ((key, expiry) ∈ revDelta ∧ snap.revoked key = some (asU64 expiry)) := by
  unfold learn at h
  cases hfind : revDelta.find? fun m => m.1 = key with
  | none =>
      rw [hfind] at h
      exact Or.inl h
  | some m =>
      have hmem : m ∈ revDelta := List.mem_of_find?_eq_some hfind
      have hkey : m.1 = key := by simpa using List.find?_some hfind
      simp only [hfind] at h
      split at h
      · rename_i hrevoked
        cases h
        exact Or.inr ⟨hkey ▸ hmem, hrevoked⟩
      · exact Or.inl h

/-- A scanned key gets six intervals, whatever was there before. -/
theorem rebuildRevoked_of_scanned {keys : List String} (h : key ∈ keys) :
    rebuildRevoked env now prev revDelta (some keys) key = some (now + syncIntervalSecs env * 6) := by
  have hsame : SingleValued (keys.map fun key => (key, now + syncIntervalSecs env * 6)) := by
    intro m v w hv hw
    rcases List.mem_map.1 hv with ⟨_, _, hpair⟩
    rcases List.mem_map.1 hw with ⟨_, _, hpair'⟩
    exact (Prod.mk.inj hpair).2.symm.trans (Prod.mk.inj hpair').2
  exact overwrite_of_mem hsame (List.mem_map.2 ⟨key, h, rfl⟩) _

/-- A key that no scan reports is what the last snapshot and the index say. -/
theorem rebuildRevoked_of_not_scanned {scannedKeys : Option (List String)}
    (h : ∀ keys ∈ scannedKeys, key ∉ keys) :
    rebuildRevoked env now prev revDelta scannedKeys key =
      rebuildRevoked env now prev revDelta none key := by
  cases scannedKeys with
  | none => rfl
  | some keys =>
      refine overwrite_of_not_mem (fun v hv => ?_) _
      rcases List.mem_map.1 hv with ⟨key', hmem, hpair⟩
      exact h keys rfl ((Prod.mk.inj hpair).1 ▸ hmem)

/-- A rebuilt snapshot keeps a key as long as the last one did, unless the index or a scan shortens
it. -/
theorem rebuildRevoked_keeps {n : ℕ} {scannedKeys : Option (List String)}
    (hsingle : SingleValued revDelta) (hprev : prev key = some n) (hle : asU64 expiry ≤ n)
    (hlive : now < n) (hdelta : ∀ score, (key, score) ∈ revDelta → expiry ≤ score)
    (hscan : ∀ keys ∈ scannedKeys, key ∈ keys → asU64 expiry ≤ now + syncIntervalSecs env * 6) :
    ∃ n', rebuildRevoked env now prev revDelta scannedKeys key = some n' ∧ asU64 expiry ≤ n' := by
  by_cases hscanned : ∃ keys ∈ scannedKeys, key ∈ keys
  · rcases hscanned with ⟨keys, hkeys, hmem⟩
    refine ⟨_, ?_, hscan keys hkeys hmem⟩
    rw [Option.mem_def.1 hkeys]
    exact rebuildRevoked_of_scanned hmem
  · rw [rebuildRevoked_of_not_scanned fun keys hkeys hmem => hscanned ⟨keys, hkeys, hmem⟩]
    by_cases hpulled : ∃ score, (key, score) ∈ revDelta
    · rcases hpulled with ⟨score, hscore⟩
      exact ⟨_, rebuildRevoked_of_mem hsingle hscore, asU64_mono (hdelta score hscore)⟩
    · have habsent : ∀ score, (key, score) ∉ revDelta := fun score hscore => hpulled ⟨score, hscore⟩
      exact ⟨n, rebuildRevoked_of_not_mem habsent hprev hlive, hle⟩

end Rebuild

/-! ## The invariant is kept -/

section Kept

variable {key : String} {env : EnvVars} {a : Trail}

theorem inv_start (nowMs : Millis) (redis : Redis) : Inv key (start nowMs redis) where
  indexed := fun _ h => h
  pulled := fun _ h => by cases h
  learned := fun _ h => by cases h
  ordered := fun _ _ h => by cases h
  kept := fun _ h => by cases h
  singleValued := fun _ _ _ h => by cases h
  started := fun _ h => by cases h

theorem inv_tick {nowMs : Millis} (h : Inv key a) (hle : a.state.nowMs ≤ nowMs) :
    Inv key { a with state := { a.state with nowMs := nowMs } } := by
  have hsecs : a.state.nowSecs ≤ ({ a.state with nowMs := nowMs } : State).nowSecs :=
    Nat.div_le_div_right hle
  refine
    { indexed := h.indexed
      pulled := h.pulled
      learned := h.learned
      ordered := h.ordered
      kept := fun expiry hknown hfuture => h.kept expiry hknown ?_
      singleValued := h.singleValued
      started := fun t ht => (h.started t ht).trans hsecs }
  exact lt_of_le_of_lt (Int.ofNat_le.2 hsecs) hfuture

/-- The highest score of the key only rises. -/
theorem scored_redis {redis : Redis} (hnever : NeverLowers key a (.redis redis)) {top : Int}
    (htop : top ∈ a.scored key) :
    ∃ top' ∈ (redis.revIndex.lookup key).or (a.scored key), top ≤ top' := by
  cases hlookup : redis.revIndex.lookup key with
  | none => exact ⟨top, by simpa using htop, le_rfl⟩
  | some new => exact ⟨new, by simp, hnever top htop new hlookup⟩

theorem inv_redis {redis : Redis} (h : Inv key a) (hnever : NeverLowers key a (.redis redis)) :
    Inv key
      { a with
        state := { a.state with redis := redis }
        scored := fun key => (redis.revIndex.lookup key).or (a.scored key) } := by
  refine
    { indexed := fun score hlookup => ?_
      pulled := fun score hmem => ?_
      learned := fun expiry hknown => ?_
      ordered := h.ordered
      kept := h.kept
      singleValued := h.singleValued
      started := h.started }
  · have hindex : redis.revIndex.lookup key = some score := hlookup
    simp [hindex]
  · rcases h.pulled score hmem with ⟨top, htop, hle⟩
    rcases scored_redis hnever htop with ⟨top', htop', hle'⟩
    exact ⟨top', htop', hle.trans hle'⟩
  · rcases h.learned expiry hknown with ⟨top, htop, hle⟩
    rcases scored_redis hnever htop with ⟨top', htop', hle'⟩
    exact ⟨top', htop', hle.trans hle'⟩

/-- What is in flight after the thread has moved on within its cycle, or given it up. -/
theorem mem_inFlight_enter {s : State} {phase : Phase} (hmove : Moves s phase) {m : String × Int}
    (hm : m ∈ inFlight (s.enter phase)) : m ∈ inFlight s := by
  rcases hmove.reply with hnone | hsame
  · rw [inFlight_of_none hnone] at hm
    cases hm
  · simpa [inFlight, State.enter, hsame] using hm

theorem inv_moves {phase : Phase} (h : Inv key a) (hmove : Moves a.state phase) :
    Inv key { a with state := a.state.enter phase } where
  indexed := h.indexed
  pulled := fun score hm => h.pulled score (mem_inFlight_enter hmove hm)
  learned := h.learned
  ordered := fun expiry score hknown hm =>
    h.ordered expiry score hknown (mem_inFlight_enter hmove hm)
  kept := h.kept
  singleValued := fun m v w hv hw =>
    h.singleValued m v w (mem_inFlight_enter hmove hv) (mem_inFlight_enter hmove hw)
  started := fun t ht => by
    rcases hmove.now t ht with hnow | hold
    · exact le_of_eq hnow
    · exact h.started t hold

/-- The index says at least what is known of the key. -/
theorem inv_pullRevocations {now : ℕ} (h : Inv key a) (hphase : a.state.phase = .connected now) :
    Inv key
      { a with
        state := a.state.enter (.revocationsPulled now (SortedSet.rangeFrom
          (Watermark.queryFrom skewOverlapSecs a.state.lastRevScore) a.state.redis.revIndex)) } := by
  generalize hreply : SortedSet.rangeFrom
    (Watermark.queryFrom skewOverlapSecs a.state.lastRevScore) a.state.redis.revIndex = reply
  have hscored : ∀ score, (key, score) ∈ reply → a.scored key = some score :=
    fun score hm => h.indexed score (SortedSet.mem_rangeFrom.1 (hreply ▸ hm)).1
  refine
    { indexed := h.indexed
      pulled := fun score hm => ⟨score, hscored score hm, le_rfl⟩
      learned := h.learned
      ordered := fun expiry score hknown hm => ?_
      kept := h.kept
      singleValued := hreply ▸ SortedSet.rangeFrom_singleValued _ _
      started := fun t ht => h.started t (by rw [hphase]; exact ht) }
  rcases h.learned expiry hknown with ⟨top, htop, hle⟩
  have hsame : top = score := Option.some.inj (htop.symm.trans (hscored score hm))
  exact hsame ▸ hle

theorem inv_publish {c : Cycle} {scannedKeys : Option (List String)} (h : Inv key a)
    (hphase : a.state.phase = .fetching c)
    (hscan : NoShortScan key env a (.sync (.publish scannedKeys))) :
    Inv key
      { a with
        state := a.state.publish env c scannedKeys
        known := learn a.known (inFlight a.state)
          (a.state.publish env c scannedKeys).snapshot } := by
  have hdelta : inFlight a.state = c.revDelta := by
    simp [inFlight, hphase, Phase.reply]
  have hnow : a.state.phase.now = some c.now := by
    rw [hphase]
    rfl
  have hnothing : inFlight (a.state.publish env c scannedKeys) = [] := rfl
  refine
    { indexed := h.indexed
      pulled := fun score hm => ?_
      learned := fun expiry hknown => ?_
      ordered := fun expiry score _ hm => ?_
      kept := fun expiry hknown hfuture => ?_
      singleValued := fun m v w hv => ?_
      started := fun t ht => ?_ }
  · rw [hnothing] at hm
    cases hm
  · rcases learn_eq_some hknown with hold | ⟨hmem, _⟩
    · exact h.learned expiry hold
    · exact h.pulled expiry hmem
  · rw [hnothing] at hm
    cases hm
  · rcases learn_eq_some hknown with hold | ⟨_, hrevoked⟩
    · rcases h.kept expiry hold hfuture with ⟨n, hn, hle⟩
      have hlive : c.now < n := by
        have hstarted := h.started c.now hnow
        have hlt := lt_asU64 a.state hfuture
        omega
      refine rebuildRevoked_keeps (hdelta ▸ h.singleValued) hn hle hlive
        (fun score hm => h.ordered expiry score hold (hdelta ▸ hm)) fun keys hkeys hmem => ?_
      -- The scan has taken effect, so the fallback is on.
      by_cases hon : scanFallbackEnabled env = true
      · rw [if_pos hon] at hkeys
        rw [Option.mem_def.1 hkeys] at hscan
        have hlong := hscan hon hmem c.now hnow expiry hold hfuture
        unfold asU64
        omega
      · rw [if_neg hon] at hkeys
        cases hkeys
    · exact ⟨_, hrevoked, le_rfl⟩
  · rw [hnothing] at hv
    cases hv
  · have ht' : c.now = t := Option.some.inj ht
    exact ht' ▸ h.started c.now hnow

/-- The collection takes members out of the index and adds none. -/
theorem inv_collect (h : Inv key a) (now : ℕ) : Inv key { a with state := a.state.collect now } := by
  have hidle := inv_moves h (moves_idle a.state)
  exact
    { indexed := fun score hlookup =>
        h.indexed score (SortedSet.lookup_removeUpTo.1 hlookup).1
      pulled := hidle.pulled
      learned := hidle.learned
      ordered := hidle.ordered
      kept := hidle.kept
      singleValued := hidle.singleValued
      started := hidle.started }

theorem trailStep_tick {nowMs : Millis} {a' : Trail} (h : trailStep env a (.tick nowMs) = some a') :
    a.state.nowMs ≤ nowMs ∧ a' = { a with state := { a.state with nowMs := nowMs } } := by
  by_cases hle : a.state.nowMs ≤ nowMs
  · exact ⟨hle, by simpa [trailStep, hle] using h.symm⟩
  · simp [trailStep, hle] at h

/-- The steps that publish nothing teach the worker nothing. -/
theorem trailStep_of_not_publish {x : SyncStep} (hx : ∀ scannedKeys, x ≠ .publish scannedKeys) :
    trailStep env a (.sync x) = (syncStep env a.state x).map fun s => { a with state := s } := by
  cases x with
  | publish scannedKeys => exact absurd rfl (hx scannedKeys)
  | _ => rfl

theorem inv_sync {x : SyncStep} {a' : Trail} (h : Inv key a) (hscan : NoShortScan key env a (.sync x))
    (hstep : trailStep env a (.sync x) = some a') : Inv key a' := by
  by_cases hpublish : ∃ scannedKeys, x = .publish scannedKeys
  · rcases hpublish with ⟨scannedKeys, rfl⟩
    rcases Option.map_eq_some_iff.1 hstep with ⟨s, hs, rfl⟩
    rcases syncStep_cases hs with ⟨hx, _⟩ | ⟨scannedKeys', c, hx, hphase, rfl⟩ | ⟨_, hx, _⟩ |
      ⟨_, hx, _⟩
    · cases hx
    · cases hx
      exact inv_publish h hphase hscan
    · cases hx
    · exact absurd rfl (hx scannedKeys)
  · have hx : ∀ scannedKeys, x ≠ .publish scannedKeys :=
      fun scannedKeys hx => hpublish ⟨scannedKeys, hx⟩
    rw [trailStep_of_not_publish hx] at hstep
    rcases Option.map_eq_some_iff.1 hstep with ⟨s, hs, rfl⟩
    rcases syncStep_cases hs with ⟨_, now, hphase, rfl⟩ | ⟨scannedKeys, _, hx', _⟩ |
      ⟨now, _, _, rfl⟩ | ⟨_, _, phase, hmove, rfl⟩
    · exact inv_pullRevocations h hphase
    · exact absurd hx' (hx scannedKeys)
    · exact inv_collect h now
    · exact inv_moves h hmove

theorem inv_trailStep {e : Event} {a' : Trail} (h : Inv key a)
    (hlaw : NeverLowers key a e ∧ NoShortScan key env a e) (hstep : trailStep env a e = some a') :
    Inv key a' := by
  cases e with
  | tick nowMs =>
      rcases trailStep_tick hstep with ⟨hle, rfl⟩
      exact inv_tick h hle
  | redis redis =>
      cases hstep
      exact inv_redis h hlaw.1
  | sync x => exact inv_sync h hlaw.2 hstep

end Kept

/-! ## Cycles that fail -/

/-- The snapshot and both watermarks are those of `s`. -/
def SameView (s t : State) : Prop :=
  t.snapshot = s.snapshot ∧ t.lastRevScore = s.lastRevScore ∧ t.lastTvScore = s.lastTvScore

/-- The publication is the only step that touches what the worker has to show for its cycles. -/
theorem sameView_of_step {env : EnvVars} {a a' : Trail} {e : Event}
    (he : ∀ scannedKeys, e ≠ .sync (.publish scannedKeys)) (hstep : trailStep env a e = some a') :
    SameView a.state a'.state := by
  cases e with
  | tick nowMs =>
      rcases trailStep_tick hstep with ⟨_, rfl⟩
      exact ⟨rfl, rfl, rfl⟩
  | redis redis =>
      cases hstep
      exact ⟨rfl, rfl, rfl⟩
  | sync x =>
      have hx : ∀ scannedKeys, x ≠ .publish scannedKeys :=
        fun scannedKeys hx => he scannedKeys (congrArg Event.sync hx)
      rw [trailStep_of_not_publish hx] at hstep
      rcases Option.map_eq_some_iff.1 hstep with ⟨s, hs, rfl⟩
      rcases syncStep_cases hs with ⟨_, _, _, rfl⟩ | ⟨scannedKeys, _, hx', _⟩ | ⟨_, _, _, rfl⟩ |
        ⟨_, _, _, _, rfl⟩
      · exact ⟨rfl, rfl, rfl⟩
      · exact absurd hx' (hx scannedKeys)
      · exact ⟨rfl, rfl, rfl⟩
      · exact ⟨rfl, rfl, rfl⟩

/-- So a stretch of a run without one, a cycle that fails at any point among them, leaves the snapshot
and the watermarks alone. -/
theorem sameView_of_run {env : EnvVars} {a b : Trail} {fs : List Event}
    (hfs : ∀ e ∈ fs, ∀ scannedKeys, e ≠ .sync (.publish scannedKeys))
    (hrun : run (trailStep env) a fs = some b) : SameView a.state b.state := by
  have hquiet : Along (trailStep env)
      (fun _ e => ∀ scannedKeys, e ≠ .sync (.publish scannedKeys)) a fs :=
    along_of_forall hfs a
  refine invariant_run_along (I := fun m => SameView a.state m.state) (fun m e m' hm he hstep => ?_)
    ⟨rfl, rfl, rfl⟩ hquiet hrun
  have hnext := sameView_of_step he hstep
  exact ⟨hnext.1.trans hm.1, hnext.2.1.trans hm.2.1, hnext.2.2.trans hm.2.2⟩

/-! ## Whole runs -/

/-- As long as the index does not lower the score of a key and no scan falls short of what is known of
it, what is known of the key is enforced until it expires; and a cycle that fails changes nothing. -/
theorem known_persist (env : EnvVars) (nowMs : Millis) (redis : Redis) (key : String) {es : List Event}
    {a : Trail} (hindex : Along (trailStep env) (NeverLowers key) (start nowMs redis) es)
    (hscan : Along (trailStep env) (NoShortScan key env) (start nowMs redis) es)
    (hrun : run (trailStep env) (start nowMs redis) es = some a) :
    Persists key a ∧
      ∀ fs b, (∀ e ∈ fs, ∀ scannedKeys, e ≠ .sync (.publish scannedKeys)) →
        run (trailStep env) a fs = some b → SameView a.state b.state := by
  refine ⟨persists_of_inv ?_, fun fs b hfs hrun' => sameView_of_run hfs hrun'⟩
  exact invariant_run_along (fun _ _ _ h hlaw hstep => inv_trailStep h hlaw hstep)
    (inv_start nowMs redis) (hindex.and hscan) hrun

def scanEnv : EnvVars := fun name => if name = "AUTH_SNAPSHOT_SCAN_FALLBACK" then some "1" else none

/-- Two revoked tokens; `ending` is when the first one expires. -/
def twoRevoked (ending : Int) : Redis where
  revIndex := (AList.insert (jtiKey "b") 100000 ∅).insert (jtiKey "a") ending
  tvIndex := ∅
  strings := fun _ => none

/-- A successful cycle at the given second. -/
def cycleAt (secs : ℕ) (scannedKeys : Option (List String)) : List Event :=
  [.tick (Fin.ofNat (2 ^ 64) (secs * 1000)), .sync (.connect true), .sync (.pullRevocations true),
    .sync (.pullVersions true), .sync (.publish scannedKeys), .sync (.collect true)]

/-- The first cycle learns both expiries, the second one scans, and in those after it, every five
seconds, no scan comes through. -/
def oneScan (keys : List String) (cycles : ℕ) : List Event :=
  cycleAt 1000 none ++ cycleAt 1005 (some keys) ++
    (List.range cycles).flatMap fun k => cycleAt (1010 + 5 * k) none

/-- A scan that reports a token with no more than its six intervals left does not shorten it. -/
theorem scanned_token_persists :
    ∃ a, run (trailStep scanEnv) (start 1000000 (twoRevoked 1034)) (oneScan [jtiKey "a"] 5) = some a ∧
      (a.known (jtiKey "a"), a.state.nowSecs) = (some 1034, 1030) ∧
        Persists (jtiKey "a") a := by
  have hvalues : (run (trailStep scanEnv) (start 1000000 (twoRevoked 1034))
      (oneScan [jtiKey "a"] 5)).map (fun a => (a.known (jtiKey "a"), a.state.nowSecs)) =
        some (some 1034, 1030) := by
    decide
  have hindex : Along (trailStep scanEnv) (NeverLowers (jtiKey "a")) (start 1000000 (twoRevoked 1034))
      (oneScan [jtiKey "a"] 5) := by
    decide
  have hscan : Along (trailStep scanEnv) (NoShortScan (jtiKey "a") scanEnv) 
      (start 1000000 (twoRevoked 1034)) (oneScan [jtiKey "a"] 5) := by
    decide
  rcases Option.map_eq_some_iff.1 hvalues with ⟨a, hrun, hvalue⟩
  have hpersist := known_persist scanEnv 1000000 (twoRevoked 1034) (jtiKey "a") hindex hscan hrun
  exact ⟨a, hrun, hvalue, hpersist.1⟩

/-- A token that is revoked for longer is accepted again half a minute after the scan. -/
theorem scanned_token_forgotten :
    ∃ a, Along (trailStep scanEnv) (NeverLowers (jtiKey "a")) (start 1000000 (twoRevoked 5000))
        (oneScan [jtiKey "a", jtiKey "b"] 6) ∧
      run (trailStep scanEnv) (start 1000000 (twoRevoked 5000))
        (oneScan [jtiKey "a", jtiKey "b"] 6) = some a ∧
      ¬ Persists (jtiKey "a") a := by
  have hvalues : (run (trailStep scanEnv) (start 1000000 (twoRevoked 5000))
      (oneScan [jtiKey "a", jtiKey "b"] 6)).map (fun a => (a.known (jtiKey "a"), a.state.nowSecs,
        isRevoked a.state.snapshot a.state.nowSecs (some "a") "")) =
          some (some 5000, 1035, false) := by
    decide
  have hindex : Along (trailStep scanEnv) (NeverLowers (jtiKey "a")) (start 1000000 (twoRevoked 5000))
      (oneScan [jtiKey "a", jtiKey "b"] 6) := by
    decide
  rcases Option.map_eq_some_iff.1 hvalues with ⟨a, hrun, hvalue⟩
  refine ⟨a, hindex, hrun, fun hlaw => ?_⟩
  rcases Prod.mk.inj hvalue with ⟨hknown, hrest⟩
  rcases Prod.mk.inj hrest with ⟨hnow, hvalid⟩
  have hnames : Names (some "a") "" (jtiKey "a") := Or.inl ⟨"a", rfl, by decide, rfl⟩
  have hrevoked := hlaw 5000 hknown (by rw [hnow]; decide) (some "a") "" hnames
  rw [hvalid] at hrevoked
  cases hrevoked

end KnownRevocations
end Revocation
end GatewayEdge
