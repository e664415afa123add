import GatewayEdge.RateLimit

/-!
# FleetSync — a saturating write against the bucket it hits

The sync thread writes the window its message was queued in, however long ago that was.  Two runs
of the same later calls are compared, one with the write and one without.
-/

namespace GatewayEdge
namespace FleetSync

open Foundation
open Foundation.WindowCounter (pack window count hits Tighter)
open RateLimit

/-! ## Sequences of calls on one bucket -/

/-- One call: the user and the clock reading, a `u32`. -/
structure Call where
  userKey : String
  nowSecs : Nat
  deriving DecidableEq, Repr

/-- The answers of `check_rate_limit` to the calls, in order. -/
def answers (fxHash : String → Nat) (env : EnvVars) (maxRps : Nat) : State → List Call → List Bool
  | _, [] => []
  | s, call :: calls =>
    let r := checkRateLimit fxHash env call.nowSecs maxRps (some call.userKey) s
    r.2 :: answers fxHash env maxRps r.1 calls

/-- Calls by users of one bucket at non-decreasing readings, none before `start`. -/
structure Later (fxHash : String → Nat) (slot start : Nat) (calls : List Call) : Prop where
  users : ∀ call ∈ calls, call.userKey ≠ "" ∧ bucketSlot fxHash call.userKey = slot
  readings : ∀ call ∈ calls, start ≤ call.nowSecs ∧ call.nowSecs < 2 ^ 32
  sorted : (calls.map Call.nowSecs).Pairwise (· ≤ ·)

/-- The sync thread applies a reply to the bucket of its user. -/
def applySync (fxHash : String → Nat) (msg : SyncMsg) (fleetCount : Int) (s : State) : State :=
  let slot := bucketSlot fxHash msg.userKey
  { s with shm := Function.update s.shm slot (applyReply msg fleetCount (s.shm slot)) }

section Calls

variable (fxHash : String → Nat) (env : EnvVars) {maxRps slot : Nat}

/-- One call on the bucket is one hit. -/
theorem checkRateLimit_eq_hit (hpos : maxRps ≠ 0) {userKey : String} (hkey : userKey ≠ "")
    (hslot : bucketSlot fxHash userKey = slot) {now : Nat} (hnow : now < 2 ^ 32) (s : State) :
    let r := checkRateLimit fxHash env now maxRps (some userKey) s
    r.2 = (WindowCounter.hit (maxRps % 2 ^ 32) now (s.shm slot)).2 ∧
      r.1.shm slot = (WindowCounter.hit (maxRps % 2 ^ 32) now (s.shm slot)).1 := by
  have hfilter : (some userKey).filter (fun k => decide (k ≠ "")) = some userKey := by
    simp [hkey]
  dsimp only
  unfold checkRateLimit WindowCounter.hit
  rw [if_neg hpos, hfilter]
  dsimp only
  rw [Nat.mod_eq_of_lt hnow, hslot, checkRateBody_eq]
  cases WindowCounter.bump (maxRps % 2 ^ 32) now (s.shm slot) with
  | none => exact ⟨rfl, rfl⟩
  | some word => exact ⟨rfl, by simp⟩

theorem answers_eq_hits (hpos : maxRps ≠ 0) {calls : List Call}
    (husers : ∀ call ∈ calls, call.userKey ≠ "" ∧ bucketSlot fxHash call.userKey = slot)
    (hreadings : ∀ call ∈ calls, call.nowSecs < 2 ^ 32) (s : State) :
    answers fxHash env maxRps s calls =
      hits (maxRps % 2 ^ 32) (s.shm slot) (calls.map Call.nowSecs) := by
  induction calls generalizing s with
  | nil => rfl
  | cons call calls ih =>
      rcases husers call (by simp) with ⟨hkey, hslot⟩
      rcases checkRateLimit_eq_hit fxHash env hpos hkey hslot (hreadings call (by simp)) s with
        ⟨hanswer, hword⟩
      have hrest := ih (fun d hd => husers d (by simp [hd])) (fun d hd => hreadings d (by simp [hd]))
        (checkRateLimit fxHash env call.nowSecs maxRps (some call.userKey) s).1
      simp only [answers, List.map_cons, hits]
      rw [hrest, hanswer, hword]

/-- Without a limit every call is let through. -/
theorem answers_of_zero (calls : List Call) (s : State) :
    answers fxHash env 0 s calls = calls.map fun _ => true := by
  induction calls generalizing s with
  | nil => rfl
  | cons call calls ih => simp [answers, checkRateLimit, ih]

end Calls

/-! ## When the write is only ever restrictive -/

/-- Every call that is let through after the write is let through without it. -/
def Restrictive (fxHash : String → Nat) (env : EnvVars) (maxRps : Nat) (msg : SyncMsg)
    (fleetCount : Int) (appliedAt : Nat) (s : State) : Prop :=
  ∀ calls, Later fxHash (bucketSlot fxHash msg.userKey) appliedAt calls →
    List.Forall₂ (fun a b => a = true → b = true)
      (answers fxHash env maxRps (applySync fxHash msg fleetCount s) calls)
      (answers fxHash env maxRps s calls)

/-- Nothing is written; or the bucket is of the written window, or of one that is over, or has
counted nothing. -/
def Harmless (maxRps : Nat) (msg : SyncMsg) (fleetCount : Int) (appliedAt word : Nat) : Prop :=
  maxRps = 0 ∨ asU32 fleetCount ≤ msg.maxRps ∨ msg.windowTs = window word ∨
    window word < appliedAt ∨ (count word = 0 ∧ 0 < maxRps % 2 ^ 32)

theorem asU32_lt (n : Int) : asU32 n < 2 ^ 32 := by
  unfold asU32
  have hnonneg : 0 ≤ n % 2 ^ 32 := Int.emod_nonneg n (by decide)
  have hlt : n % 2 ^ 32 < 2 ^ 32 := Int.emod_lt_of_pos n (by decide)
  omega

section Write

variable {fxHash : String → Nat} {env : EnvVars} {maxRps appliedAt : Nat} {msg : SyncMsg}
  {fleetCount : Int} {s : State}

/-- The bucket after the write. -/
theorem applySync_word (hover : asU32 fleetCount > msg.maxRps) :
    (applySync fxHash msg fleetCount s).shm (bucketSlot fxHash msg.userKey) =
      pack msg.windowTs (msg.maxRps + 1) := by
  simp [applySync, applyReply_eq, hover]

theorem restrictive_of_harmless (hmsg : msg.maxRps = maxRps % 2 ^ 32) (hwindow : msg.windowTs < 2 ^ 32)
    (h : Harmless maxRps msg fleetCount appliedAt (s.shm (bucketSlot fxHash msg.userKey))) :
    Restrictive fxHash env maxRps msg fleetCount appliedAt s := by
  intro calls hlater
  have hlimit : maxRps % 2 ^ 32 < 2 ^ 32 := Nat.mod_lt _ (by decide)
  by_cases hpos : maxRps = 0
  · subst hpos
    rw [answers_of_zero, answers_of_zero]
    exact List.forall₂_same.2 fun _ _ => id
  have hreadings : ∀ call ∈ calls, call.nowSecs < 2 ^ 32 := fun call hc => (hlater.readings call hc).2
  rw [answers_eq_hits fxHash env hpos hlater.users hreadings,
    answers_eq_hits fxHash env hpos hlater.users hreadings]
  have htighter : Tighter (maxRps % 2 ^ 32) appliedAt
      ((applySync fxHash msg fleetCount s).shm (bucketSlot fxHash msg.userKey))
      (s.shm (bucketSlot fxHash msg.userKey)) := by
    by_cases hover : asU32 fleetCount > msg.maxRps
    · have hcount : msg.maxRps + 1 < 2 ^ 32 := by
        have := asU32_lt fleetCount
        omega
      rw [applySync_word hover]
      refine Or.inr ⟨by rw [WindowCounter.count_pack hcount]; omega, ?_⟩
      rw [WindowCounter.window_pack hwindow hcount]
      rcases h with h | h | h | h | h
      · exact absurd h hpos
      · omega
      · exact Or.inl h
      · exact Or.inr (Or.inl h)
      · exact Or.inr (Or.inr h)
    · exact Or.inl (by simp [applySync, applyReply_eq, hover])
  refine Tighter.hits hlimit htighter (fun t ht => ?_) hlater.sorted
  rcases List.mem_map.1 ht with ⟨call, hcall, rfl⟩
  exact hlater.readings call hcall

/-- Repeating one reading shows that any other write lets through too much. -/
theorem harmless_of_restrictive (hmsg : msg.maxRps = maxRps % 2 ^ 32)
    (hwindow : msg.windowTs < 2 ^ 32) (hkey : msg.userKey ≠ "")
    (h : Restrictive fxHash env maxRps msg fleetCount appliedAt s) :
    Harmless maxRps msg fleetCount appliedAt (s.shm (bucketSlot fxHash msg.userKey)) := by
  by_contra hharm
  unfold Harmless at hharm
  simp only [not_or, not_and, not_le, not_lt] at hharm
  rcases hharm with ⟨hpos, hover, hother, hcurrent, hspent⟩
  have hlimit : maxRps % 2 ^ 32 < 2 ^ 32 := Nat.mod_lt _ (by decide)
  have hcount : msg.maxRps + 1 < 2 ^ 32 := by
    have := asU32_lt fleetCount
    omega
  have hnow := WindowCounter.window_lt (s.shm (bucketSlot fxHash msg.userKey))
  -- As many calls as the limit allows (one if it allows none), all in the bucket's own window.
  have hcompare : ∀ n, (hits (maxRps % 2 ^ 32) (pack msg.windowTs (msg.maxRps + 1))
        (List.replicate n (window (s.shm (bucketSlot fxHash msg.userKey))))).count true ≤
      (hits (maxRps % 2 ^ 32) (s.shm (bucketSlot fxHash msg.userKey))
        (List.replicate n (window (s.shm (bucketSlot fxHash msg.userKey))))).count true := by
    intro n
    have hlater : Later fxHash (bucketSlot fxHash msg.userKey) appliedAt
        (List.replicate n ⟨msg.userKey, window (s.shm (bucketSlot fxHash msg.userKey))⟩) :=
      { users := fun call hc => by
          rw [(List.mem_replicate.1 hc).2]
          exact ⟨hkey, rfl⟩
        readings := fun call hc => by
          rw [(List.mem_replicate.1 hc).2]
          exact ⟨hcurrent, hnow⟩
        sorted := by
          rw [List.map_replicate]
          exact List.pairwise_replicate.2 (Or.inr le_rfl) }
    have hpointwise := h _ hlater
    rw [answers_eq_hits fxHash env hpos hlater.users fun call hc => (hlater.readings call hc).2,
      answers_eq_hits fxHash env hpos hlater.users fun call hc => (hlater.readings call hc).2,
      applySync_word hover, List.map_replicate] at hpointwise
    exact WindowCounter.count_true_le_of_forall₂ hpointwise
  have hfresh : window (pack msg.windowTs (msg.maxRps + 1)) ≠
      window (s.shm (bucketSlot fxHash msg.userKey)) := by
    rw [WindowCounter.window_pack hwindow hcount]
    exact hother
  rcases Nat.eq_zero_or_pos (maxRps % 2 ^ 32) with hzero | hlimitPos
  · have hone := hcompare 1
    rw [hzero] at hone
    simp [hits, WindowCounter.hit, WindowCounter.bump, hfresh] at hone
  · have hall := hcompare (maxRps % 2 ^ 32)
    rw [WindowCounter.count_hits_replicate hnow hlimit hlimitPos,
      WindowCounter.count_hits_replicate hnow hlimit hlimitPos, if_neg hfresh, if_pos rfl] at hall
    have hcounted : count (s.shm (bucketSlot fxHash msg.userKey)) ≠ 0 := fun hzero =>
      absurd (hspent hzero) (by omega)
    omega

end Write

/-- A saturating write is restrictive for all later calls exactly if it is harmless for the bucket
it hits. -/
theorem restrictive_iff_harmless (fxHash : String → Nat) (env : EnvVars) (maxRps appliedAt : Nat)
    (msg : SyncMsg) (fleetCount : Int) (s : State) (hmsg : msg.maxRps = maxRps % 2 ^ 32)
    (hwindow : msg.windowTs < 2 ^ 32) (hkey : msg.userKey ≠ "") :
    Restrictive fxHash env maxRps msg fleetCount appliedAt s ↔
      Harmless maxRps msg fleetCount appliedAt (s.shm (bucketSlot fxHash msg.userKey)) :=
  ⟨harmless_of_restrictive hmsg hwindow hkey, restrictive_of_harmless hmsg hwindow⟩

/-- One user with a bucket holding `word`. -/
def bucketState (word : Nat) : State := { shm := fun _ => word, tx := none }

/-- A message of second 100 that reports the limit of one to be exceeded. -/
def sampleMsg : SyncMsg := { userKey := "alice", localCount := 1, windowTs := 100, maxRps := 1 }

/-- Applied to a bucket of the same second the write is restrictive. -/
theorem write_in_own_window_restrictive :
    Restrictive (fun _ => 6165705118154126636) (fun _ => none) 1 sampleMsg 2 100
      (bucketState (pack 100 1)) :=
  (restrictive_iff_harmless _ _ 1 100 sampleMsg 2 _ rfl (by decide) (by decide)).2
    (Or.inr (Or.inr (Or.inl rfl)))

/-- Applied one second later, to a bucket whose budget for that second is spent, it lets the next
call through. -/
theorem late_write_reopens_window :
    ¬ Restrictive (fun _ => 6165705118154126636) (fun _ => none) 1 sampleMsg 2 101
      (bucketState (pack 101 1)) := by
  intro h
  have hpointwise := h [⟨"alice", 101⟩]
    { users := by decide
      readings := by decide
      sorted := by decide }
  revert hpointwise
  decide

end FleetSync
end GatewayEdge
