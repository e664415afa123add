import GatewayEdge.FleetSync
import GatewayEdge.Foundation.Run

/-!
# SingleNode — the Redis layer with a fleet of one

One user, one node, and a Redis key only this node writes.  Next to the real bucket runs the bucket
the node would have without the Redis layer; both see the same calls at the same times.  The sync
thread takes the queued messages in order, at any time after they were queued; an exchange with
Redis may fail, with or without effect, and a saturating write may lose its compare-exchange.
-/

namespace GatewayEdge
namespace SingleNode

open Foundation
open Foundation.WindowCounter (pack window count Looser)
open FleetSync (applySync checkRateLimit_eq_hit asU32_lt)
open RateLimit (SyncMsg FleetKey checkRateLimit bucketSlot trySend applyReply_eq asU32 runScript)

/-! ## The node, its shadow and its Redis key -/

structure State where
  clockMs : Nat
  /-- The bucket file and the queue. -/
  node : RateLimit.State
  /-- The bucket file without the Redis layer. -/
  alone : RateLimit.State
  key : Option FleetKey
  /-- A reply the sync thread has received and not yet acted on. -/
  reply : Option (SyncMsg × Int)

def State.nowSecs (s : State) : Nat := s.clockMs / 1000

/-- What becomes of one exchange: answered, lost before it took effect, or executed with its reply
lost. -/
inductive Exchange
  | replied
  | lostBefore
  | lostAfter
  deriving DecidableEq, Repr

inductive Event
  | tick (clockMs : Nat)
  | call
  | exchange (fate : Exchange)
  | apply (lost : Bool)
  deriving DecidableEq, Repr

/-- The parameters of a run: hash, environment, the limit of the user, the user. -/
structure Setting where
  fxHash : String → Nat
  env : EnvVars
  maxRps : Nat
  userKey : String

variable (p : Setting)

namespace Setting

def slot : Nat := bucketSlot p.fxHash p.userKey

def limit : Nat := p.maxRps % 2 ^ 32

/-- A call on a bucket file, at the time of the state. -/
def check (s : State) (limiter : RateLimit.State) : RateLimit.State × Bool :=
  checkRateLimit p.fxHash p.env s.nowSecs p.maxRps (some p.userKey) limiter

end Setting

/-- Time stamps are seconds in 32 bits, and the clock stays in their range. -/
def step (s : State) : Event → Option State
  | .tick clockMs =>
    if s.clockMs ≤ clockMs ∧ clockMs / 1000 < 2 ^ 32 then some { s with clockMs := clockMs } else none
  | .call => some { s with node := (p.check s s.node).1, alone := (p.check s s.alone).1 }
  | .exchange fate =>
    match s.node.tx, s.reply with
    | some (msg :: rest), none =>
      let s := { s with node := { s.node with tx := some rest } }
      match fate with
      | .lostBefore => some s
      -- Redis has counted the message although the node never learns the result.
      | .lostAfter => some { s with key := some (runScript s.clockMs s.key) }
      | .replied =>
        let key := runScript s.clockMs s.key
        some { s with key := some key, reply := some (msg, key.count) }
    | _, _ => none
  | .apply lost =>
    match s.reply with
    | some (msg, fleetCount) =>
      some { s with
        node := match lost with
          | true => s.node
          | false => applySync p.fxHash msg fleetCount s.node
        reply := none }
    | none => none

/-- A node just started, on any bucket file; the key does not exist. -/
def start (shm : Nat → Nat) : State where
  clockMs := 0
  node := { shm := shm, tx := some [] }
  alone := { shm := shm, tx := none }
  key := none
  reply := none

/-- No call is rejected that the bucket alone would have let through. -/
def NeverStricter (s : State) : Event → Prop
  | .call => (p.check s s.alone).2 = true → (p.check s s.node).2 = true
  | _ => True

/-- The bucket alone has nothing left for the current second. -/
def AloneSpent (s : State) : Prop :=
  window (s.alone.shm p.slot) = s.nowSecs ∧ p.limit ≤ count (s.alone.shm p.slot)

/-- A reply that is acted on does not exceed the limit, or is about a second that is over, or finds
the current second spent anyway. -/
def ReplyHarmless (s : State) : Event → Prop
  | .apply false => ∀ msg fleetCount, s.reply = some (msg, fleetCount) →
      asU32 fleetCount ≤ msg.maxRps ∨ msg.windowTs ≠ s.nowSecs ∨ AloneSpent p s
  | _ => True

/-! ## One call -/

section OneCall

variable {p}

/-- Without a limit or a user there is nothing to check. -/
theorem check_unlimited (h : p.maxRps = 0 ∨ p.userKey = "") (s : State) (limiter : RateLimit.State) :
    p.check s limiter = (limiter, true) := by
  unfold Setting.check checkRateLimit
  split
  · rfl
  · rename_i hpos
    have hfilter : (some p.userKey).filter (fun k => decide (k ≠ "")) = none := by
      simp [h.resolve_left hpos]
    rw [hfilter]

/-- A call is one hit on the bucket of the user. -/
theorem check_eq_hit (hpos : p.maxRps ≠ 0) (hkey : p.userKey ≠ "") {s : State}
    (hnow : s.nowSecs < 2 ^ 32) (limiter : RateLimit.State) :
    (p.check s limiter).2 = (WindowCounter.hit p.limit s.nowSecs (limiter.shm p.slot)).2 ∧
      (p.check s limiter).1.shm p.slot =
        (WindowCounter.hit p.limit s.nowSecs (limiter.shm p.slot)).1 :=
  checkRateLimit_eq_hit p.fxHash p.env hpos hkey rfl hnow limiter

/-- The messages of this user, queued at or before `now`. -/
structure Own (p : Setting) (now : Nat) (msg : SyncMsg) : Prop where
  user : msg.userKey = p.userKey
  named : p.userKey ≠ ""
  limited : p.maxRps ≠ 0
  limit : msg.maxRps = p.limit
  queued : msg.windowTs ≤ now

theorem Own.later {now now' : Nat} {msg : SyncMsg} (h : Own p now msg) (hle : now ≤ now') :
    Own p now' msg :=
  { h with queued := le_trans h.queued hle }

/-- What a call may add to the queue. -/
theorem mem_check_tx {s : State} {limiter : RateLimit.State} {queue : List SyncMsg}
    (h : (p.check s limiter).1.tx = some queue) :
    ∃ before, limiter.tx = some before ∧ ∀ msg ∈ queue, msg ∈ before ∨ Own p s.nowSecs msg := by
  by_cases hunlimited : p.maxRps = 0 ∨ p.userKey = ""
  · rw [check_unlimited hunlimited] at h
    exact ⟨queue, h, fun msg hmem => Or.inl hmem⟩
  · rcases not_or.1 hunlimited with ⟨hpos, hkey⟩
    have hfilter : (some p.userKey).filter (fun k => decide (k ≠ "")) = some p.userKey := by
      simp [hkey]
    unfold Setting.check checkRateLimit at h
    rw [if_neg hpos, hfilter] at h
    dsimp only at h
    split at h
    · exact ⟨queue, h, fun msg hmem => Or.inl hmem⟩
    · dsimp only at h
      split at h
      · rcases Option.map_eq_some_iff.1 h with ⟨before, hbefore, hsent⟩
        refine ⟨before, hbefore, fun msg hmem => ?_⟩
        rw [← hsent] at hmem
        rcases RateLimit.mem_trySend hmem with hold | rfl
        · exact Or.inl hold
        · exact Or.inr
            { user := rfl
              named := hkey
              limited := hpos
              limit := rfl
              queued := Nat.mod_le _ _ }
      · exact ⟨queue, h, fun msg hmem => Or.inl hmem⟩

end OneCall

/-! ## The invariant -/

/-- The real bucket lets through what the shadow lets through, and every message still to be acted
on was queued by a call of this user. -/
structure Inv (s : State) : Prop where
  clock : s.nowSecs < 2 ^ 32
  looser : Looser p.limit s.nowSecs (s.node.shm p.slot) (s.alone.shm p.slot)
  queued : ∀ queue, s.node.tx = some queue → ∀ msg ∈ queue, Own p s.nowSecs msg
  replied : ∀ msg fleetCount, s.reply = some (msg, fleetCount) → Own p s.nowSecs msg

variable {p}

theorem inv_start (shm : Nat → Nat) : Inv p (start shm) where
  clock := (by decide : 0 / 1000 < 2 ^ 32)
  looser := fun _ => ⟨rfl, Or.inl le_rfl⟩
  queued := fun queue hqueue msg hmem => by
    have hnil : [] = queue := Option.some.inj hqueue
    rw [← hnil] at hmem
    cases hmem
  replied := fun msg fleetCount hreply => by cases hreply

theorem limit_lt : p.limit < 2 ^ 32 := Nat.mod_lt _ (by decide)

/-- One call on both buckets. -/
theorem looser_call {s : State} (h : Inv p s) :
    NeverStricter p s .call ∧
      Looser p.limit s.nowSecs ((p.check s s.node).1.shm p.slot)
        ((p.check s s.alone).1.shm p.slot) := by
  by_cases hunlimited : p.maxRps = 0 ∨ p.userKey = ""
  · unfold NeverStricter
    rw [check_unlimited hunlimited, check_unlimited hunlimited]
    exact ⟨fun _ => rfl, h.looser⟩
  · rcases not_or.1 hunlimited with ⟨hpos, hkey⟩
    have hnode := check_eq_hit hpos hkey h.clock s.node
    have halone := check_eq_hit hpos hkey h.clock s.alone
    unfold NeverStricter
    rw [hnode.1, hnode.2, halone.1, halone.2]
    exact h.looser.hit h.clock limit_lt

/-- The bucket after a write for the current second. -/
theorem applySync_slot {s : State} {msg : SyncMsg} (hown : Own p s.nowSecs msg) (fleetCount : Int) :
    (applySync p.fxHash msg fleetCount s.node).shm p.slot =
      if asU32 fleetCount > msg.maxRps then pack msg.windowTs (p.limit + 1)
      else s.node.shm p.slot := by
  unfold applySync Setting.slot
  dsimp only
  rw [hown.user, Function.update_self, applyReply_eq, hown.limit]

theorem looser_apply {s : State} {msg : SyncMsg} {fleetCount : Int} (h : Inv p s)
    (hreply : s.reply = some (msg, fleetCount)) (hharmless : ReplyHarmless p s (.apply false)) :
    Looser p.limit s.nowSecs ((applySync p.fxHash msg fleetCount s.node).shm p.slot)
      (s.alone.shm p.slot) := by
  have hown := h.replied msg fleetCount hreply
  rw [applySync_slot hown]
  split
  · rename_i hover
    have hcount : p.limit + 1 < 2 ^ 32 := by
      have := asU32_lt fleetCount
      have := hown.limit
      omega
    have hwindow : msg.windowTs < 2 ^ 32 := lt_of_le_of_lt hown.queued h.clock
    intro hcurrent
    rw [WindowCounter.window_pack hwindow hcount] at hcurrent ⊢
    -- Only a message of the current second can saturate a window that still matters.
    have hsame : msg.windowTs = s.nowSecs := le_antisymm hown.queued hcurrent
    rcases hharmless msg fleetCount hreply with hle | hover' | hspent
    · omega
    · exact absurd hsame hover'
    · exact ⟨by rw [hspent.1, hsame], Or.inr hspent.2⟩
  · exact h.looser

theorem inv_step (s : State) (e : Event) (s' : State) (h : Inv p s) (hcond : ReplyHarmless p s e)
    (hs : step p s e = some s') : Inv p s' := by
  cases e with
  | tick clockMs =>
      unfold step at hs
      dsimp only at hs
      split at hs
      · rename_i htick
        cases hs
        have hle : s.nowSecs ≤ clockMs / 1000 := Nat.div_le_div_right htick.1
        exact
          { clock := htick.2
            looser := h.looser.later hle
            queued := fun queue hqueue msg hmem => (h.queued queue hqueue msg hmem).later hle
            replied := fun msg n hreply => (h.replied msg n hreply).later hle }
      · cases hs
  | call =>
      cases hs
      exact
        { clock := h.clock
          looser := (looser_call h).2
          queued := fun queue hqueue msg hmem => by
            rcases mem_check_tx hqueue with ⟨before, hbefore, hadded⟩
            rcases hadded msg hmem with hold | hnew
            · exact h.queued before hbefore msg hold
            · exact hnew
          replied := h.replied }
  | exchange fate =>
      unfold step at hs
      dsimp only at hs
      split at hs
      · rename_i msg rest htx hreply
        have hqueue := h.queued _ htx
        have hrest : ∀ queue, some rest = some queue → ∀ m ∈ queue, Own p s.nowSecs m :=
          fun queue hsame m hmem => hqueue m (List.mem_cons_of_mem _ (Option.some.inj hsame ▸ hmem))
        cases fate with
        | lostBefore =>
            cases hs
            exact { clock := h.clock, looser := h.looser, queued := hrest, replied := h.replied }
        | lostAfter =>
            cases hs
            exact { clock := h.clock, looser := h.looser, queued := hrest, replied := h.replied }
        | replied =>
            cases hs
            exact
              { clock := h.clock
                looser := h.looser
                queued := hrest
                replied := fun m n hsame => by
                  have hmsg : msg = m := (Prod.mk.inj (Option.some.inj hsame)).1
                  exact hmsg ▸ hqueue msg List.mem_cons_self }
      · cases hs
  | apply lost =>
      unfold step at hs
      dsimp only at hs
      split at hs
      · rename_i msg fleetCount hreply
        cases hs
        cases lost with
        | true =>
            exact
              { clock := h.clock
                looser := h.looser
                queued := h.queued
                replied := fun m n hnone => by cases hnone }
        | false =>
            have htx : (applySync p.fxHash msg fleetCount s.node).tx = s.node.tx := rfl
            -- The one step that needs the condition.
            have hlooser := looser_apply h hreply hcond
            exact
              { clock := h.clock
                looser := hlooser
                queued := fun queue hqueue => h.queued queue (htx.symm.trans hqueue)
                replied := fun m n hnone => by cases hnone }
      · cases hs

/-- A write that is not harmless makes the very next call fail. -/
theorem stricter_after_harm {s : State} (h : Inv p s) (hharm : ¬ ReplyHarmless p s (.apply false)) :
    ∃ s', step p s (.apply false) = some s' ∧ ¬ NeverStricter p s' .call := by
  unfold ReplyHarmless at hharm
  push Not at hharm
  rcases hharm with ⟨msg, fleetCount, hreply, hover, hcurrent, hunspent⟩
  have hown := h.replied msg fleetCount hreply
  have hcount : p.limit + 1 < 2 ^ 32 := by
    have := asU32_lt fleetCount
    have := hown.limit
    omega
  refine ⟨{ s with node := applySync p.fxHash msg fleetCount s.node, reply := none }, ?_, ?_⟩
  · unfold step
    dsimp only
    rw [hreply]
  intro hlaw
  have hslot := applySync_slot hown fleetCount
  rw [if_pos hover, hcurrent] at hslot
  -- The node refuses: its bucket is of the current second and saturated.
  have hnode := check_eq_hit (s := s) hown.limited hown.named h.clock
    (applySync p.fxHash msg fleetCount s.node)
  rw [hslot] at hnode
  have hrefused : (WindowCounter.hit p.limit s.nowSecs (pack s.nowSecs (p.limit + 1))).2 = false := by
    rcases WindowCounter.hit_cases p.limit s.nowSecs
      (pack s.nowSecs (p.limit + 1)) with ⟨hw, _⟩ | ⟨_, _, hhit⟩ | ⟨_, hc, _⟩
    · exact absurd (WindowCounter.window_pack h.clock hcount) hw
    · rw [hhit]
    · rw [WindowCounter.count_pack hcount] at hc
      omega
  -- The bucket alone lets the call through.
  have halone := check_eq_hit (s := s) hown.limited hown.named h.clock s.alone
  have hadmitted : (WindowCounter.hit p.limit s.nowSecs (s.alone.shm p.slot)).2 = true := by
    rcases WindowCounter.hit_cases p.limit s.nowSecs (s.alone.shm p.slot) with
      ⟨_, hhit⟩ | ⟨hw, hc, _⟩ | ⟨_, _, hhit⟩
    · rw [hhit]
    · exact absurd ⟨hw, hc⟩ hunspent
    · rw [hhit]
  have hstrict := hlaw (halone.1.trans hadmitted)
  have hfalse : (p.check s (applySync p.fxHash msg fleetCount s.node)).2 = true := hstrict
  rw [hnode.1, hrefused] at hfalse
  cases hfalse

variable (p)

/-- In every run in which each reply that is acted on is harmless the Redis layer is never stricter
than the bucket alone; and from a reachable state in which a reply is not harmless, acting on it
makes the next call fail that the bucket alone would have let through. -/
theorem redis_layer_never_stricter (shm : Nat → Nat) (es : List Event) :
    (Along (step p) (ReplyHarmless p) (start shm) es →
      Along (step p) (NeverStricter p) (start shm) es) ∧
    (∀ s, Along (step p) (ReplyHarmless p) (start shm) es → run (step p) (start shm) es = some s →
      ¬ ReplyHarmless p s (.apply false) →
      ∃ s', step p s (.apply false) = some s' ∧ ¬ NeverStricter p s' .call) := by
  constructor
  · refine along_mono inv_step ?_ (inv_start shm)
    intro s e hinv _
    cases e with
    | call => exact (looser_call hinv).1
    | _ => trivial
  · intro s halong hrun hharm
    exact stricter_after_harm (invariant_run_along inv_step (inv_start shm) halong hrun) hharm

/-- Alice, with a limit of two. -/
def sampleSetting : Setting where
  fxHash := fun _ => 6165705118154126636
  env := fun _ => none
  maxRps := 2
  userKey := "alice"

/-- Two calls in second 100 and one in second 101, each synchronised at once. -/
def sampleRun : List Event :=
  [.tick 100000, .call, .exchange .replied, .apply false, .call, .exchange .replied, .apply false,
    .tick 101000, .call, .exchange .replied, .apply false]

/-- The reply to the call of second 101 comes in second 102. -/
def lateReplyRun : List Event :=
  [.tick 100000, .call, .exchange .replied, .apply false, .call, .exchange .replied, .apply false,
    .tick 101000, .call, .exchange .replied, .tick 102000, .apply false, .call]

instance (s : State) : ∀ e, Decidable (ReplyHarmless p s e)
  | .apply false =>
    decidable_of_iff (∀ r ∈ s.reply, asU32 r.2 ≤ r.1.maxRps ∨ r.1.windowTs ≠ s.nowSecs ∨
        window (s.alone.shm p.slot) = s.nowSecs ∧ p.limit ≤ count (s.alone.shm p.slot))
      ⟨fun h msg fleetCount hreply => h (msg, fleetCount) hreply, fun h r hr => h r.1 r.2 hr⟩
  | .apply true => isTrue trivial
  | .tick _ => isTrue trivial
  | .call => isTrue trivial
  | .exchange _ => isTrue trivial

/-- Redis has counted three requests by then, one more than the limit, but not against second 102. -/
theorem late_reply_harmless :
    Along (step sampleSetting) (ReplyHarmless sampleSetting) (start fun _ => 0) lateReplyRun ∧
      Along (step sampleSetting) (NeverStricter sampleSetting) (start fun _ => 0) lateReplyRun := by
  have hharmless : Along (step sampleSetting) (ReplyHarmless sampleSetting) (start fun _ => 0)
      lateReplyRun := by
    decide +kernel
  exact ⟨hharmless, (redis_layer_never_stricter sampleSetting _ _).1 hharmless⟩

/-- The Redis counter is still the one of second 100, so the second call of second 101 is refused
although only one has been made. -/
theorem second_call_refused :
    ¬ Along (step sampleSetting) (NeverStricter sampleSetting) (start fun _ => 0)
      (sampleRun ++ [.call]) := by
  intro h
  have hanswers : (run (step sampleSetting) (start fun _ => 0) sampleRun).map
      (fun t => ((sampleSetting.check t t.alone).2, (sampleSetting.check t t.node).2)) =
        some (true, false) := by
    decide
  rcases Option.map_eq_some_iff.1 hanswers with ⟨t, hrun, hpair⟩
  have hlaw := h.at hrun
  have hnode := hlaw (Prod.mk.inj hpair).1
  rw [(Prod.mk.inj hpair).2] at hnode
  cases hnode

end SingleNode
end GatewayEdge
