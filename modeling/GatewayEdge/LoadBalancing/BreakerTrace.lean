import GatewayEdge.Foundation.Run
import GatewayEdge.Foundation.Streak
import GatewayEdge.LoadBalancing.CircuitBreaker

/-!
# LoadBalancing.BreakerTrace — one breaker slot over its whole history

The three methods of `UpstreamCB` on a fresh slot, each as one step, in any order, at the readings of a
clock that does not go back.  State, counter and timestamp of the slot are three separate words; the
history of the calls says what each of them stands for.
-/

namespace GatewayEdge
namespace CircuitBreaker

open Foundation

/-! ## A slot and its history -/

inductive Call
  | recordSuccess
  | recordFailure
  | isOpen
  deriving DecidableEq, Repr

/-- What a call makes of the slot. -/
def Call.apply (now : ℕ) (call : Call) (cb : UpstreamCB) : UpstreamCB :=
  match call with
  | .recordSuccess => cb.recordSuccess
  | .recordFailure => cb.recordFailure now
  | .isOpen => (cb.isOpen now).1

/-- A call of the past: its time, and the state it found and left. -/
structure Record where
  time : ℕ
  call : Call
  before : ℕ
  after : ℕ
  deriving DecidableEq, Repr

/-- A success, or whatever else led into CLOSED. -/
def Record.clears (r : Record) : Bool :=
  r.call == .recordSuccess || (r.before != stateClosed && r.after == stateClosed)

/-- A failure that led into OPEN. -/
def Record.opens (r : Record) : Bool :=
  r.call == .recordFailure && r.before != stateOpen && r.after == stateOpen

/-- The slot, with the calls it has seen, newest first. -/
structure Trace where
  clock : ℕ := 0
  slot : UpstreamCB := {}
  past : List Record := []
  deriving DecidableEq, Repr

/-- The readings of `now_secs`: a `SystemTime` counts its seconds in an `i64`. -/
def clockRange : ℕ := 2 ^ 63

namespace Trace

def called (now : ℕ) (call : Call) (t : Trace) : Trace where
  clock := now
  slot := call.apply now t.slot
  past :=
    { time := now, call := call, before := t.slot.state, after := (call.apply now t.slot).state } ::
      t.past

def step (t : Trace) (e : ℕ × Call) : Option Trace :=
  if t.clock ≤ e.1 ∧ e.1 < clockRange then some (t.called e.1 e.2) else none

/-- The failures recorded since the last success or entry to CLOSED. -/
def failuresSince (past : List Record) : ℕ := streak (fun r => r.call == .recordFailure) Record.clears past

/-- The failure that opened the breaker last. -/
def opening (past : List Record) : Option Record := past.find? Record.opens

theorem step_eq_some {t t' : Trace} {e : ℕ × Call} :
    step t e = some t' ↔ (t.clock ≤ e.1 ∧ e.1 < clockRange) ∧ t' = t.called e.1 e.2 := by
  by_cases hclock : t.clock ≤ e.1 ∧ e.1 < clockRange
  · simp [step, hclock, eq_comm]
  · simp [step, hclock]

/-! ## What the history says of the slot -/

/-- The trace law, in one state of a slot. -/
structure Law (t : Trace) : Prop where
  state : t.slot.state = stateClosed ∨ t.slot.state = stateOpen ∨ t.slot.state = stateHalfOpen
  counted : t.slot.state = stateClosed →
    t.slot.failures = failuresSince t.past ∧ t.slot.failures < failureThreshold
  trips : ∀ e t', step t e = some t' →
    (t.slot.state ≠ stateOpen ∧ t'.slot.state = stateOpen ↔
      e.2 = .recordFailure ∧
        (t.slot.state = stateClosed ∧ failuresSince t.past + 1 = failureThreshold ∨
          t.slot.state = stateHalfOpen))
  unmoved : t.slot.state = stateOpen →
    t.slot.recordSuccess = t.slot ∧ ∀ now, t.slot.recordFailure now = t.slot
  asked : t.slot.state = stateOpen →
    ∃ r, opening t.past = some r ∧
      ∀ now, t.clock ≤ now → now < clockRange →
        t.slot.isOpen now =
          if now ≤ r.time + resetTimeoutSecs then (t.slot, true)
          else ({ t.slot with state := stateHalfOpen }, false)
  recovers : t.slot.state = stateHalfOpen →
    t.slot.recordSuccess = { t.slot with state := stateClosed, failures := 0 }

/-- What each state of the slot remembers of the past. -/
inductive Remembers (t : Trace) : Prop
  | closed (hstate : t.slot.state = stateClosed) (hcount : t.slot.failures = failuresSince t.past)
      (hbelow : t.slot.failures < failureThreshold)
  | opened (hstate : t.slot.state = stateOpen) (r : Record) (hopening : opening t.past = some r)
      (htime : t.slot.lastFailureTime = r.time) (hrange : r.time < clockRange)
  | halfOpen (hstate : t.slot.state = stateHalfOpen)

variable {t : Trace} {now : ℕ}

/-- A success, or the first report after it, makes the count start over. -/
theorem failuresSince_of_clears {r : Record} {past : List Record} (h : r.clears = true) :
    failuresSince (r :: past) = 0 := streak_of_reset h

theorem remembers_of_closed (hrange : now < clockRange) (call : Call)
    (hstate : t.slot.state = stateClosed) (hcount : t.slot.failures = failuresSince t.past)
    (hbelow : t.slot.failures < failureThreshold) : Remembers (t.called now call) := by
  -- Only the last failure allowed leads out of CLOSED; a success starts the count over.
  cases call with
  | recordSuccess =>
      have hslot := UpstreamCB.recordSuccess_of_closed hstate
      refine .closed ?_ ?_ ?_
      · simpa [called, Call.apply, hslot] using hstate
      · have hzero : t.slot.recordSuccess.failures = 0 := by rw [hslot]
        exact hzero.trans (failuresSince_of_clears rfl).symm
      · have hzero : t.slot.recordSuccess.failures = 0 := by rw [hslot]
        exact lt_of_eq_of_lt hzero (by decide)
  | recordFailure =>
      by_cases hlast : failureThreshold ≤ t.slot.failures + 1
      · have hslot : t.slot.recordFailure now =
            { state := stateOpen, failures := t.slot.failures + 1, lastFailureTime := now } := by
          rw [UpstreamCB.recordFailure_of_closed now hstate, if_pos hlast]
        refine .opened ?_ _ (List.find?_cons_of_pos ?_) ?_ hrange
        · simp [called, Call.apply, hslot]
        · simp [Record.opens, Call.apply, hslot, hstate, stateOpen, stateClosed]
        · simp [called, Call.apply, hslot]
      · have hslot : t.slot.recordFailure now = { t.slot with failures := t.slot.failures + 1 } := by
          rw [UpstreamCB.recordFailure_of_closed now hstate, if_neg hlast]
        have hkept : Record.clears
            { time := now, call := .recordFailure, before := t.slot.state,
              after := (t.slot.recordFailure now).state } = false := by
          simp [Record.clears, hstate]
        have hfailures : failuresSince (t.called now .recordFailure).past = failuresSince t.past + 1 :=
          streak_of_count hkept rfl
        refine .closed ?_ ?_ ?_
        · simpa [called, Call.apply, hslot] using hstate
        · rw [hfailures, ← hcount]
          simp [called, Call.apply, hslot]
        · simpa [called, Call.apply, hslot] using hlast
  | isOpen =>
      have hopen : t.slot.state ≠ stateOpen := hstate.trans_ne (by decide)
      have hslot : (t.slot.isOpen now).1 = t.slot := by rw [UpstreamCB.isOpen_of_not_open now hopen]
      have hkept : Record.clears
          { time := now, call := .isOpen, before := t.slot.state,
            after := (t.slot.isOpen now).1.state } = false := by
        simp [Record.clears, hstate]
      have hfailures : failuresSince (t.called now .isOpen).past = failuresSince t.past :=
        streak_of_skip hkept rfl
      refine .closed ?_ ?_ ?_
      · simpa [called, Call.apply, hslot] using hstate
      · rw [hfailures, ← hcount]
        simp [called, Call.apply, hslot]
      · simpa [called, Call.apply, hslot] using hbelow

/-- A record that does not lead into OPEN leaves the opening failure what it was. -/
theorem opening_of_not_opens {r : Record} {past : List Record} (h : r.opens = false) :
    opening (r :: past) = opening past := List.find?_cons_of_neg (by simp [h])

theorem remembers_of_opened (call : Call) (hstate : t.slot.state = stateOpen) {r : Record}
    (hopening : opening t.past = some r) (htime : t.slot.lastFailureTime = r.time)
    (hrange : r.time < clockRange) : Remembers (t.called now call) := by
  have hstill : ∀ call : Call, call.apply now t.slot = t.slot → Remembers (t.called now call) := by
    intro call hslot
    -- A call that finds OPEN opens nothing.
    have hnot : Record.opens
        { time := now, call := call, before := t.slot.state, after := (call.apply now t.slot).state } =
          false := by
      simp [Record.opens, hstate]
    refine .opened ?_ r ((opening_of_not_opens hnot).trans hopening) ?_ hrange
    · simpa [called, hslot] using hstate
    · simpa [called, hslot] using htime
  cases call with
  | recordSuccess => exact hstill _ (UpstreamCB.recordSuccess_of_open hstate)
  | recordFailure => exact hstill _ (UpstreamCB.recordFailure_of_open now hstate)
  | isOpen =>
      have hasked := UpstreamCB.isOpen_of_open now hstate
      by_cases hcool : now ≤ (t.slot.lastFailureTime + resetTimeoutSecs) % 2 ^ 64
      · apply hstill
        rw [if_pos hcool] at hasked
        exact congrArg Prod.fst hasked
      · rw [if_neg hcool] at hasked
        exact .halfOpen (congrArg (fun p => p.1.state) hasked)

theorem remembers_of_halfOpen (hrange : now < clockRange) (call : Call)
    (hstate : t.slot.state = stateHalfOpen) : Remembers (t.called now call) := by
  have hopen : t.slot.state ≠ stateOpen := hstate.trans_ne (by decide)
  cases call with
  | recordSuccess =>
      have hslot := UpstreamCB.recordSuccess_of_halfOpen hstate
      have hzero : t.slot.recordSuccess.failures = 0 := by rw [hslot]
      refine .closed ?_ ?_ ?_
      · simp [called, Call.apply, hslot]
      · exact hzero.trans (failuresSince_of_clears rfl).symm
      · exact lt_of_eq_of_lt hzero (by decide)
  | recordFailure =>
      have hslot := UpstreamCB.recordFailure_of_halfOpen now hstate
      refine .opened ?_ _ (List.find?_cons_of_pos ?_) ?_ hrange
      · simp [called, Call.apply, hslot]
      · simp [Record.opens, Call.apply, hslot, hopen]
      · simp [called, Call.apply, hslot]
  | isOpen =>
      have hslot : (t.slot.isOpen now).1 = t.slot := by rw [UpstreamCB.isOpen_of_not_open now hopen]
      exact .halfOpen (by simpa [called, Call.apply, hslot] using hstate)

theorem remembers_step (t : Trace) (e : ℕ × Call) (t' : Trace) (h : Remembers t)
    (hstep : step t e = some t') : Remembers t' := by
  rcases step_eq_some.1 hstep with ⟨⟨-, hrange⟩, rfl⟩
  cases h with
  | closed hstate hcount hbelow => exact remembers_of_closed hrange e.2 hstate hcount hbelow
  | opened hstate r hopening htime hopened => exact remembers_of_opened e.2 hstate hopening htime hopened
  | halfOpen hstate => exact remembers_of_halfOpen hrange e.2 hstate

/-! ## The trace law -/

/-- Only a failure opens a slot: the last one allowed in CLOSED, and any in HALF_OPEN. -/
theorem opens_iff (now : ℕ) (call : Call) (hopen : t.slot.state ≠ stateOpen)
    (hknown : t.slot.state = stateClosed ∨ t.slot.state = stateHalfOpen) :
    (call.apply now t.slot).state = stateOpen ↔
      call = .recordFailure ∧
        (t.slot.state = stateClosed ∧ failureThreshold ≤ t.slot.failures + 1 ∨
          t.slot.state = stateHalfOpen) := by
  cases call with
  | recordSuccess =>
      rcases hknown with hstate | hstate
      · simp [Call.apply, UpstreamCB.recordSuccess_of_closed hstate, hopen]
      · simp [Call.apply, UpstreamCB.recordSuccess_of_halfOpen hstate, stateClosed, stateOpen]
  | recordFailure =>
      rcases hknown with hstate | hstate
      · rw [Call.apply, UpstreamCB.recordFailure_of_closed now hstate]
        by_cases hlast : failureThreshold ≤ t.slot.failures + 1
        · simp [hlast, hstate]
        · simp [hlast, hstate, stateClosed, stateOpen, stateHalfOpen]
      · simp [Call.apply, UpstreamCB.recordFailure_of_halfOpen now hstate, hstate]
  | isOpen => simp [Call.apply, UpstreamCB.isOpen_of_not_open now hopen, hopen]

theorem law_of_remembers (h : Remembers t) : Law t := by
  cases h with
  | closed hstate hcount hbelow =>
      have hopen : t.slot.state ≠ stateOpen := hstate.trans_ne (by decide)
      refine ⟨Or.inl hstate, fun _ => ⟨hcount, hbelow⟩, ?_, fun h => absurd h hopen,
        fun h => absurd h hopen, fun h => absurd (hstate.symm.trans h) (by decide)⟩
      intro e t' hstep
      rcases step_eq_some.1 hstep with ⟨-, rfl⟩
      have hiff := opens_iff e.1 e.2 hopen (Or.inl hstate)
      -- The count is below the threshold, so one more reaches it exactly or not at all.
      have hlast : failureThreshold ≤ t.slot.failures + 1 ↔
          failuresSince t.past + 1 = failureThreshold := by
        rw [← hcount]
        exact ⟨fun hle => Nat.le_antisymm hbelow hle, fun hlast => Nat.le_of_eq hlast.symm⟩
      rw [hlast] at hiff
      exact ⟨fun hopens => hiff.1 hopens.2, fun hcall => ⟨hopen, hiff.2 hcall⟩⟩
  | opened hstate r hopening htime hrange =>
      have hnot : ¬(t.slot.state = stateClosed ∧ failuresSince t.past + 1 = failureThreshold ∨
          t.slot.state = stateHalfOpen) := by
        rw [hstate]
        rintro (⟨hclosed, -⟩ | hhalf)
        · cases hclosed
        · cases hhalf
      refine ⟨Or.inr (Or.inl hstate), fun h => absurd (hstate.symm.trans h) (by decide), ?_,
        fun _ => ⟨UpstreamCB.recordSuccess_of_open hstate,
          fun now => UpstreamCB.recordFailure_of_open now hstate⟩, ?_,
        fun h => absurd (hstate.symm.trans h) (by decide)⟩
      · intro e t' _
        exact ⟨fun hopens => absurd hstate hopens.1, fun hcall => absurd hcall.2 hnot⟩
      · intro _
        refine ⟨r, hopening, fun now _ _ => ?_⟩
        -- The sum stays far below the end of a `u64`.
        have hsum : (t.slot.lastFailureTime + resetTimeoutSecs) % 2 ^ 64 = r.time + resetTimeoutSecs := by
          rw [htime]
          apply Nat.mod_eq_of_lt
          unfold clockRange at hrange
          unfold resetTimeoutSecs
          omega
        rw [UpstreamCB.isOpen_of_open now hstate, hsum]
  | halfOpen hstate =>
      have hopen : t.slot.state ≠ stateOpen := hstate.trans_ne (by decide)
      refine ⟨Or.inr (Or.inr hstate), fun h => absurd (hstate.symm.trans h) (by decide), ?_,
        fun h => absurd h hopen, fun h => absurd h hopen,
        fun _ => UpstreamCB.recordSuccess_of_halfOpen hstate⟩
      intro e t' hstep
      rcases step_eq_some.1 hstep with ⟨-, rfl⟩
      have hiff := opens_iff e.1 e.2 hopen (Or.inr hstate)
      refine ⟨fun hopens => ⟨(hiff.1 hopens.2).1, Or.inr hstate⟩, fun hcall => ⟨hopen, ?_⟩⟩
      exact hiff.2 ⟨hcall.1, Or.inr hstate⟩

/-- The law holds in every state that any sequence of calls on a fresh slot can reach. -/
theorem trace_law {calls : List (ℕ × Call)} (hrun : run step {} calls = some t) : Law t :=
  law_of_remembers (invariant_run remembers_step (.closed rfl rfl (by decide)) hrun)

/-- Fifty failures in the fifth second. -/
theorem trace_law_tripped :
    ∃ t, run step {} (List.replicate failureThreshold (5, .recordFailure)) = some t ∧
      t.slot.state = stateOpen ∧ Law t := by
  have hstate : (run step {} (List.replicate failureThreshold (5, .recordFailure))).map
      (fun t => t.slot.state) = some stateOpen := by
    decide +kernel
  rcases Option.map_eq_some_iff.1 hstate with ⟨t, hrun, hopen⟩
  exact ⟨t, hrun, hopen, trace_law hrun⟩

end Trace

end CircuitBreaker
end GatewayEdge
