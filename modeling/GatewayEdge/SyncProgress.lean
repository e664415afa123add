import GatewayEdge.SyncBreaker

/-!
# SyncProgress — the sync threads get on

However commands and replies are lost, and whatever the server forgets, a thread that has something to do can
always take its next step, and a message takes six of its steps at most.  So what is queued is handled, once
the thread has run for long enough.
-/

namespace GatewayEdge
namespace SyncThread

open Foundation
open RedisCb (Session)
open RateLimit (SyncMsg)

variable {p : Setting} {s t : Fleet} {e : Event} {es : List Event} {w : ℕ}

/-- The step is one of this worker's thread. -/
def Event.isOf (w : ℕ) : Event → Bool
  | .receive v _ => v == w
  | .connect v _ => v == w
  | .command v _ => v == w
  | .finish v _ _ _ => v == w
  | _ => false

/-- The steps that may have been spent on a message when the thread is that far with it. -/
def Phase.spent : Phase → ℕ
  | .waiting => 0
  | .calling _ => 1
  | .evalsha _ => 2
  | .scriptLoad _ => 3
  | .eval _ => 4
  | .returned _ _ => 5

/-- Six steps for each message handled, and those for the one the thread is at. -/
def Worker.spent (a : Worker) : ℕ := 6 * a.handled.length + a.phase.spent

theorem Phase.spent_lt (phase : Phase) : phase.spent < 6 := by
  cases phase <;> exact Nat.le_of_ble_eq_true rfl

theorem spent_of_phase {a : Worker} {phase : Phase} (h : a.phase = phase) :
    a.spent = 6 * a.handled.length + phase.spent := by
  rw [← h]
  rfl

theorem spent_done (a : Worker) (msg : SyncMsg) (result : Outcome) (breaker : Session) :
    (Fleet.done a msg result breaker).spent = 6 * a.handled.length + 6 := by
  have hphase : (Fleet.done a msg result breaker).phase = .waiting := rfl
  have hhandled : (Fleet.done a msg result breaker).handled = a.handled ++ [(msg, result)] := rfl
  rw [spent_of_phase hphase, hhandled, List.length_append, List.length_singleton]
  exact Nat.mul_succ 6 _

/-! ## Every step of a thread counts -/

/-- The thread gets further with its message. -/
theorem spent_setPhase {before after : Phase} (hphase : (s.workers w).phase = before)
    (hfurther : before.spent < after.spent) :
    (s.workers w).spent < ((s.setPhase w after).workers w).spent := by
  have hself : (s.setPhase w after).workers w = { s.workers w with phase := after } := Function.update_self ..
  rw [hself, spent_of_phase hphase]
  exact Nat.add_lt_add_left hfurther _

theorem spent_setWorker {a : Worker} (h : (s.workers w).spent < a.spent) :
    (s.workers w).spent < ((s.setWorker w a).workers w).spent := by
  have hself : (s.setWorker w a).workers w = a := Function.update_self ..
  rw [hself]
  exact h

theorem spent_afterEvalsha (msg : SyncMsg) (e : RedisError) :
    (Phase.evalsha msg).spent < (afterEvalsha msg e).spent := by
  unfold afterEvalsha
  split
  · exact Nat.le_of_ble_eq_true rfl
  · exact Nat.le_of_ble_eq_true rfl

theorem spent_receive {nowMs : ℕ} (h : receive p s w nowMs = some t) :
    (s.workers w).spent < (t.workers w).spent := by
  unfold receive at h
  dsimp only at h
  split at h
  · rename_i msg rest hphase hqueue
    split at h
    · cases h
    · split at h
      · cases h
        refine spent_setWorker ?_
        rw [spent_of_phase hphase]
        exact Nat.lt_succ_self _
      · cases h
        refine spent_setWorker ?_
        rw [spent_of_phase hphase, spent_done]
        exact Nat.lt_add_of_pos_right (by decide)
  · cases h

theorem spent_command {fate : Fate} (h : command p s w fate = some t) :
    (s.workers w).spent < (t.workers w).spent := by
  unfold command at h
  split at h
  · rename_i msg hphase
    cases fate with
    | replied =>
        dsimp only at h
        split at h
        · cases h
          exact @spent_setPhase (s.execute w msg) w _ _ hphase (Nat.le_of_ble_eq_true rfl)
        · cases h
          exact spent_setPhase hphase (spent_afterEvalsha msg _)
    | lost e =>
        cases h
        exact spent_setPhase hphase (spent_afterEvalsha msg e)
    | replyLost e =>
        dsimp only at h
        split at h
        · cases h
          exact @spent_setPhase (s.execute w msg) w _ _ hphase (spent_afterEvalsha msg e)
        · cases h
          exact spent_setPhase hphase (spent_afterEvalsha msg e)
  · rename_i msg hphase
    cases fate with
    | replied =>
        cases h
        refine @spent_setWorker { s with loaded := true } w _ ?_
        dsimp only
        rw [spent_of_phase hphase]
        exact Nat.add_lt_add_left (Nat.le_of_ble_eq_true rfl) _
    | lost e =>
        cases h
        exact spent_setPhase hphase (Nat.le_of_ble_eq_true rfl)
    | replyLost e =>
        cases h
        exact @spent_setPhase { s with loaded := true } w _ _ hphase (Nat.le_of_ble_eq_true rfl)
  · rename_i msg hphase
    cases fate with
    | replied =>
        cases h
        exact @spent_setPhase (s.execute w msg) w _ _ hphase (Nat.le_of_ble_eq_true rfl)
    | lost e =>
        cases h
        exact spent_setPhase hphase (Nat.le_of_ble_eq_true rfl)
    | replyLost e =>
        cases h
        exact @spent_setPhase (s.execute w msg) w _ _ hphase (Nat.le_of_ble_eq_true rfl)
  · cases h

theorem spent_finish {nowMs latencyUs : ℕ} {exchangeLost : Bool}
    (h : finish p s w nowMs latencyUs exchangeLost = some t) : (s.workers w).spent < (t.workers w).spent := by
  unfold finish at h
  dsimp only at h
  split at h
  · rename_i msg result call rest hphase hout
    split at h
    · cases h
    · cases h
      refine @spent_setWorker { s with shm := _ } w _ ?_
      show (s.workers w).spent < _
      rw [spent_of_phase hphase, spent_done]
      exact Nat.add_lt_add_left (Nat.le_of_ble_eq_true rfl) _
  · cases h

theorem spent_of_own (hown : e.isOf w = true) (h : step p s e = some t) :
    (s.workers w).spent < (t.workers w).spent := by
  cases e with
  | tick clockMs => cases hown
  | flush data => cases hown
  | call v nowSecs maxRps user => cases hown
  | receive v nowMs =>
      rw [← beq_iff_eq.1 hown]
      exact spent_receive h
  | connect v opened =>
      rw [← beq_iff_eq.1 hown]
      unfold step at h
      dsimp only at h
      split at h
      · rename_i msg hphase
        split at h
        · cases h
          refine spent_setWorker ?_
          rw [spent_of_phase hphase]
          refine Nat.add_lt_add_left ?_ _
          dsimp only
          split
          · exact Nat.le_of_ble_eq_true rfl
          · exact Nat.le_of_ble_eq_true rfl
        · cases h
          exact spent_setPhase hphase (Nat.le_of_ble_eq_true rfl)
      · cases h
  | command v fate =>
      rw [← beq_iff_eq.1 hown]
      exact spent_command h
  | finish v nowMs latencyUs exchangeLost =>
      rw [← beq_iff_eq.1 hown]
      exact spent_finish h

/-- Steps that are not the thread's own leave it where it is. -/
theorem spent_of_other (he : e.Honest) (hother : e.isOf w = false) (h : step p s e = some t) :
    (t.workers w).spent = (s.workers w).spent := by
  have hworker : ∀ {v : ℕ} {b : Worker} {ran : Option (SyncMsg × ℤ)}, (v == w) = false → Moves p s t v b ran →
      (t.workers w).spent = (s.workers w).spent := by
    intro v b ran hv hm
    rw [hm.workers, Function.update_of_ne (Ne.symm (ne_of_beq_false hv))]
  cases e with
  | tick clockMs =>
      unfold step at h
      dsimp only at h
      split at h
      · cases h
        rfl
      · cases h
  | flush data =>
      cases h
      rfl
  | call v nowSecs maxRps user =>
      cases h
      show Worker.spent (Function.update s.workers v _ w) = _
      by_cases hv : w = v
      · subst hv
        rw [Function.update_self]
        rfl
      · rw [Function.update_of_ne hv]
  | receive v nowMs =>
      rcases receive_moves h with ⟨b, hm⟩
      exact hworker hother hm
  | connect v opened =>
      rcases connect_moves h with ⟨b, hm⟩
      exact hworker hother hm
  | command v fate =>
      rcases command_moves he h with ⟨b, ran, hm⟩
      exact hworker hother hm
  | finish v nowMs latencyUs exchangeLost =>
      rcases finish_moves h with ⟨b, hm⟩
      exact hworker hother hm

/-- In a run the thread has spent a step for each of its own. -/
theorem spent_run (hhonest : ∀ e ∈ es, e.Honest) (hrun : run (step p) s es = some t) :
    (s.workers w).spent + es.countP (Event.isOf w) ≤ (t.workers w).spent := by
  refine countP_le_of_rises (f := fun s : Fleet => (s.workers w).spent) (P := fun _ e => e.Honest) ?_ ?_
    (along_of_forall hhonest s) hrun
  · intro s e s' he h
    cases hown : e.isOf w with
    | true => exact (spent_of_own hown h).le
    | false => exact (spent_of_other he hown h).ge
  · exact fun s e s' _ hown h => spent_of_own hown h

/-! ## What has been queued stays -/

theorem queued_move {a b : Worker} {ran : Option (SyncMsg × ℤ)} (hm : Move p w a b ran) :
    a.queued <+: b.queued := by
  cases hm with
  | queued more => exact List.prefix_append _ _
  | letThrough => exact List.prefix_rfl
  | refused => exact List.prefix_rfl
  | connected => exact List.prefix_rfl
  | unreachable => exact List.prefix_rfl
  | executed => exact List.prefix_rfl
  | failed => exact List.prefix_rfl
  | missing => exact List.prefix_rfl
  | loaded => exact List.prefix_rfl
  | finished => exact List.prefix_rfl

theorem queued_step (he : e.Honest) (h : step p s e = some t) :
    (s.workers w).queued <+: (t.workers w).queued := by
  rcases step_moves he h with ⟨v, b, ran, hm⟩ | ⟨hworkers, -⟩
  · rw [hm.workers]
    by_cases hv : w = v
    · subst hv
      rw [Function.update_self]
      exact queued_move hm.move
    · rw [Function.update_of_ne hv]
  · rw [hworkers]

theorem queued_run (hhonest : ∀ e ∈ es, e.Honest) (hrun : run (step p) s es = some t) :
    (s.workers w).queued <+: (t.workers w).queued :=
  invariant_run_along (I := fun t : Fleet => (s.workers w).queued <+: (t.workers w).queued)
    (P := fun _ e => e.Honest) (fun _ _ _ hs he h => hs.trans (queued_step he h)) List.prefix_rfl
    (along_of_forall hhonest s) hrun

/-! ## The next step -/

/-- The thread is at a message, or has one waiting. -/
def Worker.HasWork (a : Worker) : Prop := a.phase ≠ .waiting ∨ a.queue ≠ []

/-- The thread can take a step of its own. -/
def CanMove (p : Setting) (s : Fleet) (w : ℕ) : Prop :=
  ∃ e, e.isOf w = true ∧ e.Honest ∧ (step p s e).isSome = true

theorem canMove_of_command (fate : Fate) (hhonest : (Event.command w fate).Honest)
    (h : (command p s w fate).isSome = true) : CanMove p s w :=
  ⟨.command w fate, beq_self_eq_true w, hhonest, h⟩

theorem canMove_of_work (h : Guarded p w (s.workers w)) (hwork : (s.workers w).HasWork) : CanMove p s w := by
  cases hphase : (s.workers w).phase with
  | waiting =>
      cases hqueue : (s.workers w).queue with
      | nil => exact absurd hwork (not_or.2 ⟨not_not.2 hphase, not_not.2 hqueue⟩)
      | cons msg rest =>
          refine ⟨.receive w (s.workers w).breaker.clock, beq_self_eq_true w, trivial, ?_⟩
          unfold step receive Session.step
          dsimp only
          rw [hphase, hqueue]
          dsimp only
          rw [if_neg (lt_irrefl _)]
          dsimp only
          split
          · rfl
          · rfl
  | calling msg =>
      refine ⟨.connect w true, beq_self_eq_true w, trivial, ?_⟩
      unfold step
      dsimp only
      rw [hphase, Bool.or_true]
      rfl
  | evalsha msg =>
      -- A command can be lost whatever the server has.
      refine canMove_of_command (.lost { kind := .other, text := "" }) trivial ?_
      unfold command
      rw [hphase]
      rfl
  | scriptLoad msg =>
      refine canMove_of_command .replied trivial ?_
      unfold command
      rw [hphase]
      rfl
  | eval msg =>
      refine canMove_of_command .replied trivial ?_
      unfold command
      rw [hphase]
      rfl
  | returned msg result =>
      -- The session has the one call out that is to be given back.
      have hout := h.out
      rw [hphase] at hout
      rcases List.length_eq_one_iff.1 hout with ⟨call, hcall⟩
      refine ⟨.finish w (s.workers w).breaker.clock 0 false, beq_self_eq_true w, trivial, ?_⟩
      unfold step finish Session.step
      dsimp only
      rw [hphase, hcall]
      dsimp only
      rw [if_neg (by simp)]
      rfl

/-- In every run of the fleet, whatever is lost on the way to the server and back: a thread that has something
to do can take a step of its own; and when a thread has taken six steps for each message that was queued and
not yet handled at some moment, these messages have been handled, in the order in which they were queued. -/
theorem threads_get_on (hcfg : p.cfg.Valid) {clockMs : ℕ} {loaded : Bool} {shm : ℕ → ℕ → ℕ} {fs : List Event}
    (hhonest : ∀ e ∈ es ++ fs, e.Honest)
    (hrun : run (step p) (Fleet.start p clockMs loaded shm) es = some s)
    (hlater : run (step p) s fs = some t) (w : ℕ) :
    ((s.workers w).HasWork → CanMove p s w) ∧
    (6 * ((s.workers w).queued.length - (s.workers w).handled.length) ≤ fs.countP (Event.isOf w) →
      (s.workers w).queued <+: (t.workers w).handled.map Prod.fst) := by
  have hbefore : ∀ e ∈ es, e.Honest := fun e he => hhonest e (List.mem_append_left fs he)
  have hafter : ∀ e ∈ fs, e.Honest := fun e he => hhonest e (List.mem_append_right es he)
  have hguarded : Guarded p w (s.workers w) := invariant_run_along
    (I := fun s : Fleet => ∀ w, Guarded p w (s.workers w)) (P := fun _ e => e.Honest)
    (fun _ _ _ hs he h => guarded_step hcfg hs he h) guarded_start (along_of_forall hbefore _) hrun w
  refine ⟨canMove_of_work hguarded, fun hsteps => ?_⟩
  have hfifo := (ledger_run hhonest (run_append_eq_some.2 ⟨s, hrun, hlater⟩) w).fifo
  have hspent := spent_run (w := w) hafter hlater
  have hlength : (s.workers w).queued.length ≤ (t.workers w).handled.length := by
    have hlast := (t.workers w).phase.spent_lt
    unfold Worker.spent at hspent
    omega
  refine List.prefix_of_prefix_length_le (queued_run hafter hlater) ?_ (by rwa [List.length_map])
  rw [← hfifo]
  exact List.prefix_append _ _

/-- The thread takes Alice's message up and loses the reply, and takes up another one. -/
def laterRun : List Event :=
  [.receive 0 1000, .connect 0 true, .command 0 .replied,
    .command 0 (.replyLost { kind := .ioError, text := "timed out" }), .finish 0 1050 50000 false,
    .call 0 101 1 (some "alice"), .receive 0 2000]

theorem laterRun_honest : ∀ e ∈ [Event.call 0 100 1 (some "alice")] ++ laterRun, e.Honest := by
  have htext : RedisError.mentions { kind := .ioError, text := "timed out" } "NOSCRIPT" = false := by
    decide +kernel
  intro e he
  fin_cases he
  · trivial
  · trivial
  · trivial
  · trivial
  · exact htext
  · trivial
  · trivial
  · trivial

/-- Six steps of the thread after Alice's message was queued it has been handled. -/
theorem handled_in_six_steps : ∃ s t,
    run (step sampleSetting) (Fleet.start sampleSetting 7000 false fun _ _ => 0)
      [.call 0 100 1 (some "alice")] = some s ∧
    run (step sampleSetting) s laterRun = some t ∧ (s.workers 0).queued.length = 1 ∧
    (s.workers 0).queued <+: (t.workers 0).handled.map Prod.fst := by
  have hlaw : ∀ s t, run (step sampleSetting) (Fleet.start sampleSetting 7000 false fun _ _ => 0)
      [.call 0 100 1 (some "alice")] = some s → run (step sampleSetting) s laterRun = some t →
      6 * ((s.workers 0).queued.length - (s.workers 0).handled.length) ≤ laterRun.countP (Event.isOf 0) →
      (s.workers 0).queued <+: (t.workers 0).handled.map Prod.fst :=
    fun s t hrun hlater => (threads_get_on sampleSetting_valid laterRun_honest hrun hlater 0).2
  exact ⟨_, _, rfl, rfl, rfl, hlaw _ _ rfl rfl (Nat.le_of_eq rfl)⟩

end SyncThread
end GatewayEdge
