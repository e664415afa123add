import GatewayEdge.FleetCounts

/-!
# SyncBreaker — the breaker of a sync thread

A thread has one call out at most, and gives every call back.  So its breaker goes through a session of its
own, and the counters of the thread say the same as those of the breaker.
-/

namespace GatewayEdge
namespace SyncThread

open Foundation
open RedisCb (RedisCallOutcome CbConfig CircuitBreaker Session)
open RateLimit (SyncMsg)

variable {p : Setting} {s t : Fleet} {e : Event} {es : List Event}

/-! ## The counters of the breaker -/

section Counters

variable {cfg : CbConfig} (pid now : ℕ) (b : CircuitBreaker)

/-- An acquire counts nothing but a refusal. -/
theorem acquire_counters (hcfg : cfg.Valid) :
    (b.acquire cfg pid now).1.redisSuccessTotal = b.redisSuccessTotal ∧
    (b.acquire cfg pid now).1.redisErrorsTotal = b.redisErrorsTotal ∧
    (b.acquire cfg pid now).1.redisTimeoutsTotal = b.redisTimeoutsTotal ∧
    (b.acquire cfg pid now).1.circuitRejectedTotal =
      b.circuitRejectedTotal + if (b.acquire cfg pid now).2.isOk then 0 else 1 := by
  have hacquired := CircuitBreaker.acquire_acquired pid hcfg now b
  generalize b.acquire cfg pid now = r at hacquired
  cases hacquired with
  | closedOk hstate hroom => exact ⟨rfl, rfl, rfl, rfl⟩
  | closedFull hstate hfull => exact ⟨rfl, rfl, rfl, rfl⟩
  | stillOpen hstate hcool => exact ⟨rfl, rfl, rfl, rfl⟩
  | firstProbe hstate hcool hroom => exact ⟨rfl, rfl, rfl, rfl⟩
  | enteredFull hstate hcool hfull => exact ⟨rfl, rfl, rfl, rfl⟩
  | rearmed hstate htime => exact ⟨rfl, rfl, rfl, rfl⟩
  | probe hstate htime hbudget hroom => exact ⟨rfl, rfl, rfl, rfl⟩
  | probeRefused hstate htime hfull outcome => exact ⟨rfl, rfl, rfl, rfl⟩

/-- A release counts its outcome. -/
theorem release_counters (cfg : CbConfig) (outcome : RedisCallOutcome) (latencyUs : ℕ) :
    (b.release cfg pid now outcome latencyUs).redisSuccessTotal =
      b.redisSuccessTotal + (if outcome = .success then 1 else 0) ∧
    (b.release cfg pid now outcome latencyUs).redisErrorsTotal =
      b.redisErrorsTotal + (if outcome = .redisError then 1 else 0) ∧
    (b.release cfg pid now outcome latencyUs).redisTimeoutsTotal =
      b.redisTimeoutsTotal + (if outcome = .timeout then 1 else 0) ∧
    (b.release cfg pid now outcome latencyUs).circuitRejectedTotal = b.circuitRejectedTotal := by
  have hreleased := CircuitBreaker.release_released cfg pid now outcome latencyUs b
  generalize b.release cfg pid now outcome latencyUs = r at hreleased
  cases hreleased with
  | kept => exact ⟨rfl, rfl, rfl, rfl⟩
  | tripped hstate => exact ⟨rfl, rfl, rfl, rfl⟩
  | closed hstate houtcome hsuccesses hrecovered => exact ⟨rfl, rfl, rfl, rfl⟩

end Counters

/-! ## One call at a time -/

/-- What a call that was let through can come to. -/
def Reported (result : Outcome) : Prop :=
  (∃ value, result = .ok value) ∨ ∃ outcome, result = .error outcome ∧ Failed outcome

structure Guarded (p : Setting) (w : ℕ) (a : Worker) : Prop where
  session : ∃ calls, (∀ call ∈ calls, call.Reports) ∧
    run (Session.step p.cfg (p.pid w)) (Session.start p.cfg) calls = some a.breaker
  out : a.breaker.outstanding.length = a.phase.message.length
  result : ∀ msg result, a.phase = .returned msg result → Reported result
  ok : a.syncsOk = a.breaker.breaker.redisSuccessTotal
  err : a.syncsErr = a.breaker.breaker.redisErrorsTotal + a.breaker.breaker.redisTimeoutsTotal +
    a.breaker.breaker.circuitRejectedTotal
  handled : a.syncsOk + a.syncsErr = a.handled.length

theorem guarded_start (w : ℕ) : Guarded p w (Worker.start p) where
  session := ⟨[], by simp, rfl⟩
  out := rfl
  result := by
    intro msg result h
    cases h
  ok := rfl
  err := rfl
  handled := rfl

section Moves

variable {w : ℕ} {a b : Worker} {ran : Option (SyncMsg × ℤ)}

/-- Only the phase has changed, and the thread is still at a message or at none. -/
theorem Guarded.of_phase (h : Guarded p w a) (hbreaker : b.breaker = a.breaker)
    (hmessage : b.phase.message.length = a.phase.message.length)
    (hresult : ∀ msg result, b.phase = .returned msg result → Reported result)
    (hok : b.syncsOk = a.syncsOk) (herr : b.syncsErr = a.syncsErr) (hhandled : b.handled = a.handled) :
    Guarded p w b where
  session := hbreaker ▸ h.session
  out := by
    rw [hbreaker, hmessage]
    exact h.out
  result := hresult
  ok := by
    rw [hbreaker, hok]
    exact h.ok
  err := by
    rw [hbreaker, herr]
    exact h.err
  handled := by
    rw [hok, herr, hhandled]
    exact h.handled

theorem Guarded.session_append (h : Guarded p w a) {call : RedisCb.Event} {breaker : Session}
    (hcall : call.Reports) (hstep : Session.step p.cfg (p.pid w) a.breaker call = some breaker) :
    ∃ calls, (∀ call ∈ calls, call.Reports) ∧
      run (Session.step p.cfg (p.pid w)) (Session.start p.cfg) calls = some breaker := by
  rcases h.session with ⟨calls, hreports, hrun⟩
  refine ⟨calls ++ [call], ?_, ?_⟩
  · intro c hc
    rcases List.mem_append.1 hc with hold | hnew
    · exact hreports c hold
    · rw [List.mem_singleton.1 hnew]
      exact hcall
  · exact run_append_eq_some.2 ⟨a.breaker, hrun, run_cons_eq_some.2 ⟨breaker, hstep, rfl⟩⟩

/-- What the session says of an acquire. -/
theorem session_acquire {nowMs : ℕ} {breaker : Session}
    (hstep : Session.step p.cfg (p.pid w) a.breaker (.acquire nowMs) = some breaker) :
    breaker = a.breaker.acquired nowMs (a.breaker.breaker.acquire p.cfg (p.pid w) nowMs) := by
  unfold Session.step at hstep
  dsimp only at hstep
  split at hstep
  · cases hstep
  · exact (Option.some.inj hstep).symm

theorem session_release {nowMs call latencyUs : ℕ} {outcome : RedisCallOutcome} {breaker : Session}
    (hstep : Session.step p.cfg (p.pid w) a.breaker (.release nowMs call outcome latencyUs) = some breaker) :
    breaker = a.breaker.released nowMs call outcome
      (a.breaker.breaker.release p.cfg (p.pid w) nowMs outcome latencyUs) := by
  unfold Session.step at hstep
  dsimp only at hstep
  split at hstep
  · cases hstep
  · exact (Option.some.inj hstep).symm

theorem acquire_reports (nowMs : ℕ) : RedisCb.Event.Reports (.acquire nowMs) := trivial

theorem releaseOutcome_reports {result : Outcome} (h : Reported result) (nowMs call latencyUs : ℕ) :
    RedisCb.Event.Reports (.release nowMs call (releaseOutcome result) latencyUs) := by
  rcases h with ⟨value, rfl⟩ | ⟨outcome, rfl, rfl | rfl⟩
  · exact Or.inl rfl
  · exact Or.inr (Or.inr rfl)
  · exact Or.inr (Or.inl rfl)

/-- A slot is taken for the message the thread is now at. -/
theorem guarded_letThrough (hcfg : p.cfg.Valid) (h : Guarded p w a) {msg : SyncMsg} {rest : List SyncMsg}
    {nowMs : ℕ} {breaker : Session} (hphase : a.phase = .waiting)
    (hstep : Session.step p.cfg (p.pid w) a.breaker (.acquire nowMs) = some breaker)
    (hacquired : (a.breaker.breaker.acquire p.cfg (p.pid w) nowMs).2 = .ok ()) :
    Guarded p w { a with queue := rest, breaker := breaker, phase := .calling msg } := by
  have hbreaker := session_acquire hstep
  rcases acquire_counters (p.pid w) nowMs a.breaker.breaker hcfg with
    ⟨hsuccess, herrors, htimeouts, hrejected⟩
  rw [hacquired] at hrejected
  have hout := h.out
  rw [hphase] at hout
  refine
    { session := h.session_append (acquire_reports nowMs) hstep
      out := ?_
      result := fun m r hr => by cases hr
      ok := ?_
      err := ?_
      handled := h.handled }
  · dsimp only
    rw [hbreaker]
    unfold Session.acquired
    rw [hacquired]
    exact congrArg (· + 1) hout
  · rw [hbreaker]
    exact h.ok.trans hsuccess.symm
  · rw [hbreaker]
    unfold Session.acquired
    dsimp only
    rw [herrors, htimeouts, hrejected]
    exact h.err

/-- A refusal takes no slot, and is an error on both sides. -/
theorem guarded_refused (hcfg : p.cfg.Valid) (h : Guarded p w a) {msg : SyncMsg} {rest : List SyncMsg}
    {nowMs : ℕ} {breaker : Session} {outcome : RedisCallOutcome} (hphase : a.phase = .waiting)
    (hstep : Session.step p.cfg (p.pid w) a.breaker (.acquire nowMs) = some breaker)
    (hacquired : (a.breaker.breaker.acquire p.cfg (p.pid w) nowMs).2 = .error outcome) :
    Guarded p w (Fleet.done { a with queue := rest } msg (.error outcome) breaker) := by
  have hbreaker := session_acquire hstep
  rcases acquire_counters (p.pid w) nowMs a.breaker.breaker hcfg with
    ⟨hsuccess, herrors, htimeouts, hrejected⟩
  rw [hacquired] at hrejected
  have hout := h.out
  rw [hphase] at hout
  refine
    { session := h.session_append (acquire_reports nowMs) hstep
      out := ?_
      result := fun m r hr => by cases hr
      ok := ?_
      err := ?_
      handled := ?_ }
  · unfold Fleet.done
    dsimp only
    rw [hbreaker]
    unfold Session.acquired
    rw [hacquired]
    exact hout
  · unfold Fleet.done
    dsimp only
    rw [hbreaker]
    exact h.ok.trans hsuccess.symm
  · unfold Fleet.done
    dsimp only
    rw [hbreaker]
    unfold Session.acquired
    dsimp only
    rw [herrors, htimeouts, hrejected, h.err]
    rfl
  · unfold Fleet.done
    dsimp only
    rw [List.length_append, ← h.handled]
    rfl

/-- The slot is given back, and the outcome is counted on both sides. -/
theorem guarded_finished (h : Guarded p w a) {msg : SyncMsg} {result : Outcome} {nowMs latencyUs call : ℕ}
    {rest : List ℕ} {breaker : Session} (hphase : a.phase = .returned msg result)
    (hout : a.breaker.outstanding = call :: rest)
    (hstep : Session.step p.cfg (p.pid w) a.breaker
      (.release nowMs call (releaseOutcome result) latencyUs) = some breaker) :
    Guarded p w (Fleet.done a msg result breaker) := by
  have hreported := h.result msg result hphase
  have hbreaker := session_release hstep
  rcases release_counters (p.pid w) nowMs a.breaker.breaker p.cfg
    (releaseOutcome result) latencyUs with ⟨hsuccess, herrors, htimeouts, hrejected⟩
  have hlength := h.out
  rw [hphase, hout] at hlength
  have hok := h.ok
  have herr := h.err
  have hhandled := h.handled
  refine
    { session := h.session_append (releaseOutcome_reports hreported nowMs call latencyUs) hstep
      out := ?_
      result := fun m r hr => by cases hr
      ok := ?_
      err := ?_
      handled := ?_ }
  · unfold Fleet.done
    dsimp only
    rw [hbreaker]
    unfold Session.released
    dsimp only
    rw [hout, List.erase_cons_head]
    exact Nat.succ.inj hlength
  · unfold Fleet.done
    dsimp only
    rw [hbreaker]
    unfold Session.released
    dsimp only
    rw [hsuccess]
    rcases hreported with ⟨value, rfl⟩ | ⟨outcome, rfl, rfl | rfl⟩
    · exact congrArg (· + 1) hok
    · exact hok
    · exact hok
  · unfold Fleet.done
    dsimp only
    rw [hbreaker]
    unfold Session.released
    dsimp only
    rw [herrors, htimeouts, hrejected]
    -- The breaker counts errors and timeouts apart, the thread together.
    rcases hreported with ⟨value, rfl⟩ | ⟨outcome, rfl, rfl | rfl⟩
    · exact herr
    · dsimp only [releaseOutcome]
      simp only [reduceCtorEq, if_false, if_true]
      omega
    · dsimp only [releaseOutcome]
      simp only [reduceCtorEq, if_false, if_true]
      omega
  · unfold Fleet.done
    dsimp only
    rw [List.length_append, ← hhandled]
    cases result with
    | ok value => exact Nat.add_right_comm _ _ _
    | error outcome => rfl

/-- A command changes the phase alone; the breaker is only asked before the first and told after the last. -/
theorem guarded_move (hcfg : p.cfg.Valid) (h : Guarded p w a) (hm : Move p w a b ran) : Guarded p w b := by
  cases hm with
  | queued more => exact h.of_phase rfl rfl h.result rfl rfl rfl
  | letThrough msg rest nowMs breaker hphase hqueue hstep hacquired =>
      exact guarded_letThrough hcfg h hphase hstep hacquired
  | refused msg rest nowMs breaker outcome hphase hqueue hstep hacquired =>
      exact guarded_refused hcfg h hphase hstep hacquired
  | connected msg hphase =>
      refine h.of_phase rfl ?_ ?_ rfl rfl rfl
      · rw [hphase]
        dsimp only
        split
        · rfl
        · rfl
      · intro m r hr
        dsimp only at hr
        split at hr
        · cases hr
        · cases hr
  | unreachable msg hphase =>
      refine h.of_phase rfl (by rw [hphase]; rfl) ?_ rfl rfl rfl
      intro m r hr
      cases hr
      exact Or.inr ⟨_, rfl, Or.inr rfl⟩
  | executed msg value result hphase hresult =>
      refine h.of_phase rfl ?_ ?_ rfl rfl rfl
      · rcases hphase with hphase | hphase
        · rw [hphase]
          rfl
        · rw [hphase]
          rfl
      · intro m r hr
        cases hr
        exact hresult.imp_left fun hok => ⟨value, hok⟩
  | failed msg outcome hphase hfailed =>
      refine h.of_phase rfl ?_ ?_ rfl rfl rfl
      · rcases hphase with hphase | hphase | hphase
        · rw [hphase]
          rfl
        · rw [hphase]
          rfl
        · rw [hphase]
          rfl
      · intro m r hr
        cases hr
        exact Or.inr ⟨outcome, rfl, hfailed⟩
  | missing msg hphase =>
      refine h.of_phase rfl (by rw [hphase]; rfl) ?_ rfl rfl rfl
      intro m r hr
      cases hr
  | loaded msg hphase =>
      refine h.of_phase rfl (by rw [hphase]; rfl) ?_ rfl rfl rfl
      intro m r hr
      cases hr
  | finished msg result nowMs latencyUs call rest breaker hphase hout hstep =>
      exact guarded_finished h hphase hout hstep

end Moves

theorem guarded_step (hcfg : p.cfg.Valid) (hs : ∀ w, Guarded p w (s.workers w)) (he : e.Honest)
    (h : step p s e = some t) (w : ℕ) : Guarded p w (t.workers w) := by
  rcases step_moves he h with ⟨v, b, ran, hm⟩ | ⟨hworkers, -⟩
  · rw [hm.workers]
    by_cases hw : w = v
    · subst hw
      rw [Function.update_self]
      exact guarded_move hcfg (hs w) hm.move
    · rw [Function.update_of_ne hw]
      exact hs w
  · rw [hworkers]
    exact hs w

/-- In every run of the fleet each thread takes its breaker through a session of acquires and releases, of which
each release reports what Redis has done.  One slot is taken while the thread is at a message and none
otherwise, the successful messages are those that the breaker counts as successes, and the failed ones those
that it counts as errors, timeouts or refusals. -/
theorem threads_keep_the_breaker (hcfg : p.cfg.Valid) {clockMs : ℕ} {loaded : Bool} {shm : ℕ → ℕ → ℕ}
    (hhonest : ∀ e ∈ es, e.Honest)
    (hrun : run (step p) (Fleet.start p clockMs loaded shm) es = some s) (w : ℕ) :
    (∃ calls, (∀ call ∈ calls, call.Reports) ∧
      run (Session.step p.cfg (p.pid w)) (Session.start p.cfg) calls = some (s.workers w).breaker) ∧
    (s.workers w).breaker.breaker.inflight = ((s.workers w).phase.message.length : ℤ) ∧
    (s.workers w).syncsOk = (s.workers w).breaker.breaker.redisSuccessTotal ∧
    (s.workers w).syncsErr = (s.workers w).breaker.breaker.redisErrorsTotal +
      (s.workers w).breaker.breaker.redisTimeoutsTotal +
      (s.workers w).breaker.breaker.circuitRejectedTotal ∧
    (s.workers w).syncsOk + (s.workers w).syncsErr = (s.workers w).handled.length := by
  have hs : ∀ w, Guarded p w (s.workers w) := invariant_run_along
    (I := fun s : Fleet => ∀ w, Guarded p w (s.workers w)) (P := fun _ e => e.Honest)
    (fun _ _ _ hs he h => guarded_step hcfg hs he h) guarded_start (along_of_forall hhonest _) hrun
  rcases (hs w).session with ⟨calls, hreports, hcalls⟩
  refine ⟨⟨calls, hreports, hcalls⟩, ?_, (hs w).ok, (hs w).err, (hs w).handled⟩
  rw [(Session.invariant_reachable hcfg hcalls).slots.inflight, (hs w).out]

theorem sampleSetting_valid : sampleSetting.cfg.Valid := CbConfig.fromEnv_valid fun _ => none

theorem one_slot_while_at_a_message : ∃ s,
    run (step sampleSetting) (Fleet.start sampleSetting 7000 false fun _ _ => 0) replyLostRun = some s ∧
    (s.workers 0).breaker.breaker.inflight = ((s.workers 0).phase.message.length : ℤ) := by
  have hlaw : ∀ s, run (step sampleSetting) (Fleet.start sampleSetting 7000 false fun _ _ => 0) replyLostRun =
      some s → (s.workers 0).breaker.breaker.inflight = ((s.workers 0).phase.message.length : ℤ) :=
    fun s hrun => (threads_keep_the_breaker sampleSetting_valid replyLostRun_honest hrun 0).2.1
  exact ⟨_, rfl, hlaw _ rfl⟩

end SyncThread
end GatewayEdge
