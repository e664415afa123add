import GatewayEdge.RedisCb.Session
import Mathlib.Data.Nat.Cast.Order.Ring

/-!
# RedisCb.Recovery — what it takes to close the circuit again

Two promises about HALF_OPEN → CLOSED: the successes that close the circuit are those of its own probes, and
a circuit that has just closed is not opened again by the same window.  The code keeps the first one for as
long as no older call succeeds while probing, and the second one for as long as the window holds few
timeouts.
-/

namespace GatewayEdge
namespace RedisCb

open Foundation
open Session (step start episode episode_cons_of_halfOpen episode_cons_of_entry)

/-! ## Evidence -/

/-- The call was let through during the episode. -/
def AdmittedIn (call : Nat) (ep : List Record) : Prop := ∃ r ∈ ep, r.action = .acquire call true

instance (call : Nat) (ep : List Record) : Decidable (AdmittedIn call ep) :=
  inferInstanceAs (Decidable (∃ r ∈ ep, _))

/-- A success of a call that was let through during the episode. -/
def OwnSuccess (ep : List Record) (r : Record) : Prop :=
  match r.action with
  | .release call .success => AdmittedIn call ep
  | _ => False

instance (ep : List Record) (r : Record) : Decidable (OwnSuccess ep r) := by
  unfold OwnSuccess
  split <;> infer_instance

def ownSuccesses (ep : List Record) : Nat := ep.countP fun r => OwnSuccess ep r

/-- Every HALF_OPEN → CLOSED transition of the history comes with enough successes of probes of its own
episode. -/
def ClosedOnEvidence (cfg : CbConfig) : List Record → Prop
  | [] => True
  | r :: h =>
    (r.before = .halfOpen ∧ r.after = .closed →
      cfg.recoverySuccesses ≤ ownSuccesses (r :: episode h)) ∧ ClosedOnEvidence cfg h

/-- A success that arrives in HALF_OPEN is that of a call of the current episode. -/
def OwnCompletion (s : Session) : Event → Prop
  | .release _ call .success _ => s.breaker.state = .halfOpen → AdmittedIn call (episode s.history)
  | _ => True

instance (s : Session) (e : Event) : Decidable (OwnCompletion s e) := by
  unfold OwnCompletion
  split <;> infer_instance

theorem OwnSuccess.mono {ep : List Record} (a r : Record) (h : OwnSuccess ep r) :
    OwnSuccess (a :: ep) r := by
  unfold OwnSuccess at h ⊢
  split
  · rename_i call hact
    rw [hact] at h
    rcases h with ⟨q, hq, hqa⟩
    exact ⟨q, List.mem_cons_of_mem _ hq, hqa⟩
  · rename_i hact
    revert h
    split <;> simp_all

/-- A record more takes no evidence away from the older ones. -/
theorem ownSuccesses_le_countP (ep : List Record) (a : Record) :
    ownSuccesses ep ≤ ep.countP fun r => OwnSuccess (a :: ep) r := by
  apply List.countP_mono_left
  intro r _ h
  simpa using OwnSuccess.mono a r (by simpa using h)

theorem ownSuccesses_le_cons (ep : List Record) (a : Record) :
    ownSuccesses ep ≤ ownSuccesses (a :: ep) := by
  calc
    ownSuccesses ep ≤ ep.countP fun r => OwnSuccess (a :: ep) r := ownSuccesses_le_countP ep a
    _ ≤ ownSuccesses (a :: ep) := by
        unfold ownSuccesses
        rw [List.countP_cons]
        exact Nat.le_add_right _ _

/-- An own success adds one. -/
theorem ownSuccesses_succ_le {ep : List Record} {call : Nat} {r : Record}
    (haction : r.action = .release call .success) (hcall : AdmittedIn call ep) :
    ownSuccesses ep + 1 ≤ ownSuccesses (r :: ep) := by
  have hown : OwnSuccess (r :: ep) r := by
    rcases hcall with ⟨q, hq, hqa⟩
    unfold OwnSuccess
    rw [haction]
    exact ⟨q, List.mem_cons_of_mem _ hq, hqa⟩
  calc
    ownSuccesses ep + 1 ≤ (ep.countP fun x => OwnSuccess (r :: ep) x) + 1 :=
      Nat.succ_le_succ (ownSuccesses_le_countP ep r)
    _ = ownSuccesses (r :: ep) := by
        unfold ownSuccesses
        rw [List.countP_cons_of_pos (by simpa using hown)]

/-- What carries the evidence along a run: the counter of HALF_OPEN successes never runs ahead of it. -/
structure Evidence (cfg : CbConfig) (s : Session) : Prop where
  counter : s.breaker.state = .halfOpen →
    s.breaker.halfOpenSuccesses.toNat ≤ ownSuccesses (episode s.history)
  closed : ClosedOnEvidence cfg s.history

section Run

variable {cfg : CbConfig} {pid : Nat} {s t : Session} {e : Event}

/-- The counter after a release in HALF_OPEN, when a success is that of an own call. -/
theorem counter_le_ownSuccesses {now call : Nat} {outcome : RedisCallOutcome} {lat : Nat} {r : Record}
    (hs : Evidence cfg s) (hown : OwnCompletion s (.release now call outcome lat))
    (haction : r.action = .release call outcome) (hstate : s.breaker.state = .halfOpen) :
    (s.breaker.counted now outcome lat).halfOpenSuccesses.toNat ≤
      ownSuccesses (r :: episode s.history) := by
  have hcounter := hs.counter hstate
  by_cases hsuccess : outcome = .success
  · subst hsuccess
    have hcounted : (s.breaker.counted now .success lat).halfOpenSuccesses =
        s.breaker.halfOpenSuccesses + 1 := by
      simp [CircuitBreaker.counted, hstate]
    rw [hcounted]
    calc
      (s.breaker.halfOpenSuccesses + 1).toNat ≤ s.breaker.halfOpenSuccesses.toNat + 1 := by
        rw [UInt32.toNat_add]
        exact Nat.mod_le _ _
      _ ≤ ownSuccesses (episode s.history) + 1 := Nat.succ_le_succ hcounter
      _ ≤ ownSuccesses (r :: episode s.history) := ownSuccesses_succ_le haction (hown hstate)
  · have hcounted : (s.breaker.counted now outcome lat).halfOpenSuccesses =
        s.breaker.halfOpenSuccesses := by
      simp [CircuitBreaker.counted, CircuitBreaker.completed, hsuccess]
    rw [hcounted]
    exact le_trans hcounter (ownSuccesses_le_cons _ _)

theorem evidence_step (hcfg : cfg.Valid) (hs : Evidence cfg s) (hown : OwnCompletion s e)
    (h : step cfg pid s e = some t) : Evidence cfg t := by
  rcases Session.step_cases hcfg h with
    ⟨now, r, rfl, -, hacq, rfl⟩ | ⟨now, call, outcome, lat, b, rfl, -, -, hrel, rfl⟩
  · -- No acquire closes the circuit.
    refine ⟨fun hhalf => ?_, fun hclose => absurd hclose.2 (hacq.not_closes hclose.1), hs.closed⟩
    change r.1.state = .halfOpen at hhalf
    change r.1.halfOpenSuccesses.toNat ≤ _
    rcases hacq.halfOpenSuccesses hhalf with hzero | ⟨hstate, hsame⟩
    · rw [hzero]
      exact Nat.zero_le _
    · unfold Session.acquired
      rw [episode_cons_of_halfOpen hstate hhalf, hsame]
      exact le_trans (hs.counter hstate) (ownSuccesses_le_cons _ _)
  · cases hrel with
    | kept =>
        refine ⟨fun hstate => ?_, fun hclose => ?_, hs.closed⟩
        · unfold Session.released
          rw [episode_cons_of_halfOpen hstate hstate]
          exact counter_le_ownSuccesses hs hown rfl hstate
        · cases hclose.1.symm.trans hclose.2
    | tripped _ => exact ⟨(fun h => by cases h), fun hclose => (by cases hclose.2), hs.closed⟩
    | closed hstate _ hsuccesses _ =>
        refine ⟨(fun h => by cases h), fun _ => ?_, hs.closed⟩
        exact le_trans hsuccesses (counter_le_ownSuccesses hs hown rfl hstate)

end Run

/-- In a run in which no call let through before the current episode succeeds while probing, the circuit
closes on the evidence of its own probes. -/
theorem closes_on_own_probes (env : EnvVars) (pid : Nat) (es : List Event) (s : Session)
    (hrun : run (step (CbConfig.fromEnv env) pid) (start (CbConfig.fromEnv env)) es = some s)
    (hown : Along (step (CbConfig.fromEnv env) pid) OwnCompletion (start (CbConfig.fromEnv env)) es) :
    ClosedOnEvidence (CbConfig.fromEnv env) s.history := by
  have hcfg := CbConfig.fromEnv_valid env
  have hstart : Evidence (CbConfig.fromEnv env) (start (CbConfig.fromEnv env)) :=
    ⟨(fun h => by cases h), trivial⟩
  exact (invariant_run_along (fun _ _ _ hs he h => evidence_step hcfg hs he h) hstart hown hrun).closed

instance decidableClosedOnEvidence (cfg : CbConfig) :
    ∀ h, Decidable (ClosedOnEvidence cfg h)
  | [] => isTrue trivial
  | _ :: h =>
    have : Decidable (ClosedOnEvidence cfg h) := decidableClosedOnEvidence cfg h
    inferInstanceAs (Decidable ((_ → _) ∧ ClosedOnEvidence cfg h))

/-- A failing call opens the circuit; twenty seconds later three probes succeed. -/
def cleanRecovery : List Event := [
  .acquire 1700000000000, .release 1700000000000 0 .redisError 100,
  .acquire 1700000020000, .acquire 1700000020000, .acquire 1700000020000,
  .release 1700000020001 2 .success 500, .release 1700000020002 3 .success 500,
  .release 1700000020003 4 .success 500]

theorem cleanRecovery_on_evidence :
    ∃ s, run (step (CbConfig.fromEnv impatientEnv) 1) (start (CbConfig.fromEnv impatientEnv)) cleanRecovery =
        some s ∧
      s.breaker.state = .closed ∧ ClosedOnEvidence (CbConfig.fromEnv impatientEnv) s.history := by
  have hclosed : (run (step (CbConfig.fromEnv impatientEnv) 1) (start (CbConfig.fromEnv impatientEnv))
      cleanRecovery).map (fun s => s.breaker.state) = some .closed := by
    decide +kernel
  have hown : Along (step (CbConfig.fromEnv impatientEnv) 1) OwnCompletion
      (start (CbConfig.fromEnv impatientEnv)) cleanRecovery := by
    decide +kernel
  rcases Option.map_eq_some_iff.1 hclosed with ⟨s, hrun, hstate⟩
  exact ⟨s, hrun, hstate, closes_on_own_probes impatientEnv 1 cleanRecovery s hrun hown⟩

/-- Three slow calls are out when a fourth one fails and opens the circuit.  Twenty seconds later one probe
is let through, and before it comes back the three old calls succeed. -/
def staleRecovery : List Event := [
  .acquire 1700000000000, .acquire 1700000000000, .acquire 1700000000000, .acquire 1700000000000,
  .release 1700000000000 3 .redisError 100,
  .acquire 1700000020000,
  .release 1700000020001 0 .success 500, .release 1700000020002 1 .success 500]

/-- They close the circuit, though not one probe of the episode has succeeded. -/
theorem staleRecovery_without_evidence :
    ∃ s, run (step (CbConfig.fromEnv impatientEnv) 1) (start (CbConfig.fromEnv impatientEnv))
        (staleRecovery ++ [.release 1700000020003 2 .success 500]) = some s ∧
      ¬ ClosedOnEvidence (CbConfig.fromEnv impatientEnv) s.history := by
  have hviolated : (run (step (CbConfig.fromEnv impatientEnv) 1) (start (CbConfig.fromEnv impatientEnv))
      (staleRecovery ++ [.release 1700000020003 2 .success 500])).map
        (fun s => decide (ClosedOnEvidence (CbConfig.fromEnv impatientEnv) s.history)) = some false := by
    decide +kernel
  rcases Option.map_eq_some_iff.1 hviolated with ⟨s, hrun, hs⟩
  exact ⟨s, hrun, of_decide_eq_false hs⟩

/-! ## Hysteresis -/

/-- What the window counts before the release: the calls it still holds once the bucket of this second is
cleared. -/
def statsBefore (cfg : CbConfig) (now : Nat) (w : RollingWindow) : WindowStats :=
  (w.atSecond (currentTs now)).aggregate cfg.windowSecs (currentTs now)

/-- A release that has closed the circuit leaves a window on which the detector stays quiet, if and only if
that window is too small to judge or holds few enough timeouts. -/
theorem closed_stays_closed_iff (env : EnvVars) (pid : Nat) (es : List Event) (s : Session)
    (now latencyUs : Nat)
    (hrun : run (step (CbConfig.fromEnv env) pid) (start (CbConfig.fromEnv env)) es = some s)
    (hp99 : (CbConfig.fromEnv env).p99UsRecovery.lt (.num (CbConfig.fromEnv env).p99UsOpen) = true)
    (herror : (CbConfig.fromEnv env).errorRateRecovery.lt (CbConfig.fromEnv env).errorRateOpen = true)
    (hhalf : s.breaker.state = .halfOpen)
    (hclosed : (s.breaker.release (CbConfig.fromEnv env) pid now .success latencyUs).state = .closed) :
    let cfg := CbConfig.fromEnv env
    let before := statsBefore cfg now s.breaker.window
    ((s.breaker.release cfg pid now .success latencyUs).checkStatisticalOpen cfg pid now).state ≠
        .opened ↔
      before.total + 1 < cfg.minSamples ∨
        cfg.timeoutRateOpen.le (WindowStats.rate before.timeouts (before.total + 1)) = false := by
  intro cfg before
  have hinv := Session.invariant_reachable (CbConfig.fromEnv_valid env) hrun
  have hrel := CircuitBreaker.release_released cfg pid now .success latencyUs s.breaker
  change (s.breaker.release cfg pid now .success latencyUs).state = .closed at hclosed
  generalize s.breaker.release cfg pid now .success latencyUs = b at hrel hclosed ⊢
  cases hrel with
  | kept => cases hhalf.symm.trans hclosed
  | tripped _ => cases hclosed
  | closed _ _ _ hrecovered =>
      rcases aggregate_record_success cfg.windowSecs latencyUs (currentTs now) hinv.window with
        ⟨htotal, -, htimeouts⟩
      generalize hstats : (s.breaker.window.record .success latencyUs (currentTs now)).aggregate
        cfg.windowSecs (currentTs now) = stats at hrecovered htotal htimeouts
      -- The two signals the recovery has judged are below their opening thresholds.
      have hsignals : (F64.num (stats.percentileUs 99)).le cfg.p99UsRecovery = true ∧
          stats.errorRate.le cfg.errorRateRecovery = true := by
        simpa [CircuitBreaker.recovered] using hrecovered
      have hp99' : ¬ cfg.p99UsOpen ≤ stats.percentileUs 99 := by
        have hlt : ((stats.percentileUs 99 : Nat) : ℚ) < cfg.p99UsOpen := by
          simpa [F64.le] using F64.not_le_of_le_of_lt hsignals.1 hp99
        exact not_le.2 (Nat.cast_lt.1 hlt)
      have herror' : cfg.errorRateOpen.le stats.errorRate = false :=
        F64.not_le_of_le_of_lt hsignals.2 herror
      have hrate : stats.timeoutRate = WindowStats.rate before.timeouts (before.total + 1) := by
        unfold WindowStats.timeoutRate
        rw [htotal, htimeouts]
        rfl
      have hopens : CircuitBreaker.shouldOpen cfg stats =
          cfg.timeoutRateOpen.le (WindowStats.rate before.timeouts (before.total + 1)) := by
        unfold CircuitBreaker.shouldOpen
        simp [hp99', herror', hrate]
      rw [CircuitBreaker.checkStatisticalOpen_quiet_iff (by simp)]
      change ((s.breaker.window.record .success latencyUs (currentTs now)).aggregate cfg.windowSecs
        (currentTs now)).total < cfg.minSamples ∨ CircuitBreaker.shouldOpen cfg
          ((s.breaker.window.record .success latencyUs (currentTs now)).aggregate cfg.windowSecs
            (currentTs now)) = false ↔ _
      rw [hstats, hopens, htotal]
      rfl

/-- Three calls time out and open the circuit; a cooldown of a tenth of a second later three probes
succeed, the last of them at the given time. -/
def timeoutEnv : EnvVars := fun name =>
  if name = "REDIS_CB_MIN_SAMPLES" then some "5"
  else if name = "REDIS_CB_OPEN_COOLDOWN_MS" then some "100"
  else if name = "REDIS_CB_COOLDOWN_JITTER_MS" then some "0"
  else none

def timeoutRecovery (probing : Nat) : List Event := [
  .acquire 1700000000000, .acquire 1700000000000, .acquire 1700000000000,
  .release 1700000000000 0 .timeout 500, .release 1700000000000 1 .timeout 500,
  .release 1700000000000 2 .timeout 500,
  .acquire probing, .acquire probing, .acquire probing,
  .release probing 6 .success 500, .release probing 7 .success 500]

/-- Within the same second the window still holds the three timeouts, and the circuit that has just closed
is opened again. -/
theorem timeouts_flap :
    let cfg := CbConfig.fromEnv timeoutEnv
    ∃ s, run (step cfg 1) (start cfg) (timeoutRecovery 1700000000100) = some s ∧
      s.breaker.state = .halfOpen ∧
      (s.breaker.release cfg 1 1700000000100 .success 500).state = .closed ∧
      cfg.p99UsRecovery.lt (.num cfg.p99UsOpen) = true ∧
      cfg.errorRateRecovery.lt cfg.errorRateOpen = true ∧
      ((s.breaker.release cfg 1 1700000000100 .success 500).checkStatisticalOpen cfg 1
        1700000000100).state = .opened := by
  intro cfg
  have hrun : (run (step cfg 1) (start cfg) (timeoutRecovery 1700000000100)).map (fun s =>
      (s.breaker.state, (s.breaker.release cfg 1 1700000000100 .success 500).state,
        ((s.breaker.release cfg 1 1700000000100 .success 500).checkStatisticalOpen cfg 1
          1700000000100).state)) = some (.halfOpen, .closed, .opened) := by
    decide +kernel
  rcases Option.map_eq_some_iff.1 hrun with ⟨s, hs, hstates⟩
  rcases Prod.mk.inj hstates with ⟨hhalf, hrest⟩
  rcases Prod.mk.inj hrest with ⟨hclosed, hopened⟩
  exact ⟨s, hs, hhalf, hclosed, by decide, by decide +kernel, hopened⟩

/-- A minute later the timeouts have left the window. -/
theorem late_recovery_stays_closed :
    let cfg := CbConfig.fromEnv timeoutEnv
    ∃ s, run (step cfg 1) (start cfg) (timeoutRecovery 1700000060000) = some s ∧
      ((s.breaker.release cfg 1 1700000060000 .success 500).checkStatisticalOpen cfg 1
        1700000060000).state ≠ .opened := by
  intro cfg
  have hrun : (run (step cfg 1) (start cfg) (timeoutRecovery 1700000060000)).map (fun s =>
      (s.breaker.state, (s.breaker.release cfg 1 1700000060000 .success 500).state,
        decide ((statsBefore cfg 1700000060000 s.breaker.window).total + 1 < cfg.minSamples))) =
      some (.halfOpen, .closed, true) := by
    decide +kernel
  rcases Option.map_eq_some_iff.1 hrun with ⟨s, hs, hstates⟩
  rcases Prod.mk.inj hstates with ⟨hhalf, hrest⟩
  rcases Prod.mk.inj hrest with ⟨hclosed, hsmall⟩
  exact ⟨s, hs, (closed_stays_closed_iff timeoutEnv 1 _ s 1700000060000 500 hs (by decide)
    (by decide +kernel) hhalf hclosed).2 (Or.inl (of_decide_eq_true hsmall))⟩

end RedisCb
end GatewayEdge
