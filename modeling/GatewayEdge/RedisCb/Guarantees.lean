import GatewayEdge.RedisCb.Session

/-!
# RedisCb.Guarantees — what callers may rely on

The cooldown of an OPEN circuit is honoured, an episode of probing admits a bounded number of calls, no
slot is lost, and the circuit asks Redis again after two timers at most.  All of it in every session that
acquire and release can reach, under every configuration the environment can produce.
-/

namespace GatewayEdge
namespace RedisCb

open Foundation
open Session (step start admittedIn releasesIn episode)

/-- While OPEN the timer stays as it was armed and nobody is let through before it runs out; between the
entry into HALF_OPEN and the next change of state, at most `halfOpenProbes` acquires are let through. -/
theorem open_period_and_probe_budget (env : EnvVars) (pid : Nat) (es : List Event) (s : Session)
    (hrun : run (step (CbConfig.fromEnv env) pid) (start (CbConfig.fromEnv env)) es = some s) :
    let cfg := CbConfig.fromEnv env
    (s.breaker.state = .opened →
      (cfg.openCooldownMs ≤ s.breaker.cooldownMs ∧
        s.breaker.cooldownMs ≤ cfg.openCooldownMs + cfg.cooldownJitterMs) ∧
      (∀ e t, step cfg pid s e = some t → t.breaker.state = .opened →
        t.breaker.openedAtMs = s.breaker.openedAtMs ∧
          t.breaker.cooldownMs = s.breaker.cooldownMs) ∧
      ∀ now, now < s.breaker.openedAtMs + s.breaker.cooldownMs →
        (s.breaker.acquire cfg pid now).2.isOk = false) ∧
    (s.breaker.state = .halfOpen → admittedIn (episode s.history) ≤ cfg.halfOpenProbes) := by
  intro cfg
  have hcfg : cfg.Valid := CbConfig.fromEnv_valid env
  have hinv := Session.invariant_reachable hcfg hrun
  refine ⟨fun hopen => ⟨(hinv.timers.opened hopen).2, ?_, ?_⟩, fun hhalf => ?_⟩
  · intro e t hstep hafter
    rcases Session.step_cases hcfg hstep with
      ⟨now, r, -, -, hacq, rfl⟩ | ⟨now, call, outcome, lat, b, -, -, -, hrel, rfl⟩
    · change r.1.state = .opened at hafter
      rcases hacq.of_opened hopen with ⟨-, rfl⟩ | ⟨-, hprobing, -⟩
      · exact ⟨rfl, rfl⟩
      · cases hprobing.symm.trans hafter
    · cases hrel with
      | kept => exact ⟨rfl, rfl⟩
      | tripped hstate => exact absurd hopen hstate
      | closed hstate _ _ _ => cases hopen.symm.trans hstate
  · intro now hnow
    have hcooldown := (hinv.timers.opened hopen).2.1
    have hpos := hcfg.openCooldownMs
    have hearly : now - s.breaker.openedAtMs < s.breaker.cooldownMs := by omega
    have hacq := CircuitBreaker.acquire_acquired pid hcfg now s.breaker
    rcases hacq.of_opened hopen with ⟨-, hrefused⟩ | ⟨hcool, -, -⟩
    · rw [hrefused]
      rfl
    · exact absurd hcool (not_le.2 hearly)
  · rw [← hinv.budget.dispatched hhalf]
    exact hinv.budget.bounded hhalf

/-- One call that fails. -/
def failingCall : List Event :=
  [.acquire 1700000000000, .release 1700000000000 0 .redisError 100]

theorem failingCall_opens :
    (run (step (CbConfig.fromEnv impatientEnv) 1) (start (CbConfig.fromEnv impatientEnv))
      failingCall).map (fun s => (s.breaker.state, s.breaker.openedAtMs)) =
        some (.opened, 1700000000000) := by
  decide

/-- Right after the circuit has opened the next call is refused. -/
theorem refused_after_failure :
    ∃ s, run (step (CbConfig.fromEnv impatientEnv) 1) (start (CbConfig.fromEnv impatientEnv))
        failingCall = some s ∧
      (s.breaker.acquire (CbConfig.fromEnv impatientEnv) 1 1700000000000).2.isOk = false := by
  rcases Option.map_eq_some_iff.1 failingCall_opens with ⟨s, hrun, hs⟩
  rcases Prod.mk.inj hs with ⟨hstate, hopened⟩
  rcases (open_period_and_probe_budget impatientEnv 1 failingCall s hrun).1 hstate with
    ⟨⟨hcooldown, -⟩, -, hrefused⟩
  have hpos := (CbConfig.fromEnv_valid impatientEnv).openCooldownMs
  exact ⟨s, hrun, hrefused _ (by omega)⟩

/-! ## Accounting -/

/-- Every slot taken is that of a call still out, a refused call leaves slots and probes as they were, and
the totals account for every release. -/
theorem slots_and_totals (env : EnvVars) (pid : Nat) (es : List Event) (s : Session)
    (hreports : ∀ e ∈ es, e.Reports)
    (hrun : run (step (CbConfig.fromEnv env) pid) (start (CbConfig.fromEnv env)) es = some s) :
    let cfg := CbConfig.fromEnv env
    (s.breaker.inflight = s.outstanding.length ∧
      (s.outstanding.length : Int) = admittedIn s.history - releasesIn s.history) ∧
    (0 ≤ s.breaker.inflight ∧ s.breaker.inflight ≤ max cfg.maxInflight cfg.halfOpenProbes) ∧
    (∀ now, (s.breaker.acquire cfg pid now).2.isOk = false →
      let b := (s.breaker.acquire cfg pid now).1
      b.inflight = s.breaker.inflight ∧
        (s.breaker.state = .halfOpen →
          s.breaker.probesDispatched.toNat = admittedIn (episode s.history) ∧
            b.probesDispatched = s.breaker.probesDispatched) ∧
        (s.breaker.state ≠ .halfOpen → b.state = .halfOpen → b.probesDispatched = 0)) ∧
    s.breaker.redisRequestsTotal =
      s.breaker.redisSuccessTotal + s.breaker.redisErrorsTotal + s.breaker.redisTimeoutsTotal ∧
    s.breaker.redisRequestsTotal = releasesIn s.history := by
  intro cfg
  have hcfg : cfg.Valid := CbConfig.fromEnv_valid env
  have hinv := Session.invariant_reachable hcfg hrun
  have htotals := Session.totals_reachable hcfg hreports hrun
  rcases hinv.slots with ⟨hinflight, hledger, hbounded⟩
  refine ⟨⟨hinflight, by omega⟩, ⟨by omega, hbounded⟩, ?_, htotals.outcomes, htotals.releases⟩
  intro now hrefused
  have hacq := CircuitBreaker.acquire_acquired pid hcfg now s.breaker
  generalize s.breaker.acquire cfg pid now = r at hacq hrefused
  -- What is rolled back is as it was; an episode that starts here has dispatched nothing.
  cases hacq with
  | closedOk _ _ => cases hrefused
  | firstProbe _ _ _ => cases hrefused
  | probe _ _ _ _ => cases hrefused
  | closedFull hstate _ =>
      exact ⟨rfl, fun h => ⟨hinv.budget.dispatched h, rfl⟩, fun hne h => absurd h hne⟩
  | stillOpen hstate _ =>
      exact ⟨rfl, fun h => ⟨hinv.budget.dispatched h, rfl⟩, fun hne h => absurd h hne⟩
  | enteredFull hstate _ _ =>
      exact ⟨rfl, fun h => (by cases hstate.symm.trans h), fun _ _ => rfl⟩
  | rearmed hstate _ =>
      exact ⟨rfl, fun h => ⟨hinv.budget.dispatched h, rfl⟩, fun hne => absurd hstate hne⟩
  | probeRefused hstate _ _ _ =>
      exact ⟨rfl, fun h => ⟨hinv.budget.dispatched h, rfl⟩, fun hne => absurd hstate hne⟩

theorem failingCall_accounted :
    ∃ s, run (step (CbConfig.fromEnv impatientEnv) 1) (start (CbConfig.fromEnv impatientEnv))
        failingCall = some s ∧ s.breaker.redisRequestsTotal = releasesIn s.history := by
  rcases Option.map_eq_some_iff.1 failingCall_opens with ⟨s, hrun, -⟩
  have hreports : ∀ e ∈ failingCall, e.Reports := by
    intro e he
    rcases List.mem_cons.1 he with rfl | he
    · trivial
    · rcases List.mem_cons.1 he with rfl | he
      · exact Or.inr (Or.inl rfl)
      · cases he
  rcases slots_and_totals impatientEnv 1 failingCall s hreports hrun with ⟨-, -, -, -, hreleases⟩
  exact ⟨s, hrun, hreleases⟩

/-! ## Progress -/

/-- Once the cooldown is over an acquire that finds room is let through. -/
theorem acquire_of_cooled {cfg : CbConfig} {pid now : Nat} {b : CircuitBreaker} (hcfg : cfg.Valid)
    (hstate : b.state = .opened) (hcool : b.cooldownMs ≤ now - b.openedAtMs)
    (hroom : b.inflight < cfg.halfOpenProbes) : (b.acquire cfg pid now).2.isOk = true := by
  rcases (CircuitBreaker.acquire_acquired pid hcfg now b).of_opened hstate with
    ⟨hearly, -⟩ | ⟨-, -, hadmits⟩
  · exact absurd hcool (not_le.2 hearly)
  · exact hadmits hroom

/-- With no call out, of two acquires that are far enough apart one is let through. -/
theorem never_wedges (env : EnvVars) (pid : Nat) (es : List Event) (s : Session) (t₁ t₂ : Nat)
    (hrun : run (step (CbConfig.fromEnv env) pid) (start (CbConfig.fromEnv env)) es = some s)
    (hidle : s.outstanding = [])
    (hprobing : s.clock + (CbConfig.fromEnv env).halfOpenMaxMs ≤ t₁)
    (hfirst : s.clock + ((CbConfig.fromEnv env).openCooldownMs +
      (CbConfig.fromEnv env).cooldownJitterMs) ≤ t₁)
    (hsecond : t₁ + ((CbConfig.fromEnv env).openCooldownMs +
      (CbConfig.fromEnv env).cooldownJitterMs) ≤ t₂) :
    let cfg := CbConfig.fromEnv env
    (s.breaker.acquire cfg pid t₁).2.isOk = true ∨
      ((s.breaker.acquire cfg pid t₁).1.acquire cfg pid t₂).2.isOk = true := by
  intro cfg
  change s.clock + cfg.halfOpenMaxMs ≤ t₁ at hprobing
  change s.clock + (cfg.openCooldownMs + cfg.cooldownJitterMs) ≤ t₁ at hfirst
  change t₁ + (cfg.openCooldownMs + cfg.cooldownJitterMs) ≤ t₂ at hsecond
  have hcfg : cfg.Valid := CbConfig.fromEnv_valid env
  have hinv := Session.invariant_reachable hcfg hrun
  have hmax := hcfg.maxInflight
  have hprobes := hcfg.halfOpenProbes.1
  have hzero : s.breaker.inflight = 0 := by
    rw [hinv.slots.inflight, hidle]
    rfl
  have hacq := CircuitBreaker.acquire_acquired pid hcfg t₁ s.breaker
  generalize s.breaker.acquire cfg pid t₁ = r at hacq
  cases hacq with
  | closedOk _ _ => exact Or.inl rfl
  | firstProbe _ _ _ => exact Or.inl rfl
  | probe _ _ _ _ => exact Or.inl rfl
  | closedFull _ hfull => omega
  | enteredFull _ _ hfull => omega
  | stillOpen hstate hearly =>
      -- The cooldown of an OPEN circuit is over by `t₁`.
      rcases hinv.timers.opened hstate with ⟨hopened, -, hcooldown⟩
      change s.breaker.cooldownMs ≤ cfg.openCooldownMs + cfg.cooldownJitterMs at hcooldown
      omega
  | probeRefused hstate hearly _ _ =>
      -- So is the time for probing.
      have hstarted := hinv.timers.started hstate
      omega
  | rearmed hstate _ =>
      -- The circuit is armed anew at `t₁`, and that cooldown is over by `t₂`.
      refine Or.inr (acquire_of_cooled hcfg rfl ?_ ?_)
      · have hjitter := (CircuitBreaker.jitteredCooldown_mem cfg pid t₁).2
        change CircuitBreaker.jitteredCooldown cfg pid t₁ ≤ t₂ - t₁
        omega
      · change s.breaker.inflight < cfg.halfOpenProbes
        omega

/-- After the failing call the circuit lets one of two calls through again. -/
theorem failingCall_recovers :
    ∃ s, run (step (CbConfig.fromEnv impatientEnv) 1) (start (CbConfig.fromEnv impatientEnv))
        failingCall = some s ∧
      ((s.breaker.acquire (CbConfig.fromEnv impatientEnv) 1 1700000010000).2.isOk = true ∨
        ((s.breaker.acquire (CbConfig.fromEnv impatientEnv) 1 1700000010000).1.acquire
          (CbConfig.fromEnv impatientEnv) 1 1700000020000).2.isOk = true) := by
  have hidle : (run (step (CbConfig.fromEnv impatientEnv) 1) (start (CbConfig.fromEnv impatientEnv))
      failingCall).map (fun s => (s.outstanding, s.clock)) = some ([], 1700000000000) := by
    decide
  have hcfg : (CbConfig.fromEnv impatientEnv).halfOpenMaxMs = 10000 ∧
      (CbConfig.fromEnv impatientEnv).openCooldownMs = 5000 ∧
      (CbConfig.fromEnv impatientEnv).cooldownJitterMs = 2000 := by
    decide
  rcases hcfg with ⟨hmax, hcooldown, hjitter⟩
  rcases Option.map_eq_some_iff.1 hidle with ⟨s, hrun, hs⟩
  rcases Prod.mk.inj hs with ⟨hout, hclock⟩
  exact ⟨s, hrun, never_wedges impatientEnv 1 failingCall s 1700000010000 1700000020000 hrun hout
    (by omega) (by omega) (by omega)⟩

end RedisCb
end GatewayEdge
