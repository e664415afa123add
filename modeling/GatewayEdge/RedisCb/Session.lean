import GatewayEdge.Foundation.Run
import GatewayEdge.RedisCb.CircuitBreaker

/-!
# RedisCb.Session — runs of acquire and release

The breaker under any sequence of calls: each acquire and each release is one step, the clock does not go
back, and a release belongs to an earlier acquire that was let through.  Beside the breaker a session keeps
the calls still out and a history of what happened, newest first; both only watch.

The invariants come in four independent pieces: the timers, the slots, the probe budget and the totals.
-/

namespace GatewayEdge
namespace RedisCb

open Foundation

inductive Event
  | acquire (now : Nat)
  | release (now call : Nat) (outcome : RedisCallOutcome) (latencyUs : Nat)
  deriving DecidableEq, Repr

/-- What a step did: an acquire that was admitted or not, or the release of a call. -/
inductive Action
  | acquire (call : Nat) (admitted : Bool)
  | release (call : Nat) (outcome : RedisCallOutcome)
  deriving DecidableEq, Repr

structure Record where
  action : Action
  before : CircuitState
  after : CircuitState
  deriving DecidableEq, Repr

/-- An acquire that was let through. -/
def Record.admitted (r : Record) : Bool :=
  match r.action with
  | .acquire _ admitted => admitted
  | .release _ _ => false

def Record.isAcquire (r : Record) : Bool :=
  match r.action with
  | .acquire _ _ => true
  | .release _ _ => false

/-- A release reports what Redis did with the call: success, error or timeout. -/
def Event.Reports : Event → Prop
  | .acquire _ => True
  | .release _ _ outcome _ => outcome = .success ∨ outcome = .redisError ∨ outcome = .timeout

structure Session where
  clock : Nat
  breaker : CircuitBreaker
  /-- The calls that were let through and not released yet. -/
  outstanding : List Nat
  history : List Record
  deriving DecidableEq, Repr

namespace Session

variable (cfg : CbConfig) (pid : Nat)

def start : Session where
  clock := 0
  breaker := CircuitBreaker.new cfg
  outstanding := []
  history := []

/-- A call is named by its place in the history. -/
def acquired (now : Nat) (r : CircuitBreaker × Except RedisCallOutcome Unit) (s : Session) : Session where
  clock := now
  breaker := r.1
  outstanding := if r.2.isOk then s.history.length :: s.outstanding else s.outstanding
  history :=
    { action := .acquire s.history.length r.2.isOk
      before := s.breaker.state
      after := r.1.state } :: s.history

def released (now call : Nat) (outcome : RedisCallOutcome) (b : CircuitBreaker) (s : Session) :
    Session where
  clock := now
  breaker := b
  outstanding := s.outstanding.erase call
  history :=
    { action := .release call outcome, before := s.breaker.state, after := b.state } :: s.history

def step (s : Session) : Event → Option Session
  | .acquire now =>
    if now < s.clock then none else some (s.acquired now (s.breaker.acquire cfg pid now))
  | .release now call outcome latencyUs =>
    if now < s.clock ∨ call ∉ s.outstanding then none
    else some (s.released now call outcome (s.breaker.release cfg pid now outcome latencyUs))

variable {cfg pid}

/-- Everything a step can do. -/
theorem step_cases (hcfg : cfg.Valid) {s t : Session} {e : Event} (h : step cfg pid s e = some t) :
    (∃ now r, e = .acquire now ∧ s.clock ≤ now ∧ CircuitBreaker.Acquired cfg pid now s.breaker r ∧
      t = s.acquired now r) ∨
    (∃ now call outcome latencyUs b, e = .release now call outcome latencyUs ∧ s.clock ≤ now ∧
      call ∈ s.outstanding ∧ CircuitBreaker.Released cfg pid now outcome latencyUs s.breaker b ∧
      t = s.released now call outcome b) := by
  cases e with
  | acquire now =>
      simp only [step] at h
      split at h
      · cases h
      · rename_i hclock
        exact Or.inl ⟨now, _, rfl, not_lt.1 hclock, CircuitBreaker.acquire_acquired pid hcfg now s.breaker,
          (Option.some.inj h).symm⟩
  | release now call outcome latencyUs =>
      simp only [step] at h
      split at h
      · cases h
      · rename_i hguard
        rw [not_or, not_not, not_lt] at hguard
        exact Or.inr ⟨now, call, outcome, latencyUs, _, rfl, hguard.1, hguard.2,
          CircuitBreaker.release_released cfg pid now outcome latencyUs s.breaker, (Option.some.inj h).symm⟩

/-! ## Episodes -/

/-- The records of the HALF_OPEN episode that is still on, from the entry to now. -/
def episode : List Record → List Record
  | [] => []
  | r :: h => if r.after ≠ .halfOpen then [] else if r.before = .halfOpen then r :: episode h else [r]

/-- How many acquires were let through. -/
def admittedIn (rs : List Record) : Nat := rs.countP Record.admitted

/-- How many calls were released. -/
def releasesIn (rs : List Record) : Nat := rs.countP fun r => !r.isAcquire

variable {s t : Session} {e : Event}

/-! ## The timers -/

/-- The timers of an OPEN or HALF_OPEN circuit lie in the past, and the cooldown has its range. -/
structure Timers (cfg : CbConfig) (clock : Nat) (b : CircuitBreaker) : Prop where
  opened : b.state = .opened → b.openedAtMs ≤ clock ∧ cfg.openCooldownMs ≤ b.cooldownMs ∧
    b.cooldownMs ≤ cfg.openCooldownMs + cfg.cooldownJitterMs
  started : b.state = .halfOpen → b.halfOpenStartedAtMs ≤ clock

/-- Whatever opens the circuit arms the timer with the time of the step. -/
theorem timers_openedAt (now : Nat) (b : CircuitBreaker) :
    Timers cfg now (b.openedAt cfg pid now) where
  opened _ := ⟨le_rfl, CircuitBreaker.jitteredCooldown_mem cfg pid now⟩
  started h := by cases h

theorem Timers.later {clock now : Nat} {b : CircuitBreaker} (h : Timers cfg clock b)
    (hnow : clock ≤ now) : Timers cfg now b where
  opened hstate := by
    rcases h.opened hstate with ⟨hle, hrange⟩
    exact ⟨le_trans hle hnow, hrange⟩
  started hstate := le_trans (h.started hstate) hnow

/-- Only the state word and the three timers matter. -/
theorem Timers.congr {clock : Nat} {b b' : CircuitBreaker} (h : Timers cfg clock b)
    (hstate : b'.state = b.state) (hopened : b'.openedAtMs = b.openedAtMs)
    (hcooldown : b'.cooldownMs = b.cooldownMs)
    (hstarted : b'.halfOpenStartedAtMs = b.halfOpenStartedAtMs) : Timers cfg clock b' where
  opened hs := by
    rw [hopened, hcooldown]
    exact h.opened (hstate ▸ hs)
  started hs := by
    rw [hstarted]
    exact h.started (hstate ▸ hs)

theorem timers_step (hcfg : cfg.Valid) (hs : Timers cfg s.clock s.breaker)
    (h : step cfg pid s e = some t) : Timers cfg t.clock t.breaker := by
  rcases step_cases hcfg h with ⟨now, r, -, hnow, hacq, rfl⟩ | ⟨now, call, outcome, lat, b, -, hnow, -, hrel, rfl⟩
  · have hlater := hs.later hnow
    cases hacq with
    | closedOk _ _ => exact hlater.congr rfl rfl rfl rfl
    | closedFull _ _ => exact hlater.congr rfl rfl rfl rfl
    | stillOpen _ _ => exact hlater.congr rfl rfl rfl rfl
    | firstProbe _ _ _ => exact ⟨(fun h => by cases h), fun _ => le_rfl⟩
    | enteredFull _ _ _ => exact ⟨(fun h => by cases h), fun _ => le_rfl⟩
    | rearmed _ _ => exact (timers_openedAt now s.breaker).congr rfl rfl rfl rfl
    | probe _ _ _ _ => exact hlater.congr rfl rfl rfl rfl
    | probeRefused _ _ _ _ => exact hlater.congr rfl rfl rfl rfl
  · cases hrel with
    | kept => exact (hs.later hnow).congr rfl rfl rfl rfl
    | tripped _ => exact timers_openedAt now _
    | closed _ _ _ _ => exact ⟨(fun h => by cases h), fun h => by cases h⟩

/-! ## The slots -/

/-- One slot for each call that is out, and never more of them than the larger limit. -/
structure Slots (cfg : CbConfig) (s : Session) : Prop where
  inflight : s.breaker.inflight = s.outstanding.length
  ledger : admittedIn s.history = s.outstanding.length + releasesIn s.history
  bounded : s.breaker.inflight ≤ max cfg.maxInflight cfg.halfOpenProbes

theorem slots_step (hcfg : cfg.Valid) (hs : Slots cfg s) (h : step cfg pid s e = some t) :
    Slots cfg t := by
  rcases hs with ⟨hinflight, hledger, hbounded⟩
  rcases step_cases hcfg h with
    ⟨now, r, -, -, hacq, rfl⟩ | ⟨now, call, outcome, lat, b, -, -, hcall, hrel, rfl⟩
  · -- A call that is let through finds room under the limit of its state.
    have htaken : ∀ b : CircuitBreaker, b.inflight = s.breaker.inflight + 1 →
        (s.breaker.inflight < cfg.maxInflight ∨ s.breaker.inflight < cfg.halfOpenProbes) →
        Slots cfg (s.acquired now (b, .ok ())) := by
      intro b hb hroom
      have hcount : admittedIn (s.acquired now (b, .ok ())).history = admittedIn s.history + 1 :=
        List.countP_cons_of_pos rfl
      refine ⟨?_, ?_, ?_⟩
      · calc
          b.inflight = s.breaker.inflight + 1 := hb
          _ = (s.outstanding.length : Int) + 1 := by rw [hinflight]
          _ = ((s.history.length :: s.outstanding).length : Int) := rfl
      · calc
          admittedIn (s.acquired now (b, .ok ())).history = admittedIn s.history + 1 := hcount
          _ = s.outstanding.length + releasesIn s.history + 1 := by rw [hledger]
          _ = (s.history.length :: s.outstanding).length + releasesIn s.history :=
            Nat.add_right_comm _ _ _
      · change b.inflight ≤ _
        omega
    have hrefused : ∀ (b : CircuitBreaker) (e : RedisCallOutcome),
        b.inflight = s.breaker.inflight → Slots cfg (s.acquired now (b, .error e)) := by
      intro b e hb
      exact ⟨hb.trans hinflight, hledger, le_of_eq_of_le hb hbounded⟩
    cases hacq with
    | closedOk _ hroom => exact htaken _ rfl (Or.inl hroom)
    | closedFull _ _ => exact hrefused _ _ rfl
    | stillOpen _ _ => exact hrefused _ _ rfl
    | firstProbe _ _ hroom => exact htaken _ rfl (Or.inr hroom)
    | enteredFull _ _ _ => exact hrefused _ _ rfl
    | rearmed _ _ => exact hrefused _ _ rfl
    | probe _ _ _ hroom => exact htaken _ rfl (Or.inr hroom)
    | probeRefused _ _ _ _ => exact hrefused _ _ rfl
  · have hb : b.inflight = s.breaker.inflight - 1 := by cases hrel <;> rfl
    have hpos : 0 < s.outstanding.length := List.length_pos_of_mem hcall
    have hcount : releasesIn (s.released now call outcome b).history = releasesIn s.history + 1 :=
      List.countP_cons_of_pos rfl
    refine ⟨?_, ?_, ?_⟩
    · change b.inflight = ((s.outstanding.erase call).length : Int)
      rw [hb, hinflight, List.length_erase_of_mem hcall]
      omega
    · change admittedIn s.history = (s.outstanding.erase call).length + _
      rw [hcount, hledger, List.length_erase_of_mem hcall]
      omega
    · change b.inflight ≤ _
      omega

/-! ## The probe budget -/

/-- In HALF_OPEN the counter is the number of acquires let through in the episode. -/
structure Budget (cfg : CbConfig) (s : Session) : Prop where
  dispatched : s.breaker.state = .halfOpen →
    s.breaker.probesDispatched.toNat = admittedIn (episode s.history)
  bounded : s.breaker.state = .halfOpen → s.breaker.probesDispatched.toNat ≤ cfg.halfOpenProbes

theorem budget_of_not_halfOpen (h : s.breaker.state ≠ .halfOpen) : Budget cfg s :=
  ⟨fun hstate => absurd hstate h, fun hstate => absurd hstate h⟩

/-- A record inside the episode is added to it. -/
theorem episode_cons_of_halfOpen {r : Record} (hbefore : r.before = .halfOpen)
    (hafter : r.after = .halfOpen) (h : List Record) : episode (r :: h) = r :: episode h := by
  simp [episode, hbefore, hafter]

/-- The entry is the first record of its episode. -/
theorem episode_cons_of_entry {r : Record} (hbefore : r.before ≠ .halfOpen)
    (hafter : r.after = .halfOpen) (h : List Record) : episode (r :: h) = [r] := by
  simp [episode, hbefore, hafter]

theorem budget_step (hcfg : cfg.Valid) (hs : Budget cfg s) (h : step cfg pid s e = some t) :
    Budget cfg t := by
  have hprobes := hcfg.halfOpenProbes
  rcases step_cases hcfg h with
    ⟨now, r, -, -, hacq, rfl⟩ | ⟨now, call, outcome, lat, b, -, -, -, hrel, rfl⟩
  · cases hacq with
    | closedOk hstate _ => exact budget_of_not_halfOpen (by simp [acquired, hstate])
    | closedFull hstate _ => exact budget_of_not_halfOpen (by simp [acquired, CircuitBreaker.rejected, hstate])
    | stillOpen hstate _ => exact budget_of_not_halfOpen (by simp [acquired, CircuitBreaker.rejected, hstate])
    | firstProbe hstate _ _ =>
        have hbefore : s.breaker.state ≠ .halfOpen := by
          rw [hstate]
          decide
        refine ⟨fun _ => ?_, fun _ => hprobes.1⟩
        unfold acquired
        rw [episode_cons_of_entry hbefore rfl]
        rfl
    | enteredFull hstate _ _ =>
        have hbefore : s.breaker.state ≠ .halfOpen := by
          rw [hstate]
          decide
        refine ⟨fun _ => ?_, fun _ => Nat.zero_le _⟩
        unfold acquired
        rw [episode_cons_of_entry hbefore rfl]
        rfl
    | rearmed _ _ => exact budget_of_not_halfOpen (by simp [acquired, CircuitBreaker.rejected, CircuitBreaker.openedAt])
    | probe hstate _ hbudget _ =>
        -- The budget is far below what the counter can hold.
        have hcount : (s.breaker.probesDispatched + 1).toNat = s.breaker.probesDispatched.toNat + 1 := by
          rw [UInt32.toNat_add, UInt32.toNat_one, Nat.mod_eq_of_lt (by omega)]
        refine ⟨fun _ => ?_, fun _ => ?_⟩
        · unfold acquired
          rw [episode_cons_of_halfOpen hstate hstate]
          calc
            (s.breaker.probesDispatched + 1).toNat = s.breaker.probesDispatched.toNat + 1 := hcount
            _ = admittedIn (episode s.history) + 1 := by rw [hs.dispatched hstate]
            _ = admittedIn (_ :: episode s.history) := (List.countP_cons_of_pos rfl).symm
        · change (s.breaker.probesDispatched + 1).toNat ≤ _
          omega
    | probeRefused hstate _ _ _ =>
        refine ⟨fun _ => ?_, fun _ => hs.bounded hstate⟩
        unfold acquired
        rw [episode_cons_of_halfOpen hstate hstate]
        exact hs.dispatched hstate
  · cases hrel with
    | kept =>
        refine ⟨fun hstate => ?_, hs.bounded⟩
        unfold released
        rw [episode_cons_of_halfOpen hstate hstate]
        exact hs.dispatched hstate
    | tripped _ => exact budget_of_not_halfOpen (by simp [released, CircuitBreaker.openedAt])
    | closed _ _ _ _ => exact budget_of_not_halfOpen (by simp [released])

/-! ## The totals -/

/-- The totals account for every release, one outcome each. -/
structure Totals (s : Session) : Prop where
  outcomes : s.breaker.redisRequestsTotal =
    s.breaker.redisSuccessTotal + s.breaker.redisErrorsTotal + s.breaker.redisTimeoutsTotal
  releases : s.breaker.redisRequestsTotal = releasesIn s.history

theorem totals_step (hcfg : cfg.Valid) (hs : Totals s) (hout : e.Reports)
    (h : step cfg pid s e = some t) : Totals t := by
  rcases hs with ⟨houtcomes, hreleases⟩
  rcases step_cases hcfg h with
    ⟨now, r, -, -, hacq, rfl⟩ | ⟨now, call, outcome, lat, b, rfl, -, -, hrel, rfl⟩
  · have hsame : r.1.redisRequestsTotal = s.breaker.redisRequestsTotal ∧
        r.1.redisSuccessTotal = s.breaker.redisSuccessTotal ∧
        r.1.redisErrorsTotal = s.breaker.redisErrorsTotal ∧
        r.1.redisTimeoutsTotal = s.breaker.redisTimeoutsTotal := by
      cases hacq <;> exact ⟨rfl, rfl, rfl, rfl⟩
    rcases hsame with ⟨hreq, hsucc, herr, htime⟩
    refine ⟨?_, ?_⟩
    · change r.1.redisRequestsTotal = r.1.redisSuccessTotal + r.1.redisErrorsTotal +
        r.1.redisTimeoutsTotal
      rw [hreq, hsucc, herr, htime, houtcomes]
    · change r.1.redisRequestsTotal = releasesIn (_ :: s.history)
      rw [hreq, hreleases]
      rfl
  · have hcounted : b.redisRequestsTotal = s.breaker.redisRequestsTotal + 1 ∧
        b.redisSuccessTotal = s.breaker.redisSuccessTotal + (if outcome = .success then 1 else 0) ∧
        b.redisErrorsTotal = s.breaker.redisErrorsTotal + (if outcome = .redisError then 1 else 0) ∧
        b.redisTimeoutsTotal = s.breaker.redisTimeoutsTotal + (if outcome = .timeout then 1 else 0) := by
      cases hrel <;> exact ⟨rfl, rfl, rfl, rfl⟩
    rcases hcounted with ⟨hreq, hsucc, herr, htime⟩
    refine ⟨?_, ?_⟩
    · change b.redisRequestsTotal = b.redisSuccessTotal + b.redisErrorsTotal + b.redisTimeoutsTotal
      rw [hreq, hsucc, herr, htime, houtcomes]
      rcases hout with rfl | rfl | rfl <;> simp only [reduceCtorEq, if_true, if_false] <;> omega
    · change b.redisRequestsTotal = releasesIn (_ :: s.history)
      rw [hreq, hreleases]
      exact (List.countP_cons_of_pos rfl).symm

/-! ## Reachable sessions -/

/-- What holds in every session a run can reach. -/
structure Invariant (cfg : CbConfig) (s : Session) : Prop where
  timers : Timers cfg s.clock s.breaker
  slots : Slots cfg s
  budget : Budget cfg s
  window : s.breaker.window ≠ []

theorem invariant_step (hcfg : cfg.Valid) (s : Session) (e : Event) (t : Session)
    (hs : Invariant cfg s) (h : step cfg pid s e = some t) : Invariant cfg t where
  timers := timers_step hcfg hs.timers h
  slots := slots_step hcfg hs.slots h
  budget := budget_step hcfg hs.budget h
  window := by
    rcases step_cases hcfg h with
      ⟨now, r, -, -, hacq, rfl⟩ | ⟨now, call, outcome, lat, b, -, -, -, hrel, rfl⟩
    · have hsame : r.1.window = s.breaker.window := by cases hacq <;> rfl
      exact hsame ▸ hs.window
    · have hrecorded : b.window = s.breaker.window.record outcome lat (currentTs now) := by
        cases hrel <;> rfl
      change b.window ≠ []
      rw [hrecorded]
      simpa [RollingWindow.record] using hs.window

theorem invariant_start (hcfg : cfg.Valid) : Invariant cfg (start cfg) where
  timers := ⟨(fun h => by cases h), fun h => by cases h⟩
  slots := by
    have hmax := hcfg.maxInflight
    exact ⟨rfl, rfl, le_trans (by change (0 : Int) ≤ cfg.maxInflight; omega) (le_max_left _ _)⟩
  budget := budget_of_not_halfOpen fun h => by cases h
  window := by
    have hsize := (le_clamp 1 maxWindowBuckets (by decide) cfg.windowSecs).1
    change List.replicate (clamp 1 maxWindowBuckets cfg.windowSecs) _ ≠ []
    rw [Ne, List.replicate_eq_nil_iff]
    omega

theorem invariant_reachable (hcfg : cfg.Valid) {es : List Event}
    (hrun : run (step cfg pid) (start cfg) es = some s) : Invariant cfg s :=
  invariant_run (invariant_step hcfg) (invariant_start hcfg) hrun

theorem totals_reachable (hcfg : cfg.Valid) {es : List Event} (hout : ∀ e ∈ es, e.Reports)
    (hrun : run (step cfg pid) (start cfg) es = some s) : Totals s :=
  invariant_run_along (P := fun _ e => e.Reports) (fun _ _ _ hs he h => totals_step hcfg hs he h)
    ⟨rfl, rfl⟩ (along_of_forall hout _) hrun

end Session

end RedisCb
end GatewayEdge
