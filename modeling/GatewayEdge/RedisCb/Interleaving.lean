import GatewayEdge.Foundation.Run
import GatewayEdge.RedisCb.CircuitBreaker

/-!
# RedisCb.Interleaving — acquire and release, one access at a time

Here the breaker is shared memory.  A caller is at a program point, named after the access it makes next, and
each step is one load, store, read-modify-write, lock of a bucket or reading of the clock.  Callers are
arbitrarily many and take their steps in any order.

Run by one caller alone, at one reading of the clock, the accesses of a call add up to `acquire` and `release`
(`acquire_alone`, `release_alone`).
-/

namespace GatewayEdge
namespace RedisCb
namespace Interleaving

open Foundation

/-! ## Program points -/

inductive Pc
  | idle
  -- `acquire`
  | closedAdd
  | closedUndo
  | openClock
  | openOpened (now : Nat)
  | openCooldown (now opened : Nat)
  | openExchange (now : Nat)
  | openRecheck
  | enterProbes (now : Nat)
  | enterSuccesses (now : Nat)
  | enterStarted (now : Nat)
  | enterTotal
  -- `acquire_half_open`
  | halfClock
  | halfStarted (now : Nat)
  | rearmExchange (now : Nat)
  | rearmJitter (now : Nat)
  | rearmOpened (now cooldown : Nat)
  | rearmCooldown (cooldown : Nat)
  | rearmTotal
  | probeAdd
  | slotAdd
  | slotUndo
  | probeUndo (e : RedisCallOutcome)
  | reject (e : RedisCallOutcome)
  -- `release`
  | recordClock (outcome : RedisCallOutcome) (latencyUs : Nat)
  | recordBucket (outcome : RedisCallOutcome) (latencyUs ts : Nat)
  | countRequest (outcome : RedisCallOutcome)
  | loadState (outcome : RedisCallOutcome)
  | countSuccess (state : CircuitState)
  | resetFail (state : CircuitState)
  | resetTimeout (state : CircuitState)
  | countProbe
  | recoverClock (successes : UInt32)
  | recoverRead (successes : UInt32) (ts i : Nat) (acc : WindowStats)
  | closeExchange
  | countTimeout (state : CircuitState)
  | timeoutFail (state : CircuitState)
  | timeoutConsecutive (state : CircuitState) (cf : UInt32)
  | countError (state : CircuitState)
  | errorFail (state : CircuitState)
  -- `check_statistical_open`
  | checkClock
  | checkRead (ts i : Nat) (acc : WindowStats)
  -- `trip_open`
  | tripLoad
  | tripExchange (expected : CircuitState)
  | tripJitter
  | tripClock (cooldown : Nat)
  | tripOpened (cooldown now : Nat)
  | tripCooldown (cooldown : Nat)
  | tripTotal
  deriving Repr

/-- Where an access leaves its caller. -/
inductive Next
  | goto (pc : Pc)
  /-- The acquire returns. -/
  | answer (r : Except RedisCallOutcome Unit)
  /-- The release returns. -/
  | done

def Next.pc : Next → Pc
  | .goto pc => pc
  | .answer _ => .idle
  | .done => .idle

/-- The first access of `acquire`. -/
def acquirePc : CircuitState → Pc
  | .closed => .closedAdd
  | .opened => .openClock
  | .halfOpen => .halfClock

/-- The match on the outcome in `release`, with the state just loaded. -/
def outcomeNext (state : CircuitState) : RedisCallOutcome → Next
  | .success => .goto (.countSuccess state)
  | .timeout => .goto (.countTimeout state)
  | .redisError => .goto (.countError state)
  | .circuitOpen => .done
  | .concurrencyRejected => .done

/-! ## One access -/

/-- The access a caller at a program point makes at the time `now`. -/
def advance (cfg : CbConfig) (pid now : Nat) (spurious : Bool) (b : CircuitBreaker) :
    Pc → Option (CircuitBreaker × Next)
  | .idle => none
  | .closedAdd => some ({ b with inflight := b.inflight + 1 },
      if cfg.maxInflight ≤ b.inflight then .goto .closedUndo else .answer (.ok ()))
  | .closedUndo => some ({ b with inflight := b.inflight - 1 }, .goto (.reject .concurrencyRejected))
  | .openClock => some (b, .goto (.openOpened now))
  | .openOpened n => some (b, .goto (.openCooldown n b.openedAtMs))
  | .openCooldown n opened => some (b,
      if b.cooldownMs ≤ n - opened then .goto (.openExchange n) else .goto (.reject .circuitOpen))
  | .openExchange n =>
    if b.state = .opened then some ({ b with state := .halfOpen }, .goto (.enterProbes n))
    else some (b, .goto .openRecheck)
  | .openRecheck => some (b,
      if b.state = .opened then .goto (.reject .circuitOpen) else .goto .halfClock)
  | .enterProbes n => some ({ b with probesDispatched := 0 }, .goto (.enterSuccesses n))
  | .enterSuccesses n => some ({ b with halfOpenSuccesses := 0 }, .goto (.enterStarted n))
  | .enterStarted n => some ({ b with halfOpenStartedAtMs := n }, .goto .enterTotal)
  | .enterTotal => some ({ b with circuitHalfOpenTotal := b.circuitHalfOpenTotal + 1 }, .goto .halfClock)
  | .halfClock => some (b, .goto (.halfStarted now))
  | .halfStarted n => some (b,
      if cfg.halfOpenMaxMs ≤ n - b.halfOpenStartedAtMs then .goto (.rearmExchange n)
      else .goto .probeAdd)
  | .rearmExchange n =>
    if b.state = .halfOpen then some ({ b with state := .opened }, .goto (.rearmJitter n))
    else some (b, .goto (.reject .circuitOpen))
  | .rearmJitter n => some (b, .goto (.rearmOpened n (CircuitBreaker.jitteredCooldown cfg pid now)))
  | .rearmOpened n cooldown => some ({ b with openedAtMs := n }, .goto (.rearmCooldown cooldown))
  | .rearmCooldown cooldown => some ({ b with cooldownMs := cooldown }, .goto .rearmTotal)
  | .rearmTotal => some ({ b with circuitOpenTotal := b.circuitOpenTotal + 1 },
      .goto (.reject .circuitOpen))
  | .probeAdd => some ({ b with probesDispatched := b.probesDispatched + 1 },
      if cfg.halfOpenProbes ≤ b.probesDispatched.toNat then .goto (.probeUndo .circuitOpen)
      else .goto .slotAdd)
  | .slotAdd => some ({ b with inflight := b.inflight + 1 },
      if (cfg.halfOpenProbes : Int) ≤ b.inflight then .goto .slotUndo else .answer (.ok ()))
  | .slotUndo => some ({ b with inflight := b.inflight - 1 }, .goto (.probeUndo .concurrencyRejected))
  | .probeUndo e => some ({ b with probesDispatched := b.probesDispatched - 1 }, .goto (.reject e))
  | .reject e => some (b.rejected, .answer (.error e))
  | .recordClock outcome latencyUs => some (b, .goto (.recordBucket outcome latencyUs (currentTs now)))
  | .recordBucket outcome latencyUs ts => some ({ b with window := b.window.record outcome latencyUs ts },
      .goto (.countRequest outcome))
  | .countRequest outcome => some ({ b with redisRequestsTotal := b.redisRequestsTotal + 1 },
      .goto (.loadState outcome))
  | .loadState outcome => some (b, outcomeNext b.state outcome)
  | .countSuccess state => some ({ b with redisSuccessTotal := b.redisSuccessTotal + 1 },
      .goto (.resetFail state))
  | .resetFail state => some ({ b with consecutiveFail := 0 }, .goto (.resetTimeout state))
  | .resetTimeout state => some ({ b with consecutiveTimeout := 0 },
      if state = .halfOpen then .goto .countProbe else .goto .checkClock)
  | .countProbe => some ({ b with halfOpenSuccesses := b.halfOpenSuccesses + 1 },
      .goto (.recoverClock (b.halfOpenSuccesses + 1)))
  | .recoverClock successes => some (b, .goto (.recoverRead successes (currentTs now) 0 {}))
  | .recoverRead successes ts i acc =>
    match b.window[i]? with
    | some bucket => some (b, .goto (.recoverRead successes ts (i + 1) (acc.add cfg.windowSecs ts bucket)))
    | none => some (b,
        if cfg.recoverySuccesses ≤ successes.toNat ∧ CircuitBreaker.recovered cfg acc = true then
          .goto .closeExchange
        else .done)
  | .closeExchange => some (if b.state = .halfOpen then { b with state := .closed } else b, .done)
  | .countTimeout state => some ({ b with redisTimeoutsTotal := b.redisTimeoutsTotal + 1 },
      .goto (.timeoutFail state))
  | .timeoutFail state => some ({ b with consecutiveFail := b.consecutiveFail + 1 },
      .goto (.timeoutConsecutive state (b.consecutiveFail + 1)))
  | .timeoutConsecutive state cf => some ({ b with consecutiveTimeout := b.consecutiveTimeout + 1 },
      if state = .halfOpen then .goto .tripLoad
      else if cfg.consecutiveToOpen ≤ (b.consecutiveTimeout + 1).toNat ∨
          cfg.consecutiveFailOpen ≤ cf.toNat then .goto .tripLoad
      else .goto .checkClock)
  | .countError state => some ({ b with redisErrorsTotal := b.redisErrorsTotal + 1 },
      .goto (.errorFail state))
  | .errorFail state => some ({ b with consecutiveFail := b.consecutiveFail + 1 },
      if state = .halfOpen then .goto .tripLoad
      else if cfg.consecutiveFailOpen ≤ (b.consecutiveFail + 1).toNat then .goto .tripLoad
      else .goto .checkClock)
  | .checkClock => some (b, .goto (.checkRead (currentTs now) 0 {}))
  | .checkRead ts i acc =>
    match b.window[i]? with
    | some bucket => some (b, .goto (.checkRead ts (i + 1) (acc.add cfg.windowSecs ts bucket)))
    | none => some (b,
        if acc.total < cfg.minSamples then .done
        else if CircuitBreaker.shouldOpen cfg acc then .goto .tripLoad
        else .done)
  | .tripLoad => some (b, .goto (.tripExchange b.state))
  | .tripExchange expected =>
    if expected = .opened then some (b, .done)
    -- A weak exchange may fail although the word is the expected one; it hands back the word as it is.
    else if b.state = expected ∧ spurious = false then
      some ({ b with state := .opened }, .goto .tripJitter)
    else some (b, .goto (.tripExchange b.state))
  | .tripJitter => some (b, .goto (.tripClock (CircuitBreaker.jitteredCooldown cfg pid now)))
  | .tripClock cooldown => some (b, .goto (.tripOpened cooldown now))
  | .tripOpened cooldown n => some ({ b with openedAtMs := n }, .goto (.tripCooldown cooldown))
  | .tripCooldown cooldown => some ({ b with cooldownMs := cooldown }, .goto .tripTotal)
  | .tripTotal => some ({ b with circuitOpenTotal := b.circuitOpenTotal + 1 }, .done)

/-- What a caller does with its turn: begin a call when idle, or go on with the one it is in. -/
inductive Move
  | acquire
  | release (outcome : RedisCallOutcome) (latencyUs : Nat)
  | next (spurious : Bool)
  deriving DecidableEq, Repr

def access (cfg : CbConfig) (pid now : Nat) (b : CircuitBreaker) (pc : Pc) :
    Move → Option (CircuitBreaker × Next)
  | .acquire =>
    match pc with
    | .idle => some (b, .goto (acquirePc b.state))
    | _ => none
  | .release outcome latencyUs =>
    match pc with
    | .idle => some ({ b with inflight := b.inflight - 1 }, .goto (.recordClock outcome latencyUs))
    | _ => none
  | .next spurious => advance cfg pid now spurious b pc

/-! ## A call with no one in between -/

/-- The accesses from a program point to the end of the call, all of one caller and at one reading of the
clock. -/
inductive Alone (cfg : CbConfig) (pid now : Nat) : CircuitBreaker → Pc → CircuitBreaker → Next → Prop
  | step {b c d : CircuitBreaker} {p q : Pc} {next : Next}
      (hadvance : advance cfg pid now false b p = some (c, .goto q))
      (hrest : Alone cfg pid now c q d next) : Alone cfg pid now b p d next
  | answer {b b' : CircuitBreaker} {pc : Pc} {r : Except RedisCallOutcome Unit}
      (hadvance : advance cfg pid now false b pc = some (b', .answer r)) :
      Alone cfg pid now b pc b' (.answer r)
  | done {b b' : CircuitBreaker} {pc : Pc}
      (hadvance : advance cfg pid now false b pc = some (b', .done)) : Alone cfg pid now b pc b' .done

variable {cfg : CbConfig} {pid now : Nat}

theorem reject_alone (b : CircuitBreaker) (e : RedisCallOutcome) :
    Alone cfg pid now b (.reject e) b.rejected (.answer (.error e)) :=
  .answer rfl

attribute [local simp] advance in
theorem halfClock_alone (b : CircuitBreaker) :
    Alone cfg pid now b .halfClock (b.acquireHalfOpen cfg pid now).1
      (.answer (b.acquireHalfOpen cfg pid now).2) := by
  refine .step rfl ?_
  unfold CircuitBreaker.acquireHalfOpen
  by_cases hdeadline : cfg.halfOpenMaxMs ≤ now - b.halfOpenStartedAtMs
  · refine .step (c := b) (q := .rearmExchange now) (by simp [hdeadline]) ?_
    by_cases hhalf : b.state = .halfOpen
    · simp only [hdeadline, hhalf, if_true]
      refine .step (c := { b with state := .opened }) (q := .rearmJitter now)
        (by simp [hhalf]) ?_
      exact .step rfl (.step rfl (.step rfl (.step rfl (reject_alone _ _))))
    · simp only [hdeadline, hhalf, if_true, if_false]
      exact .step (c := b) (by simp [hhalf]) (reject_alone b _)
  · refine .step (c := b) (q := .probeAdd) (by simp [hdeadline]) ?_
    simp only [hdeadline, if_false]
    by_cases hbudget : cfg.halfOpenProbes ≤ b.probesDispatched.toNat
    · simp only [hbudget, if_true]
      refine .step (c := { b with probesDispatched := b.probesDispatched + 1 })
        (q := .probeUndo .circuitOpen) (by simp [hbudget]) ?_
      exact .step rfl (reject_alone _ _)
    · simp only [hbudget, if_false]
      refine .step (c := { b with probesDispatched := b.probesDispatched + 1 })
        (q := .slotAdd) (by simp [hbudget]) ?_
      by_cases hfull : (cfg.halfOpenProbes : Int) ≤ b.inflight
      · simp only [hfull, if_true]
        refine .step (c := { b with
            probesDispatched := b.probesDispatched + 1
            inflight := b.inflight + 1 }) (q := .slotUndo) (by simp [hfull]) ?_
        exact .step rfl (.step rfl (reject_alone _ _))
      · simp only [hfull, if_false]
        exact .answer (by simp [hfull])

/-- `acquire` is what its accesses do when nobody interferes. -/
theorem acquire_alone (b : CircuitBreaker) :
    Alone cfg pid now b (acquirePc b.state) (b.acquire cfg pid now).1
      (.answer (b.acquire cfg pid now).2) := by
  cases hstate : b.state with
  | closed =>
      by_cases hfull : cfg.maxInflight ≤ b.inflight
      · have hacq : b.acquire cfg pid now =
            (CircuitBreaker.rejected { b with inflight := b.inflight + 1 - 1 },
              .error .concurrencyRejected) := by
          simp [CircuitBreaker.acquire, hstate, hfull]
        rw [hacq]
        refine .step (c := { b with inflight := b.inflight + 1 }) (q := .closedUndo)
          (by simp [acquirePc, advance, hfull]) ?_
        exact .step rfl (reject_alone _ _)
      · have hacq : b.acquire cfg pid now = ({ b with inflight := b.inflight + 1 }, .ok ()) := by
          simp [CircuitBreaker.acquire, hstate, hfull]
        rw [hacq]
        exact .answer (by simp [acquirePc, advance, hfull])
  | opened =>
      refine .step rfl (.step rfl ?_)
      by_cases hcool : b.cooldownMs ≤ now - b.openedAtMs
      · have hacq : b.acquire cfg pid now = (b.enteredHalfOpen now).acquireHalfOpen cfg pid now := by
          simp [CircuitBreaker.acquire, hstate, hcool]
        rw [hacq]
        refine .step (c := b) (q := .openExchange now) (by simp [advance, hcool]) ?_
        refine .step (c := { b with state := .halfOpen }) (q := .enterProbes now)
          (by simp [advance, hstate]) ?_
        exact .step rfl (.step rfl (.step rfl (.step rfl (halfClock_alone (b.enteredHalfOpen now)))))
      · have hacq : b.acquire cfg pid now = (b.rejected, .error .circuitOpen) := by
          simp [CircuitBreaker.acquire, hstate, hcool]
        rw [hacq]
        exact .step (c := b) (by simp [advance, hcool]) (reject_alone b _)
  | halfOpen =>
      have hacq : b.acquire cfg pid now = b.acquireHalfOpen cfg pid now := by
        simp [CircuitBreaker.acquire, hstate]
      rw [hacq]
      exact halfClock_alone b

theorem tripLoad_alone (b : CircuitBreaker) :
    Alone cfg pid now b .tripLoad (b.tripOpen cfg pid now) .done := by
  refine .step rfl ?_
  unfold CircuitBreaker.tripOpen
  by_cases hopen : b.state = .opened
  · rw [if_pos hopen]
    exact .done (by simp [advance, hopen])
  · rw [if_neg hopen]
    refine .step (c := { b with state := .opened }) (q := .tripJitter) (by simp [advance, hopen]) ?_
    exact .step rfl (.step rfl (.step rfl (.step rfl (.done rfl))))

/-- The loop of `aggregate`, bucket by bucket, then the verdict of the detector. -/
theorem checkRead_alone (b : CircuitBreaker) (ts i : Nat) (acc : WindowStats) :
    Alone cfg pid now b (.checkRead ts i acc)
      (let stats := (b.window.drop i).foldl (WindowStats.add cfg.windowSecs ts) acc
        if stats.total < cfg.minSamples then b
        else if CircuitBreaker.shouldOpen cfg stats then b.tripOpen cfg pid now
        else b) .done := by
  generalize hrest : b.window.drop i = rest
  induction rest generalizing i acc with
  | nil =>
      have hend : b.window[i]? = none := by simpa using hrest
      dsimp only [List.foldl_nil]
      by_cases hsmall : acc.total < cfg.minSamples
      · simp only [hsmall, if_true]
        exact .done (by simp [advance, hend, hsmall])
      · cases hopen : CircuitBreaker.shouldOpen cfg acc with
        | true =>
            simp only [hsmall, if_true, if_false]
            exact .step (c := b) (by simp [advance, hend, hsmall, hopen]) (tripLoad_alone b)
        | false =>
            simp only [hsmall, if_false, Bool.false_eq_true]
            exact .done (by simp [advance, hend, hsmall, hopen])
  | cons bucket rest ih =>
      have hread : b.window[i]? = some bucket := by
        rw [← List.head?_drop, hrest, List.head?_cons]
      have hnext : b.window.drop (i + 1) = rest := by
        rw [← List.drop_drop, hrest, List.drop_one, List.tail_cons]
      refine .step (c := b)
        (q := .checkRead ts (i + 1) (acc.add cfg.windowSecs ts bucket)) (by simp [advance, hread]) ?_
      exact ih (i + 1) _ hnext

theorem checkClock_alone (b : CircuitBreaker) :
    Alone cfg pid now b .checkClock (b.checkStatisticalOpen cfg pid now) .done :=
  .step rfl (checkRead_alone b (currentTs now) 0 {})

/-- The same loop before a HALF_OPEN circuit closes. -/
theorem recoverRead_alone {b : CircuitBreaker} (hhalf : b.state = .halfOpen) (successes : UInt32)
    (ts i : Nat) (acc : WindowStats) :
    Alone cfg pid now b (.recoverRead successes ts i acc)
      (if cfg.recoverySuccesses ≤ successes.toNat ∧ CircuitBreaker.recovered cfg
          ((b.window.drop i).foldl (WindowStats.add cfg.windowSecs ts) acc) = true then
        { b with state := .closed }
      else b) .done := by
  generalize hrest : b.window.drop i = rest
  induction rest generalizing i acc with
  | nil =>
      have hend : b.window[i]? = none := by simpa using hrest
      rw [List.foldl_nil]
      by_cases hclose : cfg.recoverySuccesses ≤ successes.toNat ∧
          CircuitBreaker.recovered cfg acc = true
      · rw [if_pos hclose]
        refine .step (c := b) (q := .closeExchange) (by simp [advance, hend, hclose]) ?_
        exact .done (by simp [advance, hhalf])
      · rw [if_neg hclose]
        exact .done (by simp only [advance, hend, hclose, if_false])
  | cons bucket rest ih =>
      have hread : b.window[i]? = some bucket := by
        rw [← List.head?_drop, hrest, List.head?_cons]
      have hnext : b.window.drop (i + 1) = rest := by
        rw [← List.drop_drop, hrest, List.drop_one, List.tail_cons]
      refine .step (c := b)
        (q := .recoverRead successes ts (i + 1) (acc.add cfg.windowSecs ts bucket))
        (by simp [advance, hread]) ?_
      exact ih (i + 1) _ hnext

theorem countSuccess_alone (b : CircuitBreaker) :
    Alone cfg pid now b (.countSuccess b.state) (b.releaseSuccess cfg pid now) .done := by
  refine .step rfl (.step rfl ?_)
  unfold CircuitBreaker.releaseSuccess
  by_cases hhalf : b.state = .halfOpen
  · simp only [hhalf, if_true]
    refine .step (q := .countProbe) (by rw [advance, if_pos rfl]) ?_
    refine .step rfl (.step rfl ?_)
    exact recoverRead_alone rfl _ _ 0 {}
  · simp only [hhalf, if_false]
    exact .step (by simp only [advance, hhalf, if_false]) (checkClock_alone _)

/-- What follows the last counter of a failure: the circuit opens, or the detector decides. -/
theorem failure_alone {b c : CircuitBreaker} {q : Pc} {state : CircuitState} {fast : Prop}
    [Decidable fast]
    (hstep : advance cfg pid now false b q = some (c,
      if state = .halfOpen then .goto .tripLoad else if fast then .goto .tripLoad else .goto .checkClock)) :
    Alone cfg pid now b q
      (if state = .halfOpen then c.tripOpen cfg pid now
        else if fast then c.tripOpen cfg pid now else c.checkStatisticalOpen cfg pid now) .done := by
  by_cases hhalf : state = .halfOpen
  · rw [if_pos hhalf] at hstep ⊢
    exact .step hstep (tripLoad_alone c)
  · rw [if_neg hhalf] at hstep ⊢
    by_cases hfast : fast
    · rw [if_pos hfast] at hstep ⊢
      exact .step hstep (tripLoad_alone c)
    · rw [if_neg hfast] at hstep ⊢
      exact .step hstep (checkClock_alone c)

theorem countTimeout_alone (b : CircuitBreaker) :
    Alone cfg pid now b (.countTimeout b.state) (b.releaseTimeout cfg pid now) .done :=
  .step rfl (.step rfl (failure_alone rfl))

theorem countError_alone (b : CircuitBreaker) :
    Alone cfg pid now b (.countError b.state) (b.releaseError cfg pid now) .done :=
  .step rfl (failure_alone rfl)

/-- `release` is what its accesses do after the first one, when nobody interferes. -/
theorem release_alone (outcome : RedisCallOutcome) (latencyUs : Nat) (b : CircuitBreaker) :
    Alone cfg pid now { b with inflight := b.inflight - 1 } (.recordClock outcome latencyUs)
      (b.release cfg pid now outcome latencyUs) .done := by
  refine .step rfl (.step rfl (.step rfl ?_))
  cases outcome with
  | success => exact .step rfl (countSuccess_alone (b.completed now .success latencyUs))
  | timeout => exact .step rfl (countTimeout_alone (b.completed now .timeout latencyUs))
  | redisError => exact .step rfl (countError_alone (b.completed now .redisError latencyUs))
  | circuitOpen => exact .done rfl
  | concurrencyRejected => exact .done rfl

end Interleaving
end RedisCb
end GatewayEdge
