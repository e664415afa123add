import GatewayEdge.Foundation.Run
import GatewayEdge.SyncThread
import Mathlib.Tactic.FinCases

/-!
# FleetCounts — what the fleet counters count

Whatever gets lost between the workers and the server, no message is counted twice, and one that the thread
holds to be synchronised has been counted.  So a counter never runs ahead of the requests, and a bucket is
saturated only for a user who has really sent too many.
-/

namespace GatewayEdge
namespace SyncThread

open Foundation
open RateLimit (SyncMsg FleetKey runScript asU32 bucketSlot redisTtlSecs)
open RedisCb (RedisCallOutcome)

variable {p : Setting} {s t : Fleet} {e : Event} {es : List Event}

/-! ## At most once -/

/-- What the script has done for the message of this number. -/
def executions (log : List Execution) (w i : ℕ) : List Execution :=
  log.filter fun x => x.worker = w ∧ x.serial = i

/-- The message has been counted as its outcome says: once, with the value of the reply, or, if a command has
failed, once at most; not at all if the breaker has refused it. -/
def Settles (msg : SyncMsg) (result : Outcome) (executions : List Execution) : Prop :=
  match result with
  | .ok value => ∃ x, executions = [x] ∧ x.key = redisKey msg ∧ x.value = value
  | .error outcome => executions = [] ∨ Failed outcome ∧ ∃ x, executions = [x] ∧ x.key = redisKey msg

/-- A message under way has not been counted before the thread knows what has come of it. -/
def Current (phase : Phase) (executions : List Execution) : Prop :=
  match phase with
  | .returned msg result => Settles msg result executions
  | _ => executions = []

structure Accounted (a : Worker) (own : ℕ → List Execution) : Prop where
  later : ∀ i, a.handled.length < i → own i = []
  current : Current a.phase (own a.handled.length)
  past : ∀ i msg result, a.handled[i]? = some (msg, result) → Settles msg result (own i)
  fifo : a.handled.map Prod.fst ++ (a.phase.message ++ a.queue) = a.queued

section Moves

variable {w : ℕ} {a b : Worker} {own : ℕ → List Execution} {msg : SyncMsg} {result : Outcome}

theorem Accounted.of_phase (h : Accounted a own) {phase : Phase} (hphase : a.phase = phase) :
    Current phase (own a.handled.length) :=
  hphase ▸ h.current

theorem Accounted.fifo_of_phase (h : Accounted a own) {phase : Phase} (hphase : a.phase = phase) :
    a.handled.map Prod.fst ++ (phase.message ++ a.queue) = a.queued :=
  hphase ▸ h.fifo

/-- The thread takes the next message up. -/
theorem accounted_done (hlater : ∀ i, a.handled.length < i → own i = [])
    (hpast : ∀ i msg result, a.handled[i]? = some (msg, result) → Settles msg result (own i))
    (hfifo : a.handled.map Prod.fst ++ msg :: a.queue = a.queued)
    (hsettles : Settles msg result (own a.handled.length)) (breaker : RedisCb.Session) :
    Accounted (Fleet.done a msg result breaker) own where
  later i hi := by
    refine hlater i ?_
    have hlength : (Fleet.done a msg result breaker).handled.length = a.handled.length + 1 := by
      simp [Fleet.done]
    omega
  current := by
    have hlength : (Fleet.done a msg result breaker).handled.length = a.handled.length + 1 := by
      simp [Fleet.done]
    rw [hlength]
    exact hlater _ (Nat.lt_succ_self _)
  past i m r hi := by
    unfold Fleet.done at hi
    dsimp only at hi
    rcases Nat.lt_trichotomy i a.handled.length with hlt | rfl | hgt
    · rw [List.getElem?_append_left hlt] at hi
      exact hpast i m r hi
    · rw [List.getElem?_append_right le_rfl, Nat.sub_self] at hi
      cases hi
      exact hsettles
    · rw [List.getElem?_append_right hgt.le, List.getElem?_eq_none_iff.2 (by simp; omega)] at hi
      cases hi
  fifo := by
    unfold Fleet.done
    dsimp only
    rw [List.map_append, List.append_assoc, ← hfifo]
    rfl

/-- A move that runs no script. -/
theorem accounted_move (h : Accounted a own) (hm : Move p w a b none) : Accounted b own := by
  cases hm with
  | queued more =>
      refine { h with fifo := ?_ }
      dsimp only
      rw [← h.fifo, List.append_assoc, List.append_assoc]
  | letThrough msg rest nowMs breaker hphase hqueue hstep hacquired =>
      have hfifo := h.fifo_of_phase hphase
      rw [hqueue] at hfifo
      have hnone : own a.handled.length = [] := h.of_phase hphase
      exact { later := h.later, current := hnone, past := h.past, fifo := hfifo }
  | refused msg rest nowMs breaker outcome hphase hqueue hstep hacquired =>
      have hfifo := h.fifo_of_phase hphase
      rw [hqueue] at hfifo
      have hnone : own a.handled.length = [] := h.of_phase hphase
      have hsettles : Settles msg (.error outcome) (own a.handled.length) := Or.inl hnone
      exact accounted_done (a := { a with queue := rest }) h.later h.past hfifo hsettles breaker
  | connected msg hphase =>
      have hfifo := h.fifo_of_phase hphase
      have hnone : own a.handled.length = [] := h.of_phase hphase
      refine { later := h.later, current := ?_, past := h.past, fifo := ?_ }
      · dsimp only
        split
        · exact hnone
        · exact hnone
      · dsimp only
        split
        · exact hfifo
        · exact hfifo
  | unreachable msg hphase =>
      have hfifo := h.fifo_of_phase hphase
      exact { later := h.later, current := Or.inl (h.of_phase hphase), past := h.past, fifo := hfifo }
  | failed msg outcome hphase hfailed =>
      rcases hphase with hphase | hphase | hphase
      all_goals
        have hfifo := h.fifo_of_phase hphase
        exact { later := h.later, current := Or.inl (h.of_phase hphase), past := h.past, fifo := hfifo }
  | missing msg hphase =>
      have hfifo := h.fifo_of_phase hphase
      have hnone : own a.handled.length = [] := h.of_phase hphase
      exact { later := h.later, current := hnone, past := h.past, fifo := hfifo }
  | loaded msg hphase =>
      have hfifo := h.fifo_of_phase hphase
      have hnone : own a.handled.length = [] := h.of_phase hphase
      exact { later := h.later, current := hnone, past := h.past, fifo := hfifo }
  | finished msg result nowMs latencyUs call rest breaker hphase hout hstep =>
      have hfifo := h.fifo_of_phase hphase
      exact accounted_done h.later h.past hfifo (h.of_phase hphase) breaker

/-- The script runs for the message that the thread is at. -/
theorem accounted_executed (h : Accounted a own) {value : ℤ} (hm : Move p w a b (some (msg, value)))
    {x : Execution} (hkey : x.key = redisKey msg) (hvalue : x.value = value) {own' : ℕ → List Execution}
    (hown : ∀ i, own' i = if i = a.handled.length then x :: own i else own i) : Accounted b own' := by
  cases hm with
  | executed msg value result hphase hresult =>
      have hnone : own a.handled.length = [] := by
        rcases hphase with hphase | hphase
        · exact h.of_phase hphase
        · exact h.of_phase hphase
      have hone : own' a.handled.length = [x] := by
        rw [hown, if_pos rfl, hnone]
      refine { later := ?_, current := ?_, past := ?_, fifo := ?_ }
      · intro i hi
        rw [hown, if_neg (Nat.ne_of_gt hi)]
        exact h.later i hi
      · change Settles msg result (own' a.handled.length)
        rw [hone]
        rcases hresult with rfl | ⟨outcome, rfl, hfailed⟩
        · exact ⟨x, rfl, hkey, hvalue⟩
        · exact Or.inr ⟨hfailed, x, rfl, hkey⟩
      · intro i m r hi
        rw [hown, if_neg (Nat.ne_of_lt (List.getElem?_eq_some_iff.1 hi).1)]
        exact h.past i m r hi
      · rcases hphase with hphase | hphase
        · have hfifo := h.fifo_of_phase hphase
          exact hfifo
        · have hfifo := h.fifo_of_phase hphase
          exact hfifo

end Moves

/-- Every worker's messages are accounted for. -/
def Ledger (s : Fleet) : Prop := ∀ w, Accounted (s.workers w) (executions s.log w)

theorem ledger_start (clockMs : ℕ) (loaded : Bool) (shm : ℕ → ℕ → ℕ) :
    Ledger (Fleet.start p clockMs loaded shm) := fun _ =>
  { later := fun _ _ => rfl
    current := rfl
    past := by
      intro i msg result hi
      cases hi
    fifo := rfl }

theorem ledger_step (hs : Ledger s) (he : e.Honest) (h : step p s e = some t) : Ledger t := by
  rcases step_moves he h with ⟨w, b, ran, hm⟩ | ⟨hworkers, hlog, -⟩
  · intro v
    rw [hm.workers, hm.log]
    by_cases hv : v = w
    · subst hv
      rw [Function.update_self]
      cases ran with
      | none => exact accounted_move (hs v) hm.move
      | some ran =>
          rcases ran with ⟨msg, value⟩
          refine accounted_executed (hs v) hm.move (x := ⟨v, s.serial v, s.clockMs, redisKey msg, value⟩)
            rfl rfl fun i => ?_
          unfold executions noted
          dsimp only [List.cons_append, List.nil_append]
          rw [List.filter_cons]
          by_cases hi : i = (s.workers v).handled.length
          · rw [if_pos hi, if_pos (by simp [hi, Fleet.serial])]
          · rw [if_neg hi, if_neg (by simp [Ne.symm hi, Fleet.serial])]
    · rw [Function.update_of_ne hv]
      have hsame : executions (noted s w ran ++ s.log) v = executions s.log v := by
        funext i
        cases ran with
        | none => rfl
        | some ran =>
            unfold executions noted
            dsimp only [List.cons_append, List.nil_append]
            rw [List.filter_cons, if_neg (by simp [Ne.symm hv])]
      rw [hsame]
      exact hs v
  · intro v
    rw [hworkers, hlog]
    exact hs v

/-- The messages of a run are accounted for if the server's errors are honest. -/
theorem ledger_run {clockMs : ℕ} {loaded : Bool} {shm : ℕ → ℕ → ℕ} (hhonest : ∀ e ∈ es, e.Honest)
    (hrun : run (step p) (Fleet.start p clockMs loaded shm) es = some s) : Ledger s :=
  invariant_run_along (P := fun _ e => e.Honest) (fun _ _ _ hs he h => ledger_step hs he h)
    (ledger_start clockMs loaded shm) (along_of_forall hhonest _) hrun

/-- Which message an execution was for. -/
def Execution.label (x : Execution) : ℕ × ℕ := (x.worker, x.serial)

theorem Settles.length_le {msg : SyncMsg} {result : Outcome} {xs : List Execution} (h : Settles msg result xs) :
    xs.length ≤ 1 := by
  unfold Settles at h
  cases result with
  | ok value =>
      rcases h with ⟨x, rfl, -⟩
      exact le_rfl
  | error outcome =>
      rcases h with rfl | ⟨-, x, rfl, -⟩
      · exact Nat.zero_le 1
      · exact le_rfl

theorem Current.length_le {phase : Phase} {xs : List Execution} (h : Current phase xs) : xs.length ≤ 1 := by
  cases phase with
  | returned msg result => exact Settles.length_le h
  | _ =>
      have hnone : xs = [] := h
      rw [hnone]
      exact Nat.zero_le 1

theorem Ledger.length_executions (hs : Ledger s) (w i : ℕ) : (executions s.log w i).length ≤ 1 := by
  rcases Nat.lt_trichotomy i (s.workers w).handled.length with hlt | rfl | hgt
  · exact ((hs w).past i _ _ (List.getElem?_eq_getElem hlt)).length_le
  · exact (hs w).current.length_le
  · rw [(hs w).later i hgt]
    exact Nat.zero_le 1

/-- No two executions are for the same message. -/
theorem Ledger.nodup (hs : Ledger s) : (s.log.map Execution.label).Nodup := by
  refine List.nodup_iff_count.2 fun label => ?_
  rcases label with ⟨w, i⟩
  have hcount : (s.log.map Execution.label).count (w, i) = (executions s.log w i).length := by
    rw [List.count_eq_countP, List.countP_map, List.countP_eq_length_filter]
    congr 2
    funext x
    rw [Bool.eq_iff_iff]
    simp [Execution.label]
  rw [hcount]
  exact hs.length_executions w i

/-- In every interleaving of the workers and the server, whatever commands or replies are lost: the server
counts no message twice.  Each worker handles the messages in the order in which they were queued; one that it
holds to be synchronised has been counted exactly once, with the value of the reply; one that has failed once
at most; one that the breaker has refused not at all. -/
theorem counted_at_most_once {clockMs : ℕ} {loaded : Bool} {shm : ℕ → ℕ → ℕ} (hhonest : ∀ e ∈ es, e.Honest)
    (hrun : run (step p) (Fleet.start p clockMs loaded shm) es = some s) :
    (s.log.map Execution.label).Nodup ∧
    ∀ w, (s.workers w).handled.map Prod.fst ++ ((s.workers w).phase.message ++ (s.workers w).queue) =
        (s.workers w).queued ∧
      (∀ i msg result, (s.workers w).handled[i]? = some (msg, result) →
        Settles msg result (executions s.log w i)) ∧
      ∀ i, (s.workers w).handled.length < i → executions s.log w i = [] := by
  have hs := ledger_run hhonest hrun
  exact ⟨hs.nodup, fun w => ⟨(hs w).fifo, (hs w).past, (hs w).later⟩⟩

/-- One node a worker. -/
def sampleSetting : Setting where
  fxHash := fun _ => 5
  env := fun _ => none
  cfg := .fromEnv fun _ => none
  node := id
  pid := id
  noScript := { kind := .other, text := "NOSCRIPT No matching script." }

/-- Alice's request is counted by the server, which does not get to say so. -/
def replyLostRun : List Event :=
  [.call 0 100 1 (some "alice"), .receive 0 1000, .connect 0 true, .command 0 .replied,
    .command 0 (.replyLost { kind := .ioError, text := "timed out" }), .finish 0 1050 50000 false]

theorem replyLostRun_honest : ∀ e ∈ replyLostRun, e.Honest := by
  have htext : RedisError.mentions { kind := .ioError, text := "timed out" } "NOSCRIPT" = false := by
    decide +kernel
  intro e he
  fin_cases he
  · trivial
  · trivial
  · trivial
  · trivial
  · exact htext
  · trivial

theorem counted_once_without_reply : ∃ s,
    run (step sampleSetting) (Fleet.start sampleSetting 7000 false fun _ _ => 0) replyLostRun = some s ∧
    ∃ msg, (s.workers 0).handled[0]? = some (msg, .error .timeout) ∧
      Settles msg (.error .timeout) (executions s.log 0 0) ∧ (executions s.log 0 0).length = 1 :=
  ⟨_, rfl, _, rfl, ((@counted_at_most_once sampleSetting _ replyLostRun 7000 false (fun _ _ => 0)
    replyLostRun_honest rfl).2 0).2.1 0 _ _ rfl, rfl⟩

/-! ## What a counter says -/

/-- The executions on this key in the lifetime of a counter created at this time. -/
def inLifetime (key : String) (created : ℕ) (x : Execution) : Bool :=
  x.key = key ∧ created ≤ x.atMs ∧ x.atMs < created + redisTtlSecs * 1000

def counted (log : List Execution) (key : String) (created : ℕ) : ℕ := log.countP (inLifetime key created)

/-- No counter has counted more than there has been to count in its lifetime, and no reply has said more. -/
structure Lifetimes (s : Fleet) : Prop where
  created : ∀ key k, s.keys key = some k → redisTtlSecs * 1000 ≤ k.expiresAtMs ∧
    k.expiresAtMs ≤ s.clockMs + redisTtlSecs * 1000
  keys : ∀ key k, s.keys key = some k → 0 ≤ k.count ∧
    k.count ≤ counted s.log key (k.expiresAtMs - redisTtlSecs * 1000)
  values : ∀ x ∈ s.log, 0 ≤ x.value ∧
    ∃ created, inLifetime x.key created x = true ∧ x.value ≤ counted s.log x.key created

theorem counted_le_append (new log : List Execution) (key : String) (created : ℕ) :
    counted log key created ≤ counted (new ++ log) key created := by
  unfold counted
  rw [List.countP_append]
  exact Nat.le_add_left _ _

/-- An execution in the lifetime is counted. -/
theorem counted_cons {x : Execution} {key : String} (hkey : x.key = key) (created : ℕ)
    (hfrom : created ≤ x.atMs) (hto : x.atMs < created + redisTtlSecs * 1000) (log : List Execution) :
    counted (x :: log) key created = counted log key created + 1 := by
  unfold counted
  exact List.countP_cons_of_pos (by simp [inLifetime, hkey, hfrom, hto])

/-- The counter after the script has run: it belongs to a lifetime that the execution falls into, and has
counted what there was to count in it. -/
structure Counter (log : List Execution) (key : String) (clockMs : ℕ) (k : FleetKey) : Prop where
  ttl : redisTtlSecs * 1000 ≤ k.expiresAtMs
  alive : clockMs < k.expiresAtMs
  created : k.expiresAtMs ≤ clockMs + redisTtlSecs * 1000
  nonneg : 0 ≤ k.count
  count : k.count ≤ counted log key (k.expiresAtMs - redisTtlSecs * 1000)

theorem counter_spec {msg : SyncMsg} (hs : Lifetimes s) {x : Execution} (hkey : x.key = redisKey msg)
    (hat : x.atMs = s.clockMs) : Counter (x :: s.log) (redisKey msg) s.clockMs (s.counter msg) := by
  have httl : redisTtlSecs * 1000 = 2000 := rfl
  unfold Fleet.counter runScript
  cases hlive : (s.keys (redisKey msg)).filter (fun k => decide (s.clockMs < k.expiresAtMs)) with
  | some k =>
      -- A live counter goes on in its lifetime, which the execution falls into.
      rcases Option.filter_eq_some_iff.1 hlive with ⟨hk, hnow⟩
      have hcreated := hs.created _ k hk
      have hcounted := hs.keys _ k hk
      simp only [decide_eq_true_eq] at hnow
      have hcons := counted_cons hkey (k.expiresAtMs - redisTtlSecs * 1000) (by omega) (by omega) s.log
      exact
        { ttl := hcreated.1
          alive := hnow
          created := hcreated.2
          nonneg := by
            dsimp only
            omega
          count := by
            dsimp only
            rw [hcons, Nat.cast_add]
            omega }
  | none =>
      -- A new one begins its lifetime with the execution.
      have hcons := counted_cons hkey s.clockMs (by omega) (by omega) s.log
      exact
        { ttl := Nat.le_add_left _ _
          alive := by
            dsimp only
            omega
          created := le_rfl
          nonneg := by
            dsimp only
            omega
          count := by
            dsimp only
            rw [Nat.add_sub_cancel, hcons, Nat.cast_add]
            omega }

theorem lifetimes_start (clockMs : ℕ) (loaded : Bool) (shm : ℕ → ℕ → ℕ) :
    Lifetimes (Fleet.start p clockMs loaded shm) where
  created := by
    intro key k hk
    cases hk
  keys := by
    intro key k hk
    cases hk
  values := by
    intro x hx
    cases hx

/-- The script has run: its counter is the only one that has changed, and there is one more to count. -/
theorem lifetimes_executed (hs : Lifetimes s) {w : ℕ} {b : Worker} {msg : SyncMsg} {value : ℤ}
    (hm : Moves p s t w b (some (msg, value))) : Lifetimes t := by
  have hvalue := hm.value msg value rfl
  subst hvalue
  have hlog := hm.log
  have hkeys := hm.keys
  dsimp only [noted, List.cons_append, List.nil_append] at hlog hkeys
  generalize hx : (⟨w, s.serial w, s.clockMs, redisKey msg, (s.counter msg).count⟩ : Execution) = x at hlog
  have hkey : x.key = redisKey msg := by rw [← hx]
  have hat : x.atMs = s.clockMs := by rw [← hx]
  have hvalue : x.value = (s.counter msg).count := by rw [← hx]
  have hspec := counter_spec hs hkey hat
  have hgrows := counted_le_append [x] s.log
  rw [List.singleton_append] at hgrows
  -- A counter of the new table is that of the script, or an old one.
  have hentry : ∀ key k, t.keys key = some k →
      (key = redisKey msg ∧ s.counter msg = k) ∨ s.keys key = some k := by
    intro key k hk
    rw [hkeys] at hk
    by_cases hsame : key = redisKey msg
    · subst hsame
      rw [Function.update_self] at hk
      exact Or.inl ⟨rfl, Option.some.inj hk⟩
    · rw [Function.update_of_ne hsame] at hk
      exact Or.inr hk
  refine ⟨?_, ?_, ?_⟩
  · intro key k hk
    rw [hm.clock]
    rcases hentry key k hk with ⟨-, rfl⟩ | hold
    · exact ⟨hspec.ttl, hspec.created⟩
    · exact hs.created key k hold
  · intro key k hk
    rw [hlog]
    rcases hentry key k hk with ⟨rfl, rfl⟩ | hold
    · exact ⟨hspec.nonneg, hspec.count⟩
    · have hcount := hs.keys key k hold
      exact ⟨hcount.1, hcount.2.trans (by exact_mod_cast hgrows key _)⟩
  · intro y hy
    rw [hlog] at hy ⊢
    rcases List.mem_cons.1 hy with hyx | hy
    · -- The new execution falls into the lifetime of the counter it has left.
      rw [hyx, hvalue, hkey]
      refine ⟨hspec.nonneg, (s.counter msg).expiresAtMs - redisTtlSecs * 1000, ?_, hspec.count⟩
      have httl := hspec.ttl
      have halive := hspec.alive
      have hcreated := hspec.created
      unfold inLifetime
      rw [hkey, hat]
      simp only [decide_eq_true_eq, true_and]
      omega
    · rcases hs.values y hy with ⟨hnonneg, created, hlife, hvalue⟩
      exact ⟨hnonneg, created, hlife, hvalue.trans (by exact_mod_cast hgrows y.key created)⟩

theorem lifetimes_step (hs : Lifetimes s) (he : e.Honest) (h : step p s e = some t) : Lifetimes t := by
  rcases step_moves he h with ⟨w, b, ran, hm⟩ | ⟨-, hlog, hclock, hkeys⟩
  · cases ran with
    | none =>
        have hlog : t.log = s.log := hm.log
        have hkeys : t.keys = s.keys := hm.keys
        refine ⟨?_, ?_, ?_⟩
        · rw [hkeys, hm.clock]
          exact hs.created
        · rw [hkeys, hlog]
          exact hs.keys
        · rw [hlog]
          exact hs.values
    | some ran => exact lifetimes_executed hs hm
  · -- Time passes, or the server loses its keys.
    refine ⟨?_, ?_, ?_⟩
    · intro key k hk
      rcases hkeys with hsame | hgone
      · rw [hsame] at hk
        have hold := hs.created key k hk
        exact ⟨hold.1, hold.2.trans (Nat.add_le_add_right hclock _)⟩
      · rw [hgone] at hk
        cases hk
    · intro key k hk
      rw [hlog]
      rcases hkeys with hsame | hgone
      · rw [hsame] at hk
        exact hs.keys key k hk
      · rw [hgone] at hk
        cases hk
    · rw [hlog]
      exact hs.values

/-! ## Why a bucket is saturated -/

/-- The message of an execution has been queued at its worker. -/
theorem Ledger.message (hs : Ledger s) {x : Execution} (hx : x ∈ s.log) :
    ∃ m, (s.workers x.worker).queued[x.serial]? = some m ∧ redisKey m = x.key := by
  have hmem : x ∈ executions s.log x.worker x.serial := List.mem_filter.2 ⟨hx, by simp⟩
  have hkey : ∀ msg result, Settles msg result (executions s.log x.worker x.serial) → redisKey msg = x.key := by
    intro msg result h
    unfold Settles at h
    cases result with
    | ok value =>
        rcases h with ⟨y, hone, hkey, -⟩
        rw [hone, List.mem_singleton] at hmem
        exact (hmem ▸ hkey).symm
    | error outcome =>
        rcases h with hnone | ⟨-, y, hone, hkey⟩
        · rw [hnone] at hmem
          cases hmem
        · rw [hone, List.mem_singleton] at hmem
          exact (hmem ▸ hkey).symm
  have hacc := hs x.worker
  rw [← hacc.fifo]
  -- Its message has been handled or is under way; what waits has not been counted.
  rcases Nat.lt_trichotomy x.serial (s.workers x.worker).handled.length with hlt | heq | hgt
  · rcases hentry : (s.workers x.worker).handled[x.serial] with ⟨msg, result⟩
    have hget := List.getElem?_eq_getElem hlt
    rw [hentry] at hget
    refine ⟨msg, ?_, hkey msg result (hacc.past _ _ _ hget)⟩
    rw [List.getElem?_append_left (by simpa using hlt), List.getElem?_map, hget]
    rfl
  · have hcurrent := hacc.current
    rw [← heq] at hcurrent
    cases hphase : (s.workers x.worker).phase with
    | returned msg result =>
        rw [hphase] at hcurrent
        refine ⟨msg, ?_, hkey msg result hcurrent⟩
        rw [List.getElem?_append_right (by simp [heq]), heq]
        simp [Phase.message]
    | _ =>
        rw [hphase] at hcurrent
        have hnone : executions s.log x.worker x.serial = [] := hcurrent
        rw [hnone] at hmem
        cases hmem
  · rw [hacc.later _ hgt] at hmem
    cases hmem

theorem redisKey_inj {m n : SyncMsg} (h : redisKey m = redisKey n) : m.userKey = n.userKey := by
  have htext := congrArg String.toList h
  unfold redisKey at htext
  rw [String.toList_append, String.toList_append] at htext
  exact String.toList_injective (List.append_cancel_left htext)

theorem asU32_le {n : ℤ} (hn : 0 ≤ n) : (asU32 n : ℤ) ≤ n := by
  unfold asU32
  omega

/-- Only a successful reply above the limit changes a bucket. -/
theorem finish_changes {w nowMs latencyUs node slot : ℕ} {exchangeLost : Bool}
    (h : finish p s w nowMs latencyUs exchangeLost = some t) (hchange : t.shm node slot ≠ s.shm node slot) :
    node = p.node w ∧ ∃ msg fleetCount, (s.workers w).phase = .returned msg (.ok fleetCount) ∧
      slot = bucketSlot p.fxHash msg.userKey ∧ msg.maxRps < asU32 fleetCount := by
  unfold finish at h
  dsimp only at h
  split at h
  · rename_i msg result call rest hphase hout
    split at h
    · cases h
    · cases h
      dsimp only at hchange
      by_cases hnode : node = p.node w
      · subst hnode
        rw [Function.update_self] at hchange
        refine ⟨rfl, ?_⟩
        cases result with
        | error outcome => exact absurd rfl hchange
        | ok fleetCount =>
            refine ⟨msg, fleetCount, hphase, ?_⟩
            dsimp only at hchange
            split at hchange
            · exact absurd rfl hchange
            · -- The merge writes the bucket of the message, and only to saturate it.
              unfold FleetSync.applySync RateLimit.applyReply at hchange
              dsimp only at hchange
              by_cases hslot : slot = bucketSlot p.fxHash msg.userKey
              · refine ⟨hslot, ?_⟩
                by_contra hnot
                rw [if_neg hnot, hslot, Function.update_self] at hchange
                exact hchange rfl
              · rw [Function.update_of_ne hslot] at hchange
                exact absurd rfl hchange
      · rw [Function.update_of_ne hnode] at hchange
        exact absurd rfl hchange
  · cases h

/-- Whenever a sync thread changes a bucket, the bucket is that of a user who has sent too much.  More than the
limit of executions on the user's key fall into one lifetime of the counter, the thread's own among them; no
two of them are for the same message, and each is for a message of this user that a request has had queued. -/
theorem saturated_with_reason {clockMs : ℕ} {loaded : Bool} {shm : ℕ → ℕ → ℕ} (hhonest : ∀ e ∈ es, e.Honest)
    (hrun : run (step p) (Fleet.start p clockMs loaded shm) es = some s) {w nowMs latencyUs node slot : ℕ}
    {exchangeLost : Bool} (hfinish : finish p s w nowMs latencyUs exchangeLost = some t)
    (hchange : t.shm node slot ≠ s.shm node slot) :
    node = p.node w ∧ ∃ msg fleetCount, (s.workers w).phase = .returned msg (.ok fleetCount) ∧
      slot = bucketSlot p.fxHash msg.userKey ∧
      ∃ xs : List Execution, xs.Sublist s.log ∧ msg.maxRps < xs.length ∧ (xs.map Execution.label).Nodup ∧
        (∃ x ∈ xs, x.label = (w, s.serial w)) ∧
        ∃ created, ∀ x ∈ xs, created ≤ x.atMs ∧ x.atMs < created + redisTtlSecs * 1000 ∧
          ∃ m, (s.workers x.worker).queued[x.serial]? = some m ∧ m.userKey = msg.userKey := by
  have hs := ledger_run hhonest hrun
  have hlives : Lifetimes s := invariant_run_along (P := fun _ e => e.Honest)
    (fun _ _ _ hs he h => lifetimes_step hs he h) (lifetimes_start clockMs loaded shm)
    (along_of_forall hhonest _) hrun
  rcases finish_changes hfinish hchange with ⟨hnode, msg, fleetCount, hphase, hslot, hover⟩
  refine ⟨hnode, msg, fleetCount, hphase, hslot, ?_⟩
  -- the reply is the value of the thread's own execution
  rcases (hs w).of_phase hphase with ⟨own, hown, hkey, hvalue⟩
  have hmem : own ∈ executions s.log w (s.workers w).handled.length := hown ▸ List.mem_singleton_self own
  rcases List.mem_filter.1 hmem with ⟨hlogged, hlabel⟩
  rcases hlives.values own hlogged with ⟨hnonneg, created, hlife, hcount⟩
  rw [hvalue] at hnonneg hcount
  rw [hkey] at hlife hcount
  have hle := asU32_le hnonneg
  refine ⟨s.log.filter (inLifetime (redisKey msg) created), List.filter_sublist, ?_, ?_, ?_, created, ?_⟩
  · rw [← List.countP_eq_length_filter]
    unfold counted at hcount
    omega
  · exact hs.nodup.sublist (List.filter_sublist.map _)
  · refine ⟨own, List.mem_filter.2 ⟨hlogged, hlife⟩, ?_⟩
    simpa [Execution.label, Fleet.serial] using hlabel
  · intro x hx
    rcases List.mem_filter.1 hx with ⟨hxlog, hxlife⟩
    simp only [inLifetime, decide_eq_true_eq] at hxlife
    rcases hs.message hxlog with ⟨m, hqueued, hxkey⟩
    exact ⟨hxlife.2.1, hxlife.2.2, m, hqueued, redisKey_inj (hxkey.trans hxlife.1)⟩

/-- Alice sends one request to each of two nodes, in the same second; the limit is one. -/
def twoNodes : List Event :=
  [.call 0 100 1 (some "alice"), .call 1 100 1 (some "alice"), .receive 0 1000, .connect 0 true,
    .receive 1 1001, .connect 1 true, .command 0 .replied, .command 1 .replied, .command 0 .replied,
    .command 1 .replied]

theorem twoNodes_honest : ∀ e ∈ twoNodes, e.Honest := by
  intro e he
  fin_cases he <;> trivial

theorem second_node_saturated : ∃ s t,
    run (step sampleSetting) (Fleet.start sampleSetting 7000 false fun _ _ => 0) twoNodes = some s ∧
    finish sampleSetting s 1 1020 19000 false = some t ∧ t.shm 1 5 ≠ s.shm 1 5 ∧
    ∃ msg fleetCount, (s.workers 1).phase = .returned msg (.ok fleetCount) ∧
      ∃ xs : List Execution, xs.Sublist s.log ∧ msg.maxRps < xs.length ∧ (xs.map Execution.label).Nodup := by
  have hreason : ∀ s t,
      run (step sampleSetting) (Fleet.start sampleSetting 7000 false fun _ _ => 0) twoNodes = some s →
      finish sampleSetting s 1 1020 19000 false = some t → t.shm 1 5 ≠ s.shm 1 5 →
      ∃ msg fleetCount, (s.workers 1).phase = .returned msg (.ok fleetCount) ∧
        ∃ xs : List Execution, xs.Sublist s.log ∧ msg.maxRps < xs.length ∧ (xs.map Execution.label).Nodup := by
    intro s t hrun hfinish hchange
    rcases (saturated_with_reason twoNodes_honest hrun hfinish hchange).2 with
      ⟨msg, fleetCount, hphase, -, xs, hsub, hmany, hnodup, -⟩
    exact ⟨msg, fleetCount, hphase, xs, hsub, hmany, hnodup⟩
  exact ⟨_, _, rfl, rfl, by decide +kernel, hreason _ _ rfl rfl (by decide +kernel)⟩

end SyncThread
end GatewayEdge
