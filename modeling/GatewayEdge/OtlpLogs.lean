import GatewayEdge.OtlpTraces
import Mathlib.Data.List.Destutter

/-!
# OtlpLogs — what the logs tell of the circuit

Each time the thread wakes up it compares the circuit's state with the one it has seen before.
-/

namespace GatewayEdge
namespace Otlp

open Foundation
open RedisCb (CircuitState CbConfig)

variable {cfg : CbConfig} {pid : UInt32} {startedNs : ℕ} {lastState : CircuitState} {tsNs : ℕ} {s : Exporter}
  {es : List Event}

/-! ## The circuit's transitions -/

theorem logs_append_wake (s : Exporter) (doc : MetricsDoc) (records : List Post) :
    (s.posted ++ .metrics doc :: records).flatMap Post.logs = s.logs ++ records.flatMap Post.logs := by
  rw [List.flatMap_append]
  rfl

/-- The records tell these states one after the other, each change of state by one record. -/
def Tell (records : List LogRecord) (states : List CircuitState) : Prop :=
  List.Forall₂ (fun record change => ∃ ts, record = transitionLog change.2 change.1 ts) records
    (states.zip states.tail)

/-- The states that the thread has read. -/
def readStates (es : List Event) : List CircuitState :=
  es.flatMap fun
    | .wake _ curState => [curState]
    | _ => []

theorem readStates_append (es fs : List Event) : readStates (es ++ fs) = readStates es ++ readStates fs :=
  List.flatMap_append

theorem readStates_record (status : ℤ) (latencyUs endNs : ℕ) :
    readStates [.record status latencyUs endNs] = [] := rfl

theorem readStates_recv : readStates [.recv] = [] := rfl

section Destutter

variable {α : Type*} [DecidableEq α]

/-- A repetition at the end changes nothing, another entry is kept. -/
theorem destutter_concat {last first : α} {states : List α} (cur : α)
    (hlast : (first :: states).getLast? = some last) :
    (first :: (states ++ [cur])).destutter (· ≠ ·) =
      if cur = last then (first :: states).destutter (· ≠ ·)
      else (first :: states).destutter (· ≠ ·) ++ [cur] := by
  simp only [List.destutter_cons']
  induction states generalizing first with
  | nil =>
      cases hlast
      by_cases h : cur = first
      · simp [List.destutter', h]
      · simp [List.destutter', h, Ne.symm h]
  | cons state states ih =>
      have hrest := ih (by simpa using hlast)
      by_cases h : first = state
      · subst h
        rw [List.cons_append, List.destutter'_cons_neg _ (by simp), List.destutter'_cons_neg _ (by simp), hrest]
      · rw [List.cons_append, List.destutter'_cons_pos _ h, List.destutter'_cons_pos _ h, hrest]
        split
        · rfl
        · rfl

theorem getLast?_destutter (first : α) (states : List α) :
    ((first :: states).destutter (· ≠ ·)).getLast? = (first :: states).getLast? := by
  simp only [List.destutter_cons']
  induction states generalizing first with
  | nil => rfl
  | cons state states ih =>
      by_cases h : first = state
      · subst h
        rw [List.destutter'_cons_neg _ (by simp), ih first]
        simp
      · rw [List.destutter'_cons_pos _ h, List.getLast?_cons_cons, ← ih state]
        cases hrest : states.destutter' (· ≠ ·) state with
        | nil => exact absurd hrest (List.destutter'_ne_nil _ _)
        | cons _ _ => rfl

end Destutter

theorem zip_tail_append {α : Type*} {states : List α} {last : α} (hlast : states.getLast? = some last) (cur : α) :
    (states ++ [cur]).zip (states ++ [cur]).tail = states.zip states.tail ++ [(last, cur)] := by
  induction states with
  | nil => cases hlast
  | cons state states ih =>
      cases states with
      | nil =>
          cases hlast
          rfl
      | cons next states =>
          have hrest := ih (by simpa using hlast)
          simp only [List.cons_append, List.tail_cons, List.zip_cons_cons] at hrest ⊢
          rw [hrest]

theorem posted_post (s : Exporter) : s.post.logs = s.logs := by
  unfold Exporter.post Exporter.logs
  dsimp only
  split
  · rfl
  · simp [Post.logs]

/-- What the thread has said so far, and the state that it will compare the next one with. -/
structure Told (pid : UInt32) (first : CircuitState) (tsNs : ℕ) (read : List CircuitState) (s : Exporter) :
    Prop where
  last : (first :: read).getLast? = some s.lastState
  logs : ∃ records, s.logs = startupLog pid tsNs :: records ∧
    Tell records ((first :: read).destutter (· ≠ ·))

/-- The thread says that it has read another state, and only then. -/
theorem Told.wake {first : CircuitState} {read : List CircuitState} (hs : Told pid first tsNs read s)
    (curState : CircuitState) (doc : MetricsDoc) (prev : Prev) (ts : ℕ) :
    Told pid first tsNs (read ++ [curState]) { s with
      draining := true
      prev := prev
      lastState := curState
      posted := s.posted ++ .metrics doc ::
        if curState = s.lastState then [] else [.log (transitionLog curState s.lastState ts)] } := by
  rcases hs.logs with ⟨records, hlogs, htell⟩
  refine ⟨by rw [← List.cons_append, List.getLast?_concat], ?_⟩
  have hnew : ∀ news, Exporter.logs { s with
      draining := true
      prev := prev
      lastState := curState
      posted := s.posted ++ .metrics doc :: news } = s.logs ++ news.flatMap Post.logs :=
    fun news => logs_append_wake s doc news
  rw [hnew, destutter_concat curState hs.last]
  split
  · exact ⟨records, (List.append_nil _).trans hlogs, htell⟩
  · refine ⟨records ++ [transitionLog curState s.lastState ts], congrArg (· ++ _) hlogs, ?_⟩
    unfold Tell
    rw [zip_tail_append ((getLast?_destutter first read).trans hs.last)]
    exact List.rel_append htell (List.Forall₂.cons ⟨ts, rfl⟩ List.Forall₂.nil)

/-- Behind the start-up record the logs tell, one change after the other, the states that the thread has
read, without their repetitions. -/
theorem logs_tell_the_states
    (hrun : run (Exporter.step cfg pid startedNs) (Exporter.start pid lastState tsNs) es = some s) :
    ∃ records, s.logs = startupLog pid tsNs :: records ∧
      Tell records ((lastState :: readStates es).destutter (· ≠ ·)) := by
  refine (run_induction (Q := fun es s => Told pid lastState tsNs (readStates es) s) ?_ ?_ hrun).logs
  · exact ⟨rfl, [], rfl, List.Forall₂.nil⟩
  · intro es m e t _ hm h
    rw [readStates_append]
    rcases step_cases h with ⟨status, latencyUs, endNs, rfl, -, rfl⟩ | ⟨status, latencyUs, endNs, rfl, -, rfl⟩ |
      ⟨reading, curState, rfl, -, rfl⟩ | ⟨ev, rest, rfl, -, -, -, rfl⟩ | ⟨rfl, -, -, rfl⟩
    · rw [readStates_record, List.append_nil]
      exact ⟨hm.last, hm.logs⟩
    · rw [readStates_record, List.append_nil]
      exact hm
    · exact hm.wake curState _ _ _
    · rw [readStates_recv, List.append_nil]
      exact ⟨hm.last, hm.logs⟩
    · rw [readStates_recv, List.append_nil]
      exact ⟨hm.last, (posted_post m).symm ▸ hm.logs⟩

/-- The circuit opens, stays open over a second round and is half open in a third. -/
def threeRounds : List Event :=
  [.wake { tsNs := 1, cb := { window := [] }, snapshot := {} } .opened, .recv,
    .wake { tsNs := 2, cb := { window := [] }, snapshot := {} } .opened, .recv,
    .wake { tsNs := 3, cb := { window := [] }, snapshot := {} } .halfOpen, .recv]

theorem logs_of_three_rounds : ∃ s,
    run (Exporter.step (.fromEnv fun _ => none) 7 0) (Exporter.start 7 .closed 0) threeRounds = some s ∧
    ∃ records, s.logs = startupLog 7 0 :: records ∧ Tell records [.closed, .opened, .halfOpen] :=
  ⟨_, rfl, @logs_tell_the_states (.fromEnv fun _ => none) 7 0 .closed 0 _ threeRounds rfl⟩

end Otlp
end GatewayEdge
