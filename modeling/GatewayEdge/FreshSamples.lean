import GatewayEdge.SentinelLoop
import GatewayEdge.Waf

/-!
# FreshSamples — what the sentinel takes for new

The counters of requests, server errors and blocks live in mapped files and outlive every worker.  The
sentinel's thread keeps the values it has read last and judges the differences.  It starts from zeros,
though, not from what the files hold, so its first iteration takes the whole past of the node for the
last second.

Increments of different counters commute, and an iteration loads each counter once.  So it may be taken
to load all three at one moment, with the increments of a single request before and after it.
-/

namespace GatewayEdge
namespace FreshSamples

open Foundation
open Sentinel (Sample Signals State iteration iteration_reentrant quietSample sampleStep)
open Telemetry (Metrics fetchAdd)

/-! ## The counters -/

/-- The shared counters that the sentinel reads. -/
inductive Counter
  | requests
  | serverErrors
  | blocks
  deriving DecidableEq, Repr

/-- What a counter held at the last iteration, or when the thread started, and how many events it has
counted since. -/
structure Tally where
  first : Bool := true
  origin : ℕ
  since : ℕ := 0
  deriving DecidableEq, Repr

namespace Tally

def count (t : Tally) : Tally := { t with since := t.since + 1 }

/-- An iteration has read `value`. -/
def sampled (value : ℕ) : Tally := { first := false, origin := value }

/-- The counter has not wrapped around since the last iteration; and before the first iteration it started
from zero. -/
def Clean (t : Tally) : Prop := (t.first = true → t.origin = 0) ∧ t.origin + t.since < 2 ^ 64

/-- How a counter and the value the thread remembers of it come from the tally. -/
structure Agrees (t : Tally) (value prev : ℕ) : Prop where
  word : t.origin < 2 ^ 64
  value : value = (t.origin + t.since) % 2 ^ 64
  prev : prev = if t.first then 0 else t.origin

variable {t : Tally} {value prev : ℕ}

theorem Agrees.count (h : t.Agrees value prev) : t.count.Agrees (fetchAdd 1 value) prev where
  word := h.word
  value := by
    rw [fetchAdd, h.value, Nat.mod_add_mod, Nat.add_assoc]
    rfl
  prev := h.prev

theorem Agrees.sampled (h : t.Agrees value prev) : (Tally.sampled value).Agrees value value where
  word := by
    rw [h.value]
    exact Nat.mod_lt _ (by decide)
  value := by
    rw [h.value]
    exact (Nat.mod_mod _ _).symm
  prev := rfl

/-- The difference that saturates is the number of events exactly if the tally is clean. -/
theorem Agrees.delta_iff (h : t.Agrees value prev) : value - prev = t.since ↔ t.Clean := by
  rcases h with ⟨hword, rfl, rfl⟩
  unfold Clean
  -- What has wrapped around is missing from the difference, and what the thread forgot is in it.
  cases hfirst : t.first with
  | true =>
      simp only [if_true, forall_const]
      omega
  | false =>
      simp only [Bool.false_eq_true, if_false, false_imp_iff, true_and]
      omega

end Tally

/-! ## A node and its sentinel -/

/-- The two mapped files, the sentinel's thread, and the tallies. -/
structure Node where
  metrics : Metrics
  waf : Waf.Shm
  sentinel : State := {}
  tally : Counter → Tally

inductive Event
  /-- One increment, by any worker of the node. -/
  | increment (c : Counter)
  | iterate (around : Sample)

namespace Node

def value (n : Node) : Counter → ℕ
  | .requests => n.metrics.requestsTotal
  | .serverErrors => n.metrics.requests5xx
  | .blocks => n.waf.blocks

/-- The sample of an iteration, with the counters of the node. -/
def sample (n : Node) (around : Sample) : Sample :=
  { around with snapshot := n.metrics, wafTotal := n.waf.blocks }

/-- The counters hold any 64-bit values when the thread starts. -/
def start (metrics : Metrics) (waf : Waf.Shm) (held : Counter → UInt64) : Node where
  metrics :=
    { metrics with
      requestsTotal := (held .requests).toNat
      requests5xx := (held .serverErrors).toNat }
  waf := { waf with blocks := (held .blocks).toNat }
  tally c := { origin := (held c).toNat }

/-- The atomic increment alone. -/
def increment (n : Node) : Counter → Node
  | .requests =>
    { n with metrics := { n.metrics with requestsTotal := fetchAdd 1 n.metrics.requestsTotal } }
  | .serverErrors =>
    { n with metrics := { n.metrics with requests5xx := fetchAdd 1 n.metrics.requests5xx } }
  | .blocks => { n with waf := Waf.incrementWafBlocks n.waf }

end Node

def step (reentrant : Bool) (n : Node) : Event → Option Node
  | .increment c =>
    some { n.increment c with tally := fun d => if d = c then (n.tally c).count else n.tally d }
  | .iterate around =>
    match iteration reentrant (n.sample around) n.sentinel with
    | .error _ => none
    | .ok st => some { n with sentinel := st, tally := fun c => .sampled (n.value c) }

/-! ## Signals -/

def signal (s : Signals) : Counter → ℕ
  | .requests => s.requests
  | .serverErrors => s.serverErrors
  | .blocks => s.wafBlocks

/-- What the thread remembers of a counter. -/
def previous (st : State) : Counter → ℕ
  | .requests => st.prevReq
  | .serverErrors => st.prev5xx
  | .blocks => st.prevWaf

/-- An iteration judges just the events since the last one. -/
def Fresh (n : Node) (e : Event) : Prop :=
  ∀ around, e = .iterate around →
    ∀ c, signal (n.sentinel.signals (n.sample around)) c = (n.tally c).since

/-- An iteration finds no counter wrapped around, and the first one none that was already in use. -/
def CleanSample (n : Node) (e : Event) : Prop :=
  ∀ around, e = .iterate around → ∀ c, (n.tally c).Clean

theorem signal_eq (n : Node) (around : Sample) (c : Counter) :
    signal (n.sentinel.signals (n.sample around)) c = n.value c - previous n.sentinel c := by
  cases c with
  | requests => rfl
  | serverErrors => rfl
  | blocks => rfl

/-! ## Increments -/

theorem value_increment (n : Node) (c d : Counter) :
    (n.increment c).value d = if d = c then fetchAdd 1 (n.value c) else n.value d := by
  -- The three counters are three different words.
  cases c <;> cases d <;> rfl

theorem sentinel_increment (n : Node) (c : Counter) : (n.increment c).sentinel = n.sentinel := by
  cases c with
  | requests => rfl
  | serverErrors => rfl
  | blocks => rfl

/-- `record_request` increments the request counter, and that of server errors for a status of that
kind. -/
theorem value_recordRequest (n : Node) (status : ℤ) (latencyUs : ℕ) (d : Counter) :
    Node.value { n with metrics := Telemetry.recordRequest status latencyUs n.metrics } d =
      Node.value
        (if 500 ≤ status ∧ status ≤ 599 then (n.increment .requests).increment .serverErrors
        else n.increment .requests) d := by
  by_cases herror : 500 ≤ status ∧ status ≤ 599
  · rw [if_pos herror]
    cases d with
    | requests => rfl
    | serverErrors => exact if_pos herror
    | blocks => rfl
  · rw [if_neg herror]
    cases d with
    | requests => rfl
    | serverErrors => exact if_neg herror
    | blocks => rfl

/-! ## The invariant -/

def Inv (n : Node) : Prop := ∀ c, (n.tally c).Agrees (n.value c) (previous n.sentinel c)

theorem inv_start (metrics : Metrics) (waf : Waf.Shm) (held : Counter → UInt64) :
    Inv (.start metrics waf held) := by
  intro c
  have hvalue : (Node.start metrics waf held).value c = (held c).toNat := by
    cases c with
    | requests => rfl
    | serverErrors => rfl
    | blocks => rfl
  have hprev : previous (Node.start metrics waf held).sentinel c = 0 := by
    cases c with
    | requests => rfl
    | serverErrors => rfl
    | blocks => rfl
  rw [hvalue, hprev]
  exact
    { word := (held c).toNat_lt
      value := (Nat.mod_eq_of_lt (held c).toNat_lt).symm
      prev := rfl }

/-- An iteration remembers what it has read. -/
theorem previous_sampleStep (n : Node) (around : Sample) (c : Counter) :
    previous (sampleStep (n.sample around) n.sentinel) c = n.value c := by
  rcases Sentinel.updatePosture_previous (n.sentinel.target (n.sample around)) (n.sample around)
    (n.sentinel.sampled (n.sample around)) with ⟨hwaf, h5xx, hreq⟩
  cases c with
  | requests => exact hreq
  | serverErrors => exact h5xx
  | blocks => exact hwaf

theorem inv_step (reentrant : Bool) (n : Node) (e : Event) (n' : Node) (h : Inv n)
    (hstep : step reentrant n e = some n') : Inv n' := by
  cases e with
  | increment c =>
      cases hstep
      intro d
      -- The counter moves with its tally, and the thread notices neither.
      have hsentinel := sentinel_increment n c
      show (if d = c then (n.tally c).count else n.tally d).Agrees ((n.increment c).value d)
        (previous (n.increment c).sentinel d)
      rw [value_increment, hsentinel]
      split
      · rename_i hsame
        rw [hsame]
        exact (h c).count
      · exact h d
  | iterate around =>
      cases reentrant with
      | true =>
          simp only [step, iteration_reentrant] at hstep
          cases hstep
          intro c
          have hprev := previous_sampleStep n around c
          show (Tally.sampled (n.value c)).Agrees (n.value c)
            (previous (sampleStep (n.sample around) n.sentinel) c)
          rw [hprev]
          exact (h c).sampled
      | false =>
          -- Over the standard mutex the iteration does not come to its end.
          have hblocks := (Sentinel.iteration_blocks n.sentinel).1 (n.sample around)
          simp [step, hblocks] at hstep

/-! ## Whole runs -/

theorem fresh_iff {n : Node} (h : Inv n) (e : Event) : Fresh n e ↔ CleanSample n e := by
  unfold Fresh CleanSample
  refine forall_congr' fun around => imp_congr_right fun _ => forall_congr' fun c => ?_
  rw [signal_eq]
  exact (h c).delta_iff

/-- Whatever the counters hold when the thread starts, its iterations judge just the events since the last
one exactly as long as they find the counters clean. -/
theorem samples_fresh_iff (reentrant : Bool) (metrics : Metrics) (waf : Waf.Shm)
    (held : Counter → UInt64) (events : List Event) :
    Along (step reentrant) Fresh (.start metrics waf held) events ↔
      Along (step reentrant) CleanSample (.start metrics waf held) events := by
  apply along_congr (I := Inv) (inv_step reentrant)
  · exact fun n e h => fresh_iff h e
  · exact inv_start metrics waf held

/-- A worker starts beside a file with 300 blocks of earlier days, and nothing happens. -/
def afterRestart : Node :=
  .start {} { blocks := 0, ip := fun _ => 0 } fun c => if c = .blocks then 300 else 0

theorem old_blocks_count_as_new :
    ¬ Along (step false) Fresh afterRestart [.iterate quietSample] ∧
      ¬ Along (step true) Fresh afterRestart [.iterate quietSample] := by
  have hstale : ¬ Fresh afterRestart (.iterate quietSample) := by
    intro h
    have hblocks := h quietSample rfl .blocks
    exact absurd hblocks (by decide)
  exact ⟨fun h => hstale h.1, fun h => hstale h.1⟩

end FreshSamples
end GatewayEdge
