import GatewayEdge.RedisCb.Config
import Mathlib.Algebra.Ring.Nat

/-!
# RedisCb.Window — the rolling latency window

One bucket per second, reused cyclically.  A bucket left over from another second is cleared by the first
call that records into it; whatever else is stale is skipped when the window is read.
-/

namespace GatewayEdge
namespace RedisCb

open Foundation

/-- Result of a Redis operation attempt. -/
inductive RedisCallOutcome
  | success
  | redisError
  | timeout
  | circuitOpen
  | concurrencyRejected
  deriving DecidableEq, Repr

def histBands : Nat := 18

/-- Upper bound of each band in microseconds; the last band has none. -/
def histBoundsUs : List Nat := [
  500, 1000, 2000, 4000, 8000, 16000, 32000, 64000,
  100000, 150000, 200000, 300000, 400000, 500000,
  750000, 1000000, 2000000]

def maxWindowBuckets : Nat := 64

structure TimeBucket where
  ts : Nat := 0
  total : Nat := 0
  errors : Nat := 0
  timeouts : Nat := 0
  latencySum : Nat := 0
  hist : List Nat := List.replicate histBands 0
  deriving DecidableEq, Repr

abbrev RollingWindow := List TimeBucket

def RollingWindow.new (size : Nat) : RollingWindow := List.replicate size {}

/-- `current_ts`: seconds in 32 bits, from a clock in milliseconds. -/
def currentTs (nowMs : Nat) : Nat := nowMs / 1000 % 2 ^ 32

/-! ## Recording -/

/-- The lazy clear: a bucket of another second starts over. -/
def TimeBucket.forSecond (ts : Nat) (b : TimeBucket) : TimeBucket :=
  if b.ts ≠ ts then { ts := ts } else b

/-- `partition_point(|&bound| latency_us > bound)`. -/
def latencyBand (latencyUs : Nat) : Nat := (histBoundsUs.takeWhile (· < latencyUs)).length

def TimeBucket.count (outcome : RedisCallOutcome) (latencyUs : Nat) (b : TimeBucket) : TimeBucket :=
  { b with
    total := b.total + 1
    latencySum := b.latencySum + latencyUs
    hist := b.hist.modify (latencyBand latencyUs) (· + 1)
    errors := if outcome = .redisError then b.errors + 1 else b.errors
    timeouts := if outcome = .timeout then b.timeouts + 1 else b.timeouts }

/-- The window with the bucket of this second cleared, before anything is counted. -/
def RollingWindow.atSecond (ts : Nat) (w : RollingWindow) : RollingWindow :=
  w.modify (ts % w.length) (TimeBucket.forSecond ts)

/-- `record`, under the lock of one bucket. -/
def RollingWindow.record (outcome : RedisCallOutcome) (latencyUs ts : Nat) (w : RollingWindow) :
    RollingWindow :=
  w.modify (ts % w.length) fun b => (b.forSecond ts).count outcome latencyUs

/-! ## Reading -/

structure WindowStats where
  total : Nat := 0
  errors : Nat := 0
  timeouts : Nat := 0
  hist : List Nat := List.replicate histBands 0
  deriving DecidableEq, Repr

/-- Older than the window, or from a clock that was ahead. -/
def TimeBucket.Stale (windowSecs nowTs : Nat) (b : TimeBucket) : Prop :=
  b.ts < nowTs - windowSecs ∨ nowTs < b.ts

instance (windowSecs nowTs : Nat) (b : TimeBucket) : Decidable (b.Stale windowSecs nowTs) :=
  inferInstanceAs (Decidable (_ ∨ _))

/-- One round of the loop of `aggregate`. -/
def WindowStats.add (windowSecs nowTs : Nat) (acc : WindowStats) (b : TimeBucket) : WindowStats :=
  if b.Stale windowSecs nowTs then acc
  else
    { total := acc.total + b.total
      errors := acc.errors + b.errors
      timeouts := acc.timeouts + b.timeouts
      hist := List.zipWith (· + ·) acc.hist b.hist }

def RollingWindow.aggregate (windowSecs nowTs : Nat) (w : RollingWindow) : WindowStats :=
  w.foldl (WindowStats.add windowSecs nowTs) {}

namespace WindowStats

/-- A share of all calls, zero when there are none; the breaker compares it as an exact quotient. -/
def rate (count total : Nat) : F64 := .num (if total = 0 then 0 else (count : ℚ) / total)

def errorRate (s : WindowStats) : F64 := rate s.errors s.total

def timeoutRate (s : WindowStats) : F64 := rate s.timeouts s.total

/-- The error rate as it is published, with the counts and their quotient rounded to doubles. -/
def errorRateF64 (s : WindowStats) : F64 :=
  if s.total = 0 then .num 0 else (F64.round s.errors).div (F64.round s.total)

/-- `u64::MAX`. -/
def u64Max : Nat := 2 ^ 64 - 1

/-- The loop of `percentile_us`: the bound of the band that reaches the target. -/
def percentileBand (target : Nat) : Nat → List Nat → List Nat → Nat
  | _, _, [] => u64Max
  | cumulative, bounds, count :: hist =>
    if target ≤ cumulative + count then bounds.head?.getD u64Max
    else percentileBand target (cumulative + count) bounds.tail hist

def percentileUs (pct : ℚ) (s : WindowStats) : Nat :=
  if s.total = 0 then 0
  else percentileBand (s.total * pct / 100).ceil.toNat 0 histBoundsUs s.hist

end WindowStats

/-! ## What one more call adds -/

/-- A count summed over the buckets that are not stale. -/
def RollingWindow.liveSum (count : TimeBucket → Nat) (windowSecs nowTs : Nat) (w : RollingWindow) : Nat :=
  (w.map fun b => if b.Stale windowSecs nowTs then 0 else count b).sum

theorem liveSum_cons (count : TimeBucket → Nat) (windowSecs nowTs : Nat) (b : TimeBucket)
    (bs : RollingWindow) : RollingWindow.liveSum count windowSecs nowTs (b :: bs) =
      (if b.Stale windowSecs nowTs then 0 else count b) + bs.liveSum count windowSecs nowTs := by
  simp [RollingWindow.liveSum]

/-- The three counts of a reading. -/
theorem aggregate_counts (windowSecs nowTs : Nat) (w : RollingWindow) :
    (w.aggregate windowSecs nowTs).total = w.liveSum TimeBucket.total windowSecs nowTs ∧
      (w.aggregate windowSecs nowTs).errors = w.liveSum TimeBucket.errors windowSecs nowTs ∧
      (w.aggregate windowSecs nowTs).timeouts = w.liveSum TimeBucket.timeouts windowSecs nowTs := by
  have hfold : ∀ (bs : RollingWindow) (acc : WindowStats),
      (bs.foldl (WindowStats.add windowSecs nowTs) acc).total =
          acc.total + bs.liveSum TimeBucket.total windowSecs nowTs ∧
        (bs.foldl (WindowStats.add windowSecs nowTs) acc).errors =
          acc.errors + bs.liveSum TimeBucket.errors windowSecs nowTs ∧
        (bs.foldl (WindowStats.add windowSecs nowTs) acc).timeouts =
          acc.timeouts + bs.liveSum TimeBucket.timeouts windowSecs nowTs := by
    intro bs
    induction bs with
    | nil =>
        intro acc
        exact ⟨rfl, rfl, rfl⟩
    | cons b bs ih =>
        intro acc
        rcases ih (acc.add windowSecs nowTs b) with ⟨htotal, herrors, htimeouts⟩
        rw [List.foldl_cons, htotal, herrors, htimeouts, liveSum_cons, liveSum_cons, liveSum_cons]
        by_cases hstale : b.Stale windowSecs nowTs
        · have hadd : acc.add windowSecs nowTs b = acc := if_pos hstale
          simp [hadd, hstale]
        · unfold WindowStats.add
          simp only [hstale, if_false]
          omega
  simpa [RollingWindow.aggregate] using hfold w {}

theorem liveSum_modify (count : TimeBucket → Nat) (windowSecs nowTs : Nat) (f : TimeBucket → TimeBucket)
    {w : RollingWindow} {i : Nat} (hi : i < w.length) :
    RollingWindow.liveSum count windowSecs nowTs (w.modify i f) +
        (if w[i].Stale windowSecs nowTs then 0 else count w[i]) =
      w.liveSum count windowSecs nowTs +
        (if (f w[i]).Stale windowSecs nowTs then 0 else count (f w[i])) := by
  induction w generalizing i with
  | nil => cases hi
  | cons b bs ih =>
      cases i with
      | zero =>
          rw [List.modify_zero_cons, liveSum_cons, liveSum_cons, List.getElem_cons_zero]
          omega
      | succ i =>
          have hrest := ih (Nat.lt_of_succ_lt_succ hi)
          rw [List.modify_succ_cons, liveSum_cons, liveSum_cons, List.getElem_cons_succ]
          omega

/-- A bucket of the current second is never stale. -/
theorem not_stale_of_ts_eq {windowSecs nowTs : Nat} {b : TimeBucket} (h : b.ts = nowTs) :
    ¬ b.Stale windowSecs nowTs := by
  unfold TimeBucket.Stale
  omega

theorem forSecond_ts (ts : Nat) (b : TimeBucket) : (b.forSecond ts).ts = ts := by
  unfold TimeBucket.forSecond
  by_cases hts : b.ts = ts
  · simp [hts]
  · simp [hts]

/-- A successful call adds one to the total of what was there before it, and nothing to the errors and
the timeouts. -/
theorem aggregate_record_success (windowSecs latencyUs ts : Nat) {w : RollingWindow} (hw : w ≠ []) :
    let before := (w.atSecond ts).aggregate windowSecs ts
    let after := (w.record .success latencyUs ts).aggregate windowSecs ts
    after.total = before.total + 1 ∧ after.errors = before.errors ∧ after.timeouts = before.timeouts := by
  have hi : ts % w.length < w.length := Nat.mod_lt _ (List.length_pos_iff.2 hw)
  have hfresh : ¬ ((w[ts % w.length]).forSecond ts).Stale windowSecs ts :=
    not_stale_of_ts_eq (forSecond_ts ts _)
  have hcounted : ¬ (((w[ts % w.length]).forSecond ts).count .success latencyUs).Stale windowSecs ts :=
    not_stale_of_ts_eq (forSecond_ts ts _)
  -- Both windows are the old one with the same bucket replaced.
  have hsum : ∀ count : TimeBucket → Nat,
      RollingWindow.liveSum count windowSecs ts (w.record .success latencyUs ts) +
          count ((w[ts % w.length]).forSecond ts) =
        RollingWindow.liveSum count windowSecs ts (w.atSecond ts) +
          count (((w[ts % w.length]).forSecond ts).count .success latencyUs) := by
    intro count
    have hrecord := liveSum_modify count windowSecs ts
      (fun b => (b.forSecond ts).count .success latencyUs) hi
    have hcleared := liveSum_modify count windowSecs ts (TimeBucket.forSecond ts) hi
    simp only [hfresh, hcounted, if_false] at hrecord hcleared
    unfold RollingWindow.record RollingWindow.atSecond
    omega
  rcases aggregate_counts windowSecs ts (w.atSecond ts) with ⟨htotal, herrors, htimeouts⟩
  rcases aggregate_counts windowSecs ts (w.record .success latencyUs ts) with
    ⟨htotal', herrors', htimeouts'⟩
  have h1 := hsum TimeBucket.total
  have h2 := hsum TimeBucket.errors
  have h3 := hsum TimeBucket.timeouts
  simp only [TimeBucket.count, reduceCtorEq, if_false] at h1 h2 h3
  dsimp only
  rw [htotal, herrors, htimeouts, htotal', herrors', htimeouts']
  omega

end RedisCb
end GatewayEdge
