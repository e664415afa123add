import GatewayEdge.Foundation.F64
import Mathlib.Algebra.Order.Group.Unbundled.Abs

/-!
# Baselines — what a signal usually looks like

Each signal of the sentinel keeps its last observations in a ring.  Its median and the median of the
deviations from it say what is usual; a value is anomalous when it lies far above that, and above a
floor of its own.
-/

namespace GatewayEdge

open Foundation (F64)

def ringCap : ℕ := 256

structure MadBaseline where
  buf : Vector F64 ringCap
  /-- Where the next observation goes. -/
  idx : Fin ringCap
  filled : ℕ
  filled_le : filled ≤ ringCap

namespace MadBaseline

def new : MadBaseline where
  buf := Vector.replicate ringCap (.num 0)
  idx := ⟨0, by decide⟩
  filled := 0
  filled_le := Nat.zero_le _

def observe (b : MadBaseline) (v : F64) : MadBaseline where
  buf := b.buf.set b.idx v
  idx := ⟨(b.idx + 1) % ringCap, Nat.mod_lt _ (by decide)⟩
  filled := min (b.filled + 1) ringCap
  filled_le := Nat.min_le_right _ _

/-- The finite ones among the filled entries. -/
def finiteVals (b : MadBaseline) : List ℚ :=
  (b.buf.toList.take b.filled).filterMap F64.finite?

/-- The middle entry of the sorted list, or the mean of its two middle entries; zero when there is
none. -/
def middle (vals : List ℚ) : ℚ :=
  let vals := vals.mergeSort
  let mid := vals.length / 2
  if vals.isEmpty then 0
  else if vals.length % 2 = 1 then vals.getD mid 0
  else (vals.getD (mid - 1) 0 + vals.getD mid 0) / 2

def median (b : MadBaseline) : ℚ := middle b.finiteVals

/-- Median absolute deviation. -/
def mad (b : MadBaseline) : ℚ := middle (b.finiteVals.map fun v => |v - b.median|)

/-- What a value has to exceed.  Where the deviations do not spread at all, the median itself sets the
bar. -/
def threshold (b : MadBaseline) (k : ℚ) : ℚ :=
  if 0 < b.mad then b.median + k * b.mad * (14826 / 10000) else b.median * (3 / 2)

def isAnomalous (b : MadBaseline) (v : F64) (k floor : ℚ) : Bool :=
  match v.finite? with
  | none => false
  | some q => if b.filled < 2 ∨ q ≤ floor then false else max (b.threshold k) floor < q

theorem isAnomalous_iff {b : MadBaseline} {q k floor : ℚ} :
    b.isAnomalous (.num q) k floor = true ↔
      ¬(b.filled < 2 ∨ q ≤ floor) ∧ max (b.threshold k) floor < q := by
  have hnum : b.isAnomalous (.num q) k floor =
      if b.filled < 2 ∨ q ≤ floor then false else decide (max (b.threshold k) floor < q) := rfl
  by_cases hidle : b.filled < 2 ∨ q ≤ floor
  · rw [hnum, if_pos hidle]
    exact ⟨fun h => (by cases h), fun h => absurd hidle h.1⟩
  · rw [hnum, if_neg hidle]
    exact ⟨fun h => ⟨hidle, of_decide_eq_true h⟩, fun h => decide_eq_true h.2⟩

/-- Values at or below the floor are never anomalous, whatever has been learned. -/
theorem isAnomalous_of_le {b : MadBaseline} {q k floor : ℚ} (h : q ≤ floor) :
    b.isAnomalous (.num q) k floor = false := by
  apply Bool.eq_false_iff.2
  intro hanomalous
  exact (isAnomalous_iff.1 hanomalous).1 (Or.inr h)

/-- Nothing above an anomalous value is usual. -/
theorem isAnomalous_mono {b : MadBaseline} {p q k floor : ℚ} (hpq : p ≤ q)
    (h : b.isAnomalous (.num p) k floor = true) : b.isAnomalous (.num q) k floor = true := by
  rcases isAnomalous_iff.1 h with ⟨hjudged, habove⟩
  refine isAnomalous_iff.2 ⟨?_, lt_of_lt_of_le habove hpq⟩
  rintro (hthin | hbelow)
  · exact hjudged (Or.inl hthin)
  · exact hjudged (Or.inr (hpq.trans hbelow))

end MadBaseline
end GatewayEdge
