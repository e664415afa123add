import GatewayEdge.Baselines
import GatewayEdge.Foundation.Median
import GatewayEdge.Foundation.RecentRing

/-!
# LearnedBaseline — what the baseline makes of its observations

The ring of a baseline overwrites its oldest observation, so what it has learned is a function of the newest
ones: the multiset of the finite values among them, and how many there are.  The median of that multiset
withstands outliers as long as they are fewer than half.
-/

namespace GatewayEdge
namespace MadBaseline

open Foundation
open Foundation.RecentRing (newest)

/-- The baseline after these observations. -/
def fed (obs : List F64) : MadBaseline := obs.foldl observe new

/-- The finite values among the observations that are not yet forgotten. -/
def window (obs : List F64) : Multiset ℚ := (newest ringCap obs : Multiset F64).filterMap F64.finite?

variable {obs obs' : List F64}

/-! ## The ring -/

def toRing (b : MadBaseline) : RecentRing F64 where
  cells := b.buf.toList
  next := b.idx
  filled := b.filled

theorem toRing_observe (b : MadBaseline) (v : F64) : (b.observe v).toRing = b.toRing.push v := by
  simp [toRing, observe, RecentRing.push, Vector.toList_set]

theorem toRing_fed (obs : List F64) :
    (fed obs).toRing = obs.foldl RecentRing.push (.blank ringCap (.num 0)) := by
  unfold fed
  induction obs using List.reverseRecOn with
  | nil => simp [toRing, new, RecentRing.blank]
  | append_singleton obs v ih => rw [List.foldl_concat, List.foldl_concat, toRing_observe, ih]

theorem filled_fed (obs : List F64) : (fed obs).filled = min obs.length ringCap := by
  have h := RecentRing.filled_fill (by decide : 0 < ringCap) (.num 0) obs
  rw [← toRing_fed] at h
  exact h

/-- The filled entries are the newest observations, in some order. -/
theorem finiteVals_fed (obs : List F64) : ((fed obs).finiteVals : Multiset ℚ) = window obs := by
  have hperm := RecentRing.fill_perm (by decide : 0 < ringCap) (.num 0) obs
  rw [← toRing_fed] at hperm
  exact Multiset.coe_eq_coe.2 (hperm.filterMap _)

/-! ## Medians -/

/-- The code's middle value is the median. -/
theorem middle_eq_median (vals : List ℚ) : middle vals = Median.median (vals : Multiset ℚ) := by
  unfold middle Median.median Median.entry
  simp only [List.length_mergeSort, Multiset.coe_card, Multiset.coe_sort, List.isEmpty_iff,
    ← List.length_eq_zero_iff]
  rfl

theorem median_fed (obs : List F64) : (fed obs).median = Median.median (window obs) := by
  unfold median
  rw [middle_eq_median, finiteVals_fed]

theorem mad_fed (obs : List F64) : (fed obs).mad = Median.deviation (window obs) := by
  unfold mad Median.deviation
  rw [middle_eq_median, median_fed, ← finiteVals_fed, Multiset.map_coe]

/-! ## Judgements -/

/-- Rearranged observations are the same to the baseline. -/
theorem window_eq_of_perm (h : (newest ringCap obs').Perm (newest ringCap obs)) :
    window obs' = window obs := by
  unfold window
  rw [Multiset.coe_eq_coe.2 h]

theorem isAnomalous_congr (hwindow : window obs' = window obs) (hnumber : obs'.length = obs.length)
    (v : F64) (k floor : ℚ) : (fed obs').isAnomalous v k floor = (fed obs).isAnomalous v k floor := by
  have hthreshold : (fed obs').threshold k = (fed obs).threshold k := by
    unfold threshold
    rw [median_fed, median_fed, mad_fed, mad_fed, hwindow]
  unfold isAnomalous
  rw [filled_fed, filled_fed, hnumber, hthreshold]

/-- For every sequence of observations the baseline's median and deviation are those of the finite values
among the newest ones.  What it calls anomalous depends on nothing but these values and the number of
observations, and not on their order; a larger value than an anomalous one is anomalous.  If fewer than half
of the values are replaced by any others, the median stays between the least and the greatest of those that
are kept. -/
theorem median_of_newest (obs : List F64) :
    (fed obs).median = Median.median (window obs) ∧
      (fed obs).mad = Median.deviation (window obs) ∧
      (∀ obs', window obs' = window obs → obs'.length = obs.length → ∀ v k floor,
        (fed obs').isAnomalous v k floor = (fed obs).isAnomalous v k floor) ∧
      (∀ obs', (newest ringCap obs').Perm (newest ringCap obs) → window obs' = window obs) ∧
      (∀ p q k floor, p ≤ q → (fed obs).isAnomalous (.num p) k floor = true →
        (fed obs).isAnomalous (.num q) k floor = true) ∧
      ∀ obs' kept old fresh, window obs = kept + old → window obs' = kept + fresh →
        fresh.card = old.card → 2 * old.card < (window obs).card →
        ∃ lo ∈ kept, ∃ hi ∈ kept, (∀ v ∈ kept, lo ≤ v ∧ v ≤ hi) ∧
          lo ≤ (fed obs').median ∧ (fed obs').median ≤ hi := by
  refine ⟨median_fed obs, mad_fed obs, fun obs' => isAnomalous_congr,
    fun obs' => window_eq_of_perm, fun p q k floor => isAnomalous_mono, ?_⟩
  intro obs' kept old fresh hbefore hafter hcard hfew
  rw [median_fed]
  refine Median.exists_le_median_le hafter ?_
  rw [hafter, Multiset.card_add, hcard]
  rwa [hbefore, Multiset.card_add] at hfew

/-- With 10 and 12 learned, the median is 11 and the deviation 1. -/
example : (fed [.num 10, .num 12]).isAnomalous (.num 20) 6 5 = true ∧
    (fed [.num 10, .num 12]).isAnomalous (.num 19) 6 5 = false := by
  have hvals : (fed [.num 10, .num 12]).finiteVals = [10, 12] := by decide +kernel
  have hfilled : (fed [.num 10, .num 12]).filled = 2 := filled_fed _
  have hmedian : (fed [.num 10, .num 12]).median = 11 := by
    unfold median middle
    rw [hvals, List.mergeSort_of_pairwise (by decide +kernel)]
    norm_num
  have hmad : (fed [.num 10, .num 12]).mad = 1 := by
    unfold mad middle
    rw [hvals, hmedian, List.mergeSort_of_pairwise (by decide +kernel)]
    norm_num
  constructor
  · rw [isAnomalous_iff, hfilled, threshold, hmad, hmedian]
    norm_num
  · rw [Bool.eq_false_iff, ne_eq, isAnomalous_iff, hfilled, threshold, hmad, hmedian]
    norm_num

end MadBaseline
end GatewayEdge
