import Mathlib.Data.List.Sort
import Mathlib.Data.Rat.Floor
import Mathlib.Order.Basic
import Mathlib.Tactic.Linarith
import Mathlib.Tactic.Positivity

/-!
# OrderStatistic — nearest-rank percentiles of a list

The `pct`-percentile of `n` values is the one at place `⌈n · pct / 100⌉` of the sorted list.  It is known
by what lies below it: a property that is inherited downwards holds of it exactly when it holds of that
many values (`nearestRank_iff`).
-/

namespace GatewayEdge
namespace Foundation
namespace OrderStatistic

variable {α : Type*} [LinearOrder α] {p : α → Bool} {xs : List α} {pct pct' : ℚ} {v v' : α}

/-! ## Sorted lists -/

/-- What is inherited downwards holds of the beginning of a sorted list. -/
theorem sorted_iff (hdown : ∀ a b, a ≤ b → p b = true → p a = true) {s : List α}
    (hs : s.Pairwise (· ≤ ·)) {k : ℕ} (hk : k < s.length) : p s[k] = true ↔ k < s.countP p := by
  -- The entries with the property come first, so their number says where they end.
  induction s generalizing k with
  | nil => cases hk
  | cons a s ih =>
      rcases List.pairwise_cons.1 hs with ⟨hfirst, hrest⟩
      cases ha : p a with
      | true =>
          rw [List.countP_cons_of_pos ha]
          cases k with
          | zero => simpa using ha
          | succ k =>
              rw [List.getElem_cons_succ, ih hrest (Nat.lt_of_succ_lt_succ hk)]
              exact (Nat.succ_lt_succ_iff).symm
      | false =>
          -- Nothing after `a` has the property either.
          have hnone : ∀ b ∈ a :: s, ¬ p b = true := by
            intro b hb hpb
            rcases List.mem_cons.1 hb with rfl | hb
            · exact Bool.false_ne_true (ha.symm.trans hpb)
            · exact Bool.false_ne_true (ha.symm.trans (hdown a b (hfirst b hb) hpb))
          rw [List.countP_eq_zero.2 hnone]
          exact ⟨fun h => absurd h (hnone _ (List.getElem_mem hk)), fun h => absurd h (Nat.not_lt_zero k)⟩

/-! ## Ranks -/

/-- The place of the percentile among `n` values, from one. -/
def rank (pct : ℚ) (n : ℕ) : ℕ := (n * pct / 100).ceil.toNat

theorem rank_mono (h : pct ≤ pct') (n : ℕ) : rank pct n ≤ rank pct' n := by
  have hn : (0 : ℚ) ≤ n := Nat.cast_nonneg n
  have hle : (n : ℚ) * pct / 100 ≤ n * pct' / 100 := by gcongr
  exact Int.toNat_le_toNat (Rat.ceil_le_iff.2 (hle.trans Rat.le_ceil))

theorem rank_pos (hpct : 0 < pct) {n : ℕ} (hn : 0 < n) : 1 ≤ rank pct n := by
  have hpos : (0 : ℚ) < n * pct / 100 := by positivity
  have hceil : 0 < ((n : ℚ) * pct / 100).ceil := Rat.lt_ceil_iff.2 (by simpa using hpos)
  unfold rank
  omega

theorem rank_le (hpct : pct ≤ 100) (n : ℕ) : rank pct n ≤ n := by
  have hn : (0 : ℚ) ≤ n := Nat.cast_nonneg n
  have hle : (n : ℚ) * pct / 100 ≤ n := by
    calc
      (n : ℚ) * pct / 100 ≤ n * 100 / 100 := by gcongr
      _ = n := by ring
  exact Int.toNat_le.2 (Rat.ceil_le_iff.2 (by simpa using hle))

/-! ## Percentiles -/

def nearestRank (pct : ℚ) (xs : List α) : Option α := xs.mergeSort[rank pct xs.length - 1]?

/-- A list that is not empty has a percentile, which is one of its values. -/
theorem exists_nearestRank (hxs : xs ≠ []) (hpos : 0 < pct) (hle : pct ≤ 100) :
    ∃ v ∈ xs, nearestRank pct xs = some v := by
  have hlength : 0 < xs.length := List.length_pos_iff.2 hxs
  have hfirst := rank_pos hpos hlength
  have hlast := rank_le hle xs.length
  have hindex : rank pct xs.length - 1 < xs.mergeSort.length := by
    rw [List.length_mergeSort]
    omega
  refine ⟨xs.mergeSort[rank pct xs.length - 1], ?_, ?_⟩
  · exact List.mem_mergeSort.1 (List.getElem_mem hindex)
  · exact List.getElem?_eq_getElem hindex

/-- What is inherited downwards holds of a percentile exactly when it holds of enough values. -/
theorem nearestRank_iff (hpos : 0 < pct) (hv : nearestRank pct xs = some v)
    (hdown : ∀ a b, a ≤ b → p b = true → p a = true) :
    p v = true ↔ rank pct xs.length ≤ xs.countP p := by
  rcases List.getElem?_eq_some_iff.1 hv with ⟨hindex, rfl⟩
  have hlength : 0 < xs.length := by
    rw [← List.length_mergeSort xs]
    exact Nat.zero_lt_of_lt hindex
  have hfirst := rank_pos hpos hlength
  rw [sorted_iff hdown (List.pairwise_mergeSort' (· ≤ ·) xs) hindex, (List.mergeSort_perm xs _).countP_eq]
  omega

/-- A larger percentage has a larger percentile. -/
theorem nearestRank_mono (hpos : 0 < pct) (h : pct ≤ pct') (hv : nearestRank pct xs = some v)
    (hv' : nearestRank pct' xs = some v') : v ≤ v' := by
  have hdown : ∀ a b : α, a ≤ b → decide (b ≤ v') = true → decide (a ≤ v') = true := by
    intro a b hab hb
    exact decide_eq_true (hab.trans (of_decide_eq_true hb))
  have hmany := (nearestRank_iff (hpos.trans_le h) hv' hdown).1 (decide_eq_true le_rfl)
  exact of_decide_eq_true ((nearestRank_iff hpos hv hdown).2 ((rank_mono h xs.length).trans hmany))

end OrderStatistic
end Foundation
end GatewayEdge
