import GatewayEdge.Foundation.OrderStatistic
import Mathlib.Data.Multiset.Sort
import Mathlib.Data.Finset.Max
import Mathlib.Algebra.Order.Field.Basic

/-!
# Median — the middle of a multiset

The median is the middle value in sorted order, or the mean of the two middle ones.  More than half of the
values bound it: if they lie below a number, so does the median (`median_le`), and likewise above
(`le_median`).  So it stays among values that are more than half, whatever the others are
(`exists_le_median_le`).
-/

namespace GatewayEdge
namespace Foundation
namespace Median

variable {K : Type*} [Field K] [LinearOrder K] {s : Multiset K} {lo hi : K}

/-- The value at a place of the sorted multiset. -/
def entry (s : Multiset K) (i : ℕ) : K := s.sort.getD i 0

def median (s : Multiset K) : K :=
  if s.card = 0 then 0
  else if s.card % 2 = 1 then entry s (s.card / 2)
  else (entry s (s.card / 2 - 1) + entry s (s.card / 2)) / 2

/-- The median absolute deviation. -/
def deviation (s : Multiset K) : K := median (s.map fun v => |v - median s|)

/-! ## The entries in order -/

/-- A property that is inherited downwards holds of the entries at the first places. -/
theorem entry_iff {p : K → Prop} [DecidablePred p] (hdown : ∀ a b, a ≤ b → p b → p a) {i : ℕ}
    (h : i < s.card) : p (entry s i) ↔ i < s.countP p := by
  have hlen : i < s.sort.length := by
    rw [Multiset.length_sort]
    exact h
  have hsorted := OrderStatistic.sorted_iff (p := fun v => decide (p v))
    (fun a b hab hb => decide_eq_true (hdown a b hab (of_decide_eq_true hb)))
    (Multiset.pairwise_sort s (· ≤ ·)) hlen
  have hcount : s.sort.countP (fun v => decide (p v)) = s.countP p := by
    rw [← Multiset.coe_countP, Multiset.sort_eq]
  unfold entry
  rw [List.getD_eq_getElem?_getD, List.getElem?_eq_getElem hlen, Option.getD_some, ← hcount, ← hsorted,
    decide_eq_true_iff]

theorem entry_le {i : ℕ} (h : i < s.countP (· ≤ hi)) : entry s i ≤ hi :=
  (entry_iff (fun _ _ => le_trans) (h.trans_le (Multiset.countP_le_card _ s))).2 h

theorem le_entry {i : ℕ} (hi : i < s.card) (h : s.card ≤ i + s.countP (lo ≤ ·)) : lo ≤ entry s i := by
  by_contra hbelow
  have hsplit : s.card = s.countP (lo ≤ ·) + s.countP (fun v => ¬ lo ≤ v) :=
    Multiset.card_eq_countP_add_countP _ s
  have hfew := (entry_iff (p := fun v => ¬ lo ≤ v) (fun a b hab hb ha => hb (ha.trans hab)) hi).1 hbelow
  omega

/-! ## Bounds -/

/-- The median lies between two numbers if the middle entries do. -/
theorem median_mem {P : K → Prop} (hmean : ∀ a b, P a → P b → P ((a + b) / 2)) (hs : 0 < s.card)
    (hlow : s.card % 2 = 0 → P (entry s (s.card / 2 - 1))) (hmid : P (entry s (s.card / 2))) :
    P (median s) := by
  unfold median
  rw [if_neg hs.ne']
  split_ifs with hodd
  · exact hmid
  · exact hmean _ _ (hlow (by omega)) hmid

variable [IsStrictOrderedRing K]

theorem median_le (h : s.card < 2 * s.countP (· ≤ hi)) : median s ≤ hi := by
  have hall := Multiset.countP_le_card (· ≤ hi) s
  refine median_mem (P := (· ≤ hi)) ?_ (by omega) ?_ ?_
  · intro a b ha hb
    linarith
  · intro _
    exact entry_le (by omega)
  · exact entry_le (by omega)

theorem le_median (h : s.card < 2 * s.countP (lo ≤ ·)) : lo ≤ median s := by
  have hall := Multiset.countP_le_card (lo ≤ ·) s
  refine median_mem (P := (lo ≤ ·)) ?_ (by omega) ?_ ?_
  · intro a b ha hb
    linarith
  · intro heven
    exact le_entry (by omega) (by omega)
  · exact le_entry (by omega) (by omega)

/-- Among values that are more than half of all there are two between which the median lies. -/
theorem exists_le_median_le {kept other : Multiset K} (hs : s = kept + other)
    (hfew : 2 * other.card < s.card) :
    ∃ lo ∈ kept, ∃ hi ∈ kept, (∀ v ∈ kept, lo ≤ v ∧ v ≤ hi) ∧ lo ≤ median s ∧ median s ≤ hi := by
  have hcard : s.card = kept.card + other.card := by
    rw [hs, Multiset.card_add]
  have hne : kept ≠ 0 := by
    rintro rfl
    rw [Multiset.card_zero] at hcard
    omega
  rcases Multiset.exists_min_image id hne with ⟨lo, hlo, hleast⟩
  rcases Multiset.exists_max_image id hne with ⟨hi, hhi, hgreatest⟩
  -- All the kept values count for either bound.
  have hmany : ∀ p : K → Prop, ∀ [DecidablePred p], (∀ v ∈ kept, p v) → s.card < 2 * s.countP p := by
    intro p _ hp
    rw [hs, Multiset.countP_add, Multiset.countP_eq_card.2 hp, ← hs]
    omega
  exact ⟨lo, hlo, hi, hhi, fun v hv => ⟨hleast v hv, hgreatest v hv⟩,
    le_median (hmany _ hleast), median_le (hmany _ hgreatest)⟩

end Median
end Foundation
end GatewayEdge
