import GatewayEdge.QuotaCounting
import Mathlib.Order.Monotone.Basic

/-!
# QuotaArithmetic — the borrowing ceiling in 64-bit words

A policy lets a user go past the daily limit by a percentage of it.  The code computes the ceiling in
`u64` words, where both the product and the sum may wrap around; the decision is compared here with the
one over the integers.
-/

namespace GatewayEdge
namespace Quota

variable {count limit borrowPercent : ℕ}

/-! ## Decisions by a ceiling -/

/-- The decision against a limit and a ceiling above it. -/
def decideBy (ceiling count limit : ℕ) : QuotaDecision :=
  if count ≤ limit then .allow
  else if count ≤ ceiling then .borrowed
  else .rejected

/-- The ceiling over the integers. -/
def exactCeiling (limit borrowPercent : ℕ) : ℕ := limit + limit * borrowPercent / 100

/-- The ceiling as the code computes it. -/
def wordCeiling (limit borrowPercent : ℕ) : ℕ :=
  (limit + limit * borrowPercent % 2 ^ 64 / 100) % 2 ^ 64

/-- The policy lets this count through. -/
def Admits (count limit borrowPercent : ℕ) : Prop :=
  quotaDecision count limit borrowPercent ≠ .rejected

/-- The decision is the one over the integers. -/
structure DecidesExactly (count limit borrowPercent : ℕ) : Prop where
  allow : quotaDecision count limit borrowPercent = .allow ↔ count ≤ limit
  borrowed : quotaDecision count limit borrowPercent = .borrowed ↔
    limit < count ∧ count ≤ limit + limit * borrowPercent / 100
  rejected : quotaDecision count limit borrowPercent = .rejected ↔
    limit + limit * borrowPercent / 100 < count

/-- The count is not in the grace at all, or the grace that a word keeps of the product still covers
the borrowed part of it and leaves the ceiling in a word. -/
def Covered (count limit borrowPercent : ℕ) : Prop :=
  count ≤ limit ∨ limit + limit * borrowPercent / 100 < count ∨
    (100 * (count - limit) ≤ limit * borrowPercent % 2 ^ 64 ∧
      limit + limit * borrowPercent % 2 ^ 64 / 100 < 2 ^ 64)

instance : Decidable (Covered count limit borrowPercent) := inferInstanceAs (Decidable (_ ∨ _ ∨ _))

theorem decideBy_eq_allow {ceiling : ℕ} : decideBy ceiling count limit = .allow ↔ count ≤ limit := by
  unfold decideBy
  split_ifs <;> simp_all

theorem decideBy_eq_borrowed {ceiling : ℕ} :
    decideBy ceiling count limit = .borrowed ↔ limit < count ∧ count ≤ ceiling := by
  unfold decideBy
  split_ifs <;> simp_all

theorem decideBy_eq_rejected {ceiling : ℕ} (h : limit ≤ ceiling) :
    decideBy ceiling count limit = .rejected ↔ ceiling < count := by
  unfold decideBy
  split_ifs
  · simp only [false_iff, not_lt]
    omega
  · simp only [false_iff, not_lt]
    omega
  · simp only [true_iff]
    omega

/-- A count that a ceiling rejects is above both numbers, also when the ceiling is below the limit. -/
theorem decideBy_ne_rejected {ceiling : ℕ} :
    decideBy ceiling count limit ≠ .rejected ↔ count ≤ limit ∨ count ≤ ceiling := by
  unfold decideBy
  split_ifs <;> simp_all

/-! ## The two ceilings -/

theorem wordCeiling_zero (hword : limit < 2 ^ 64) : wordCeiling limit 0 = limit := by
  unfold wordCeiling
  rw [Nat.mul_zero, Nat.zero_mod, Nat.zero_div, Nat.add_zero, Nat.mod_eq_of_lt hword]

/-- Without a percentage the ceiling is the limit, so the code's check for one changes nothing. -/
theorem quotaDecision_eq (hpos : 0 < limit) (hword : limit < 2 ^ 64) :
    quotaDecision count limit borrowPercent =
      decideBy (wordCeiling limit borrowPercent) count limit := by
  unfold quotaDecision decideBy
  rw [if_neg (Nat.pos_iff_ne_zero.1 hpos)]
  by_cases hbelow : count ≤ limit
  · rw [if_pos hbelow, if_pos hbelow]
  · rw [if_neg hbelow, if_neg hbelow]
    rcases Nat.eq_zero_or_pos borrowPercent with rfl | hborrow
    -- The check for a percentage fails, and so does the comparison with a ceiling that is the limit.
    · rw [wordCeiling_zero hword, if_neg hbelow]
      simp
    · exact if_congr (and_iff_left hborrow) rfl rfl

/-- A word never holds more than the integer. -/
theorem wordCeiling_le : wordCeiling limit borrowPercent ≤ exactCeiling limit borrowPercent := by
  calc
    wordCeiling limit borrowPercent ≤ limit + limit * borrowPercent % 2 ^ 64 / 100 := Nat.mod_le _ _
    _ ≤ limit + limit * borrowPercent / 100 :=
      Nat.add_le_add_left (Nat.div_le_div_right (Nat.mod_le _ _)) limit

/-- What is borrowed and covered in a word is below the ceiling of the code, and nothing else is. -/
theorem le_wordCeiling_iff (hover : limit < count) (hword : limit < 2 ^ 64) :
    count ≤ wordCeiling limit borrowPercent ↔
      100 * (count - limit) ≤ limit * borrowPercent % 2 ^ 64 ∧
        limit + limit * borrowPercent % 2 ^ 64 / 100 < 2 ^ 64 := by
  unfold wordCeiling
  generalize limit * borrowPercent = product
  omega

theorem exactCeiling_mono {borrowPercent' : ℕ} (h : borrowPercent ≤ borrowPercent') :
    exactCeiling limit borrowPercent ≤ exactCeiling limit borrowPercent' := by
  have hproduct : limit * borrowPercent ≤ limit * borrowPercent' := Nat.mul_le_mul_left limit h
  unfold exactCeiling
  omega

/-! ## When the decision is exact -/

theorem admits_iff (hpos : 0 < limit) (hword : limit < 2 ^ 64) :
    Admits count limit borrowPercent ↔ count ≤ limit ∨ count ≤ wordCeiling limit borrowPercent := by
  unfold Admits
  rw [quotaDecision_eq hpos hword, decideBy_ne_rejected]

/-- Between the two ceilings, and only there, the code rejects what the integers would lend. -/
theorem covered_iff (hword : limit < 2 ^ 64) :
    Covered count limit borrowPercent ↔ count ≤ limit ∨ exactCeiling limit borrowPercent < count ∨
      count ≤ wordCeiling limit borrowPercent := by
  by_cases hbelow : count ≤ limit
  · simp [Covered, hbelow]
  · unfold Covered
    rw [le_wordCeiling_iff (Nat.lt_of_not_le hbelow) hword]
    rfl

theorem decidesExactly_iff (hpos : 0 < limit) (hword : limit < 2 ^ 64) :
    DecidesExactly count limit borrowPercent ↔ Covered count limit borrowPercent := by
  have hle : wordCeiling limit borrowPercent ≤ exactCeiling limit borrowPercent := wordCeiling_le
  rw [covered_iff hword]
  constructor
  · intro hexact
    have hadmits : Admits count limit borrowPercent ↔
        count ≤ limit ∨ count ≤ wordCeiling limit borrowPercent := admits_iff hpos hword
    -- The code admits up to its own ceiling and an exact decision up to the exact one.
    unfold Admits at hadmits
    rw [ne_eq, hexact.rejected] at hadmits
    unfold exactCeiling
    omega
  · intro hcovered
    have hlimit : limit ≤ exactCeiling limit borrowPercent := Nat.le_add_right _ _
    -- The count is on the same side of both ceilings.
    have hdecision : quotaDecision count limit borrowPercent =
        decideBy (exactCeiling limit borrowPercent) count limit := by
      rw [quotaDecision_eq hpos hword]
      unfold decideBy
      split_ifs <;> first | rfl | omega
    exact
      { allow := by rw [hdecision, decideBy_eq_allow]
        borrowed := by rw [hdecision, decideBy_eq_borrowed]; rfl
        rejected := by rw [hdecision, decideBy_eq_rejected hlimit]; rfl }

/-- A policy whose ceiling fits in words covers every count. -/
theorem covered_of_fits (count : ℕ) (hproduct : limit * borrowPercent < 2 ^ 64)
    (hsum : limit + limit * borrowPercent / 100 < 2 ^ 64) : Covered count limit borrowPercent := by
  unfold Covered
  rw [Nat.mod_eq_of_lt hproduct]
  omega

/-- The decision on a count is the one over the integers exactly where the words of the code cover the
count.  Admission is antitone in the count throughout, without borrowing it is the negation of
`exceeds`, and a higher percentage keeps what a lower one admits wherever it is covered. -/
theorem decides_exactly_iff_covered {limit : ℕ} (hpos : 0 < limit) (hword : limit < 2 ^ 64) :
    (∀ count borrowPercent,
      DecidesExactly count limit borrowPercent ↔ Covered count limit borrowPercent) ∧
    (∀ borrowPercent, Antitone fun count => Admits count limit borrowPercent) ∧
    (∀ count borrowPercent borrowPercent', borrowPercent ≤ borrowPercent' →
      Covered count limit borrowPercent' → Admits count limit borrowPercent →
        Admits count limit borrowPercent') ∧
    ∀ count, Admits count limit 0 ↔ exceeds count limit = false := by
  refine ⟨fun count borrowPercent => decidesExactly_iff hpos hword, ?_, ?_, ?_⟩
  · intro borrowPercent count count' hle hadmits
    rw [admits_iff hpos hword] at hadmits ⊢
    omega
  · intro count borrowPercent borrowPercent' hle hcovered hadmits
    rw [covered_iff hword] at hcovered
    rw [admits_iff hpos hword] at hadmits ⊢
    -- What is admitted is below the exact ceiling of the smaller percentage, so of the larger one.
    have hword : wordCeiling limit borrowPercent ≤ exactCeiling limit borrowPercent := wordCeiling_le
    have hmono : exactCeiling limit borrowPercent ≤ exactCeiling limit borrowPercent' :=
      exactCeiling_mono hle
    omega
  · intro count
    rw [admits_iff hpos hword]
    rw [wordCeiling_zero hword, or_self]
    simp [exceeds, hpos]

/-- A limit of 2 · 10¹⁷ a day with a grace of one half or of the whole. -/
theorem decides_exactly_on_half :
    DecidesExactly 300000000000000000 200000000000000000 50 := by
  have hpos : 0 < 200000000000000000 := by decide
  have hword : 200000000000000000 < 2 ^ 64 := by decide
  exact ((decides_exactly_iff_covered hpos hword).1 _ _).2 (by decide)

/-- Half of the limit may be borrowed; with a grace of the whole limit the product wraps around, and
the same count is rejected. -/
theorem larger_grace_rejects :
    ¬ DecidesExactly 300000000000000000 200000000000000000 100 ∧
      quotaDecision 300000000000000000 200000000000000000 50 = .borrowed ∧
      quotaDecision 300000000000000000 200000000000000000 100 = .rejected := by
  refine ⟨fun hexact => ?_, by decide, by decide⟩
  have hcovered := (decidesExactly_iff (by decide) (by decide)).1 hexact
  exact absurd hcovered (by decide)

end Quota
end GatewayEdge
