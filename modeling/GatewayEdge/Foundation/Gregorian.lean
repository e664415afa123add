import Mathlib.Algebra.BigOperators.Intervals
import Mathlib.Algebra.Order.BigOperators.Group.Finset
import Mathlib.Data.Prod.Lex
import Mathlib.Order.Lattice

/-!
# Gregorian — the proleptic Gregorian calendar

A date is valid by construction.  Its day number counts the days since 1 January of the year 0; dates in
calendar order have increasing day numbers, so a date is determined by its number.
-/

namespace GatewayEdge
namespace Foundation
namespace Gregorian

open Finset

/-! ## Years and months -/

/-- Every fourth year, except the centuries that 400 does not divide. -/
def IsLeap (year : ℕ) : Prop := 4 ∣ year ∧ (¬ 100 ∣ year ∨ 400 ∣ year)

instance (year : ℕ) : Decidable (IsLeap year) := inferInstanceAs (Decidable (_ ∧ _))

def yearLength (year : ℕ) : ℕ := if IsLeap year then 366 else 365

def monthLength (year month : ℕ) : ℕ :=
  if month = 2 then if IsLeap year then 29 else 28
  else if month = 4 ∨ month = 6 ∨ month = 9 ∨ month = 11 then 30
  else 31

/-- The days of the years before this one. -/
def daysBeforeYear (year : ℕ) : ℕ := ∑ y ∈ range year, yearLength y

/-- The days of the months of the year before this one. -/
def daysBeforeMonth (year month : ℕ) : ℕ := ∑ m ∈ Ico 1 month, monthLength year m

theorem daysBeforeYear_succ (year : ℕ) :
    daysBeforeYear (year + 1) = daysBeforeYear year + yearLength year :=
  sum_range_succ yearLength year

theorem daysBeforeYear_mono : Monotone daysBeforeYear :=
  fun _ _ h => sum_le_sum_of_subset (range_mono h)

/-- One leap day for each year that 4 divides, without the centuries, with every fourth century. -/
theorem daysBeforeYear_eq (year : ℕ) :
    daysBeforeYear year + (year + 99) / 100 = 365 * year + (year + 3) / 4 + (year + 399) / 400 := by
  induction year with
  | zero => rfl
  | succ year ih =>
      rw [daysBeforeYear_succ]
      by_cases hleap : IsLeap year
      · have hlength : yearLength year = 366 := if_pos hleap
        unfold IsLeap at hleap
        omega
      · have hlength : yearLength year = 365 := if_neg hleap
        unfold IsLeap at hleap
        omega

theorem daysBeforeMonth_one (year : ℕ) : daysBeforeMonth year 1 = 0 := by
  simp [daysBeforeMonth]

theorem daysBeforeMonth_succ (year : ℕ) {month : ℕ} (h : 1 ≤ month) :
    daysBeforeMonth year (month + 1) = daysBeforeMonth year month + monthLength year month :=
  sum_Ico_succ_top h _

theorem daysBeforeMonth_mono (year : ℕ) : Monotone (daysBeforeMonth year) :=
  fun _ _ h => sum_le_sum_of_subset (Ico_subset_Ico le_rfl h)

/-- The months of a year make up the year. -/
theorem daysBeforeMonth_thirteen (year : ℕ) : daysBeforeMonth year 13 = yearLength year := by
  unfold yearLength
  by_cases hleap : IsLeap year
  · simp [daysBeforeMonth, sum_Ico_succ_top, monthLength, hleap]
  · simp [daysBeforeMonth, sum_Ico_succ_top, monthLength, hleap]

/-! ## Dates -/

@[ext] structure Date where
  year : ℕ
  month : ℕ
  day : ℕ
  month_pos : 1 ≤ month
  month_le : month ≤ 12
  day_pos : 1 ≤ day
  day_le : day ≤ monthLength year month

namespace Date

/-- Year, month and day, in the order that decides. -/
def key (d : Date) : ℕ ×ₗ ℕ ×ₗ ℕ := toLex (d.year, toLex (d.month, d.day))

theorem key_injective : Function.Injective key := by
  rintro ⟨y, m, d, _, _, _, _⟩ ⟨y', m', d', _, _, _, _⟩ h
  cases h
  rfl

/-- Calendar order. -/
instance : LinearOrder Date := LinearOrder.lift' key key_injective

theorem lt_iff {a b : Date} : a < b ↔ a.year < b.year ∨
    a.year = b.year ∧ (a.month < b.month ∨ a.month = b.month ∧ a.day < b.day) := by
  change key a < key b ↔ _
  simp [key, Prod.Lex.toLex_lt_toLex]

/-- Days since 1 January of the year 0. -/
def dayNumber (d : Date) : ℕ :=
  daysBeforeYear d.year + daysBeforeMonth d.year d.month + (d.day - 1)

/-- A day of a month comes before the next month of its year. -/
theorem dayOfYear_lt (d : Date) :
    daysBeforeMonth d.year d.month + (d.day - 1) < daysBeforeMonth d.year (d.month + 1) := by
  have hsucc := daysBeforeMonth_succ d.year d.month_pos
  have hpos := d.day_pos
  have hle := d.day_le
  omega

/-- A day of a year comes before the next year. -/
theorem dayNumber_lt_nextYear (d : Date) : d.dayNumber < daysBeforeYear (d.year + 1) := by
  have hmonth := d.dayOfYear_lt
  have hle : daysBeforeMonth d.year (d.month + 1) ≤ daysBeforeMonth d.year 13 :=
    daysBeforeMonth_mono d.year (Nat.succ_le_succ d.month_le)
  rw [daysBeforeMonth_thirteen] at hle
  rw [daysBeforeYear_succ]
  unfold dayNumber
  omega

theorem dayNumber_strictMono : StrictMono dayNumber := by
  intro a b h
  rcases lt_iff.1 h with hyear | ⟨hyear, hmonth | ⟨hmonth, hday⟩⟩
  -- The later date is in a later year, a later month of the year, or a later day of the month.
  · calc
      a.dayNumber < daysBeforeYear (a.year + 1) := a.dayNumber_lt_nextYear
      _ ≤ daysBeforeYear b.year := daysBeforeYear_mono hyear
      _ ≤ b.dayNumber := by
        unfold dayNumber
        omega
  · have hnext := a.dayOfYear_lt
    have hle : daysBeforeMonth a.year (a.month + 1) ≤ daysBeforeMonth a.year b.month :=
      daysBeforeMonth_mono a.year hmonth
    unfold dayNumber
    rw [← hyear]
    omega
  · have hpos := a.day_pos
    unfold dayNumber
    rw [← hyear, ← hmonth]
    omega

end Date

/-- 1 January 1970. -/
def epoch : Date where
  year := 1970
  month := 1
  day := 1
  month_pos := by decide
  month_le := by decide
  day_pos := by decide
  day_le := by decide

theorem dayNumber_epoch : epoch.dayNumber = 719528 := by
  have hyears := daysBeforeYear_eq 1970
  have hmonths := daysBeforeMonth_one 1970
  unfold Date.dayNumber epoch
  dsimp only
  omega

end Gregorian
end Foundation
end GatewayEdge
