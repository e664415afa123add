import Mathlib.Data.List.Basic
import Mathlib.Data.Nat.Notation

/-!
# Streak — how often something has happened since the count last started over

A history is a list of entries, newest first.  Some entries count; some make the count start over, which
an entry may do whether it counts or not.  Counters that code keeps beside such a history (failures since
the last success, successes since the last change) are compared with `streak`.
-/

namespace GatewayEdge
namespace Foundation

variable {ε : Type*} {counts resets : ε → Bool} {e : ε} {past : List ε}

/-- The entries that count since the newest one that starts over. -/
def streak (counts resets : ε → Bool) : List ε → ℕ
  | [] => 0
  | e :: past =>
    if resets e then 0
    else if counts e then streak counts resets past + 1
    else streak counts resets past

theorem streak_of_reset (h : resets e = true) : streak counts resets (e :: past) = 0 := by
  simp [streak, h]

theorem streak_of_count (hreset : resets e = false) (h : counts e = true) :
    streak counts resets (e :: past) = streak counts resets past + 1 := by
  simp [streak, hreset, h]

theorem streak_of_skip (hreset : resets e = false) (h : counts e = false) :
    streak counts resets (e :: past) = streak counts resets past := by
  simp [streak, hreset, h]

/-- An unbroken series of entries that count is part of the streak. -/
theorem le_streak {n : ℕ} (hlength : n ≤ past.length)
    (h : ∀ e ∈ past.take n, resets e = false ∧ counts e = true) : n ≤ streak counts resets past := by
  induction n generalizing past with
  | zero => exact Nat.zero_le _
  | succ n ih =>
      cases past with
      | nil => cases hlength
      | cons e past =>
          rw [List.take_succ_cons] at h
          rcases h e List.mem_cons_self with ⟨hreset, hcount⟩
          have hrest : n ≤ streak counts resets past :=
            ih (Nat.le_of_succ_le_succ hlength) fun d hd => h d (List.mem_cons_of_mem _ hd)
          rw [streak_of_count hreset hcount]
          exact Nat.succ_le_succ hrest

end Foundation
end GatewayEdge
