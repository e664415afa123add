import Mathlib.Data.List.Rotate
import Mathlib.Order.Basic

/-!
# RecentRing — a ring that keeps the newest entries

Entries are written one after another into the cells of a ring, beginning anew at its end, and a counter says
how many cells hold an entry.  Before the ring is full these are the first ones, afterwards all of them: in
either case the entries they hold are the newest ones, up to their order (`fill_perm`).
-/

namespace GatewayEdge
namespace Foundation

structure RecentRing (α : Type*) where
  cells : List α
  /-- The cell of the next entry. -/
  next : ℕ
  /-- How many cells hold an entry. -/
  filled : ℕ

namespace RecentRing

variable {α : Type*} {r : RecentRing α} {xs : List α}

def blank (n : ℕ) (a : α) : RecentRing α where
  cells := List.replicate n a
  next := 0
  filled := 0

def push (r : RecentRing α) (v : α) : RecentRing α where
  cells := r.cells.set r.next v
  next := (r.next + 1) % r.cells.length
  filled := min (r.filled + 1) r.cells.length

/-- The last `n` entries of a list, or all there are. -/
def newest (n : ℕ) (xs : List α) : List α := xs.drop (xs.length - n)

theorem newest_of_length_le {n : ℕ} (h : xs.length ≤ n) : newest n xs = xs := by
  unfold newest
  rw [Nat.sub_eq_zero_of_le h, List.drop_zero]

theorem length_newest (n : ℕ) (xs : List α) : (newest n xs).length = min xs.length n := by
  unfold newest
  rw [List.length_drop]
  omega

/-- The newest entries are known from the newest before the last one came. -/
theorem newest_append_singleton (n : ℕ) (xs : List α) (v : α) :
    newest n (newest n xs ++ [v]) = newest n (xs ++ [v]) := by
  unfold newest
  rw [← List.drop_append_of_le_length (Nat.sub_le _ _), List.drop_drop]
  congr 1
  simp only [List.length_drop, List.length_append, List.length_singleton]
  omega

/-- The cells hold these entries, the oldest of them in the next cell once the ring is full. -/
structure Holds (r : RecentRing α) (xs : List α) : Prop where
  next_lt : r.next < r.cells.length
  filled_eq : r.filled = xs.length
  filled_le : r.filled ≤ r.cells.length
  growing : r.filled < r.cells.length → r.next = r.filled ∧ r.cells.take r.filled = xs
  full : r.filled = r.cells.length → r.cells.rotate r.next = xs

theorem holds_blank {n : ℕ} (hn : 0 < n) (a : α) : Holds (blank n a) [] where
  next_lt := by simpa [blank] using hn
  filled_eq := rfl
  filled_le := Nat.zero_le _
  growing := fun _ => ⟨rfl, rfl⟩
  full := fun h => absurd (h : 0 = _) (by simpa [blank] using Nat.ne_of_lt hn)

theorem length_push (r : RecentRing α) (v : α) : (r.push v).cells.length = r.cells.length :=
  List.length_set

/-- The written cells up to and including the one just written. -/
theorem take_set_succ {cells : List α} {i : ℕ} (h : i < cells.length) (v : α) :
    (cells.set i v).take (i + 1) = cells.take i ++ [v] := by
  have hlt : i < (cells.set i v).length := by
    rw [List.length_set]
    exact h
  rw [List.take_succ_eq_append_getElem hlt, List.getElem_set_self, List.take_set, List.set_eq_of_length_le]
  rw [List.length_take]
  exact Nat.min_le_left _ _

theorem Holds.push (h : Holds r xs) (v : α) : Holds (r.push v) (newest r.cells.length (xs ++ [v])) := by
  have hpos : 0 < r.cells.length := Nat.zero_lt_of_lt h.next_lt
  have hlen := length_push r v
  have htake := take_set_succ h.next_lt v
  have hfilled := h.filled_eq
  refine ⟨?_, ?_, ?_, ?_, ?_⟩
  · rw [hlen]
    exact Nat.mod_lt _ hpos
  · rw [length_newest, List.length_append, List.length_singleton, ← hfilled]
    rfl
  · rw [hlen]
    exact Nat.min_le_right _ _
  · rw [hlen]
    intro hlt
    -- There was room before, and the ring does not begin anew.
    have hroom : r.filled + 1 < r.cells.length := by
      have : min (r.filled + 1) r.cells.length < r.cells.length := hlt
      omega
    rcases h.growing (Nat.lt_of_succ_lt hroom) with ⟨hnext, hcells⟩
    have hnew : (r.push v).filled = r.filled + 1 := Nat.min_eq_left (Nat.le_of_lt hroom)
    rw [hnew, newest_of_length_le (by simp; omega)]
    refine ⟨?_, ?_⟩
    · show (r.next + 1) % r.cells.length = r.filled + 1
      rw [hnext, Nat.mod_eq_of_lt hroom]
    · show (r.cells.set r.next v).take (r.filled + 1) = xs ++ [v]
      rw [← hnext, htake, hnext, hcells]
  · rw [hlen]
    intro heq
    have hlast : r.cells.length ≤ r.filled + 1 := by
      have : min (r.filled + 1) r.cells.length = r.cells.length := heq
      omega
    have hsucc : r.next + 1 ≤ (r.cells.set r.next v).length := by
      rw [List.length_set]
      exact h.next_lt
    show (r.cells.set r.next v).rotate ((r.next + 1) % r.cells.length) = _
    rw [← List.length_set (i := r.next) (a := v), List.rotate_mod, List.rotate_eq_drop_append_take hsucc,
      htake, List.drop_set_of_lt (Nat.lt_succ_self _), List.length_set]
    rcases Nat.lt_or_eq_of_le h.filled_le with hroom | hwas
    · -- The last free cell has just been written.
      rcases h.growing hroom with ⟨hnext, hcells⟩
      rw [newest_of_length_le (by simp; omega), List.drop_of_length_le (by omega), List.nil_append,
        hnext, hcells]
    · -- The oldest entry has been overwritten.
      have hxs := h.full hwas
      rw [List.rotate_eq_drop_append_take (Nat.le_of_lt h.next_lt),
        List.drop_eq_getElem_cons h.next_lt] at hxs
      have hone : (xs ++ [v]).length - r.cells.length = 1 := by
        rw [List.length_append, List.length_singleton]
        omega
      unfold newest
      rw [hone, ← hxs, List.cons_append, List.cons_append, List.drop_one, List.tail_cons,
        List.append_assoc]

/-- The entries that are held, in some order. -/
theorem Holds.perm (h : Holds r xs) : (r.cells.take r.filled).Perm xs := by
  rcases Nat.lt_or_eq_of_le h.filled_le with hroom | hfull
  · rw [(h.growing hroom).2]
  · rw [hfull, List.take_length, ← h.full hfull]
    exact (List.rotate_perm _ _).symm

/-- What a ring of `n` cells holds after these entries. -/
theorem holds_fill {n : ℕ} (hn : 0 < n) (a : α) (vs : List α) :
    Holds (vs.foldl push (blank n a)) (newest n vs) ∧
      (vs.foldl push (blank n a)).cells.length = n := by
  induction vs using List.reverseRecOn with
  | nil =>
      rw [newest_of_length_le (Nat.zero_le n)]
      exact ⟨holds_blank hn a, List.length_replicate⟩
  | append_singleton vs v ih =>
      rcases ih with ⟨hholds, hlen⟩
      rw [List.foldl_append]
      refine ⟨?_, (length_push _ v).trans hlen⟩
      have hnext := hholds.push v
      rw [hlen, newest_append_singleton] at hnext
      exact hnext

theorem fill_perm {n : ℕ} (hn : 0 < n) (a : α) (vs : List α) :
    ((vs.foldl push (blank n a)).cells.take (vs.foldl push (blank n a)).filled).Perm
      (newest n vs) :=
  (holds_fill hn a vs).1.perm

theorem filled_fill {n : ℕ} (hn : 0 < n) (a : α) (vs : List α) :
    (vs.foldl push (blank n a)).filled = min vs.length n := by
  rw [(holds_fill hn a vs).1.filled_eq, length_newest]

end RecentRing
end Foundation
end GatewayEdge
