import Mathlib.Algebra.Group.Nat.Defs
import Mathlib.Tactic.Common

/-!
# Checked — computations that may panic

Operations of a language whose failures stop the computation: a list index out of bounds, a
remainder by zero, a sum that does not fit the word, a vector that is larger than any may be or for
which the allocator has no room.  `Checked` is `Except` over these causes; each operation has one
lemma that says when it goes through.
-/

namespace GatewayEdge
namespace Foundation

inductive Panic
  | indexOutOfBounds
  | remainderByZero
  | addOverflow
  | capacityOverflow
  /-- Not a panic proper: the process is aborted. -/
  | allocationRefused
  deriving DecidableEq, Repr

abbrev Checked (α : Type) := Except Panic α

namespace Checked

variable {α β : Type}

@[simp] theorem ok_bind (a : α) (f : α → Checked β) : (Except.ok a >>= f : Checked β) = f a := rfl

@[simp] theorem error_bind (p : Panic) (f : α → Checked β) :
    (Except.error p >>= f : Checked β) = .error p := rfl

@[simp] theorem pure_eq_ok (a : α) : (pure a : Checked α) = .ok a := rfl

/-- `xs[i]`. -/
def index (xs : List α) (i : Nat) : Checked α :=
  match xs[i]? with
  | some x => .ok x
  | none => .error .indexOutOfBounds

/-- `a % b`. -/
def rem (a b : Nat) : Checked Nat := if b = 0 then .error .remainderByZero else .ok (a % b)

/-- `a + b` on 64-bit words. -/
def add (a b : Nat) : Checked Nat := if a + b < 2 ^ 64 then .ok (a + b) else .error .addOverflow

/-! ## Vectors -/

section Vectors

variable (allocates : Nat → Bool)

/-- The most elements of eight bytes that a vector can be asked to hold: `isize::MAX` bytes of them. -/
def maxCapacity : Nat := 2 ^ 60 - 1

/-- Room for `slots` elements.  For none of them the allocator is not asked. -/
def allocate (slots : Nat) : Checked Unit :=
  if maxCapacity < slots then .error .capacityOverflow
  else if slots = 0 ∨ allocates slots then .ok ()
  else .error .allocationRefused

/-- Pushing elements until there are `len`, with amortised growth of the capacity.  As it doubles, 64 rounds
are more than can go well. -/
def growTo (len : Nat) : Nat → Nat → Checked Unit
  | 0, _ => .error .capacityOverflow
  | rounds + 1, capacity =>
    if len ≤ capacity then .ok ()
    else do
      let next := max (capacity * 2) (max (capacity + 1) 4)
      allocate allocates next
      growTo len rounds next

/-- The allocator has room for so many elements, and there may be as many. -/
def HasRoom (slots : Nat) : Prop := slots ≤ maxCapacity ∧ (slots = 0 ∨ allocates slots = true)

instance (slots : Nat) : Decidable (HasRoom allocates slots) := inferInstanceAs (Decidable (_ ∧ _))

end Vectors

/-- What the computation stops with when there is no room. -/
def NoRoom (p : Panic) : Prop := p = .capacityOverflow ∨ p = .allocationRefused

theorem index_ok {xs : List α} {i : Nat} {x : α} (h : xs[i]? = some x) : index xs i = .ok x := by
  simp [index, h]

theorem rem_ok {a b : Nat} (h : 0 < b) : rem a b = .ok (a % b) := by
  simp [rem, Nat.pos_iff_ne_zero.1 h]

theorem add_ok {a b : Nat} (h : a + b < 2 ^ 64) : add a b = .ok (a + b) := if_pos h

theorem index_lt_ok {xs : List α} {i : Nat} (h : i < xs.length) : index xs i = .ok xs[i] := by
  apply index_ok
  exact List.getElem?_eq_getElem h

theorem allocate_ok {allocates : Nat → Bool} {slots : Nat} (h : HasRoom allocates slots) :
    allocate allocates slots = .ok () := by
  unfold allocate
  rw [if_neg (Nat.not_lt.2 h.1), if_pos h.2]

theorem allocate_cases (allocates : Nat → Bool) (slots : Nat) :
    (HasRoom allocates slots ∧ allocate allocates slots = .ok ()) ∨
      (¬ HasRoom allocates slots ∧ ∃ p, allocate allocates slots = .error p ∧ NoRoom p) := by
  unfold allocate HasRoom
  by_cases hlarge : maxCapacity < slots
  · rw [if_pos hlarge]
    exact Or.inr ⟨fun h => Nat.not_lt.2 h.1 hlarge, _, rfl, Or.inl rfl⟩
  · rw [if_neg hlarge]
    by_cases hroom : slots = 0 ∨ allocates slots = true
    · rw [if_pos hroom]
      exact Or.inl ⟨⟨Nat.le_of_not_lt hlarge, hroom⟩, rfl⟩
    · rw [if_neg hroom]
      exact Or.inr ⟨fun h => hroom h.2, _, rfl, Or.inr rfl⟩

/-- A vector that was asked for at its full size does not grow. -/
theorem growTo_ok {allocates : Nat → Bool} {len rounds : Nat} :
    growTo allocates len (rounds + 1) len = .ok () := if_pos (Nat.le_refl len)

/-- More elements than a vector may have cannot be pushed. -/
theorem growTo_error {allocates : Nat → Bool} {len : Nat} (hlen : maxCapacity < len) (rounds : Nat) :
    ∀ capacity ≤ maxCapacity, ∃ p, growTo allocates len rounds capacity = .error p ∧ NoRoom p := by
  induction rounds with
  | zero =>
      intro capacity _
      exact ⟨_, rfl, Or.inl rfl⟩
  | succ rounds ih =>
      intro capacity hcapacity
      unfold growTo
      rw [if_neg (Nat.not_le.2 (Nat.lt_of_le_of_lt hcapacity hlen))]
      dsimp only
      rcases allocate_cases allocates (max (capacity * 2) (max (capacity + 1) 4)) with
        ⟨hroom, hok⟩ | ⟨-, p, herror, hp⟩
      · rw [hok]
        exact ih _ hroom.1
      · rw [herror]
        exact ⟨p, rfl, hp⟩

end Checked
end Foundation
end GatewayEdge
