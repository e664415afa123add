import GatewayEdge.Foundation.Run
import Mathlib.Algebra.BigOperators.Group.List.Basic
import Mathlib.Algebra.Order.BigOperators.Group.List
import Mathlib.Algebra.Order.Ring.Nat
import Mathlib.Logic.Function.Basic

/-!
# SharedCounters — counters that many callers add to at once

A call is a list of additions to cells.  Any number of calls may be under way, their additions interleave, and
a call's own additions take effect in any order: nothing but the atomicity of each addition is relied on.
Cells are words: they wrap around at `size`.

No addition is lost: a cell holds what has been added to it so far (`cells_run`).  That is never less than
what the finished calls have added, and never more than what all the calls begun will add.
-/

namespace GatewayEdge
namespace Foundation
namespace SharedCounters

section Sums

variable {α : Type*}

/-- One entry of a list is replaced. -/
theorem sum_map_set (f : α → ℕ) {l : List α} {n : ℕ} {a : α} (h : l[n]? = some a) (b : α) :
    ((l.set n b).map f).sum + f a = (l.map f).sum + f b := by
  induction l generalizing n with
  | nil => cases h
  | cons x l ih =>
      cases n with
      | zero =>
          cases h
          simp only [List.set_cons_zero, List.map_cons, List.sum_cons]
          omega
      | succ n =>
          have hrest := ih (n := n) (by simpa using h)
          simp only [List.set_cons_succ, List.map_cons, List.sum_cons]
          omega

/-- One entry of a list is taken out. -/
theorem sum_map_eraseIdx (f : α → ℕ) {l : List α} {n : ℕ} {a : α} (h : l[n]? = some a) :
    ((l.eraseIdx n).map f).sum + f a = (l.map f).sum := by
  induction l generalizing n with
  | nil => cases h
  | cons x l ih =>
      cases n with
      | zero =>
          cases h
          simp only [List.eraseIdx_cons_zero, List.map_cons, List.sum_cons]
          omega
      | succ n =>
          have hrest := ih (n := n) (by simpa using h)
          simp only [List.eraseIdx_cons_succ, List.map_cons, List.sum_cons]
          omega

end Sums

/-! ## Calls and their steps -/

variable {κ ι : Type*} [DecidableEq ι]

/-- What some additions add to a cell. -/
def total (cell : ι) (additions : List (ι × ℕ)) : ℕ :=
  (additions.map fun a => if a.1 = cell then a.2 else 0).sum

@[simp] theorem total_nil (cell : ι) : total cell [] = 0 := rfl

theorem total_cons (cell : ι) (a : ι × ℕ) (additions : List (ι × ℕ)) :
    total cell (a :: additions) = (if a.1 = cell then a.2 else 0) + total cell additions := by
  simp [total]

theorem total_append (cell : ι) (additions additions' : List (ι × ℕ)) :
    total cell (additions ++ additions') = total cell additions + total cell additions' := by
  simp [total]

/-- The cells, the calls under way with the additions they still owe, and the calls that owe none. -/
structure State (κ ι : Type*) where
  cells : ι → ℕ
  calls : List (κ × List (ι × ℕ))
  finished : List κ

inductive Event (κ : Type*)
  | begin (call : κ)
  | add (index which : ℕ)
  | finish (index : ℕ)
  deriving DecidableEq, Repr

def start (cells : ι → ℕ) : State κ ι where
  cells := cells
  calls := []
  finished := []

variable (size : ℕ) (program : κ → List (ι × ℕ))

/-- A call begins; one of the additions of a call under way takes effect; a call that owes none is over. -/
def step (s : State κ ι) : Event κ → Option (State κ ι)
  | .begin call => some { s with calls := s.calls ++ [(call, program call)] }
  | .add index which =>
    match s.calls[index]? with
    | none => none
    | some (call, owed) =>
      match owed[which]? with
      | none => none
      | some (cell, amount) =>
        some { s with
          cells := Function.update s.cells cell ((s.cells cell + amount) % size)
          calls := s.calls.set index (call, owed.eraseIdx which) }
  | .finish index =>
    match s.calls[index]? with
    | some (call, []) =>
      some { s with calls := s.calls.eraseIdx index, finished := s.finished ++ [call] }
    | _ => none

/-- What the finished calls have added to a cell. -/
def finishedTotal (cell : ι) (s : State κ ι) : ℕ :=
  (s.finished.map fun call => total cell (program call)).sum

/-- What has been added to it so far. -/
def performed (cell : ι) (s : State κ ι) : ℕ :=
  finishedTotal program cell s +
    (s.calls.map fun call => total cell (program call.1) - total cell call.2).sum

/-- What all the calls will have added to it once they are over. -/
def startedTotal (cell : ι) (s : State κ ι) : ℕ :=
  finishedTotal program cell s + (s.calls.map fun call => total cell (program call.1)).sum

variable {size program}

/-- Everything a step can do. -/
theorem step_cases {s t : State κ ι} {e : Event κ} (h : step size program s e = some t) :
    (∃ call, t = { s with calls := s.calls ++ [(call, program call)] }) ∨
    (∃ index which call owed cell amount, s.calls[index]? = some (call, owed) ∧
      owed[which]? = some (cell, amount) ∧
      t = { s with
        cells := Function.update s.cells cell ((s.cells cell + amount) % size)
        calls := s.calls.set index (call, owed.eraseIdx which) }) ∨
    (∃ index call, s.calls[index]? = some (call, []) ∧
      t = { s with calls := s.calls.eraseIdx index, finished := s.finished ++ [call] }) := by
  cases e with
  | begin call =>
      cases h
      exact Or.inl ⟨call, rfl⟩
  | add index which =>
      unfold step at h
      dsimp only at h
      split at h
      · cases h
      · rename_i call owed hcall
        split at h
        · cases h
        · rename_i cell amount hnext
          exact Or.inr (Or.inl
            ⟨index, which, call, owed, cell, amount, hcall, hnext, (Option.some.inj h).symm⟩)
  | finish index =>
      unfold step at h
      dsimp only at h
      split at h
      · rename_i call hcall
        exact Or.inr (Or.inr ⟨index, call, hcall, (Option.some.inj h).symm⟩)
      · cases h

/-! ## No addition is lost -/

/-- No call owes more than its program, and each cell holds what has been added to it. -/
structure Accounted (size : ℕ) (program : κ → List (ι × ℕ)) (cells₀ : ι → ℕ) (s : State κ ι) : Prop where
  owed : ∀ call ∈ s.calls, ∀ cell, total cell call.2 ≤ total cell (program call.1)
  cells : ∀ cell, s.cells cell = (cells₀ cell + performed program cell s) % size

theorem Accounted.start {cells₀ : ι → ℕ} (h₀ : ∀ cell, cells₀ cell < size) :
    Accounted size program cells₀ (start cells₀) where
  owed := by
    intro call hcall
    cases hcall
  cells cell := (Nat.mod_eq_of_lt (h₀ cell)).symm

theorem Accounted.step {cells₀ : ι → ℕ} {s t : State κ ι} {e : Event κ}
    (hs : Accounted size program cells₀ s) (h : step size program s e = some t) :
    Accounted size program cells₀ t := by
  rcases step_cases h with ⟨call, rfl⟩ | ⟨index, which, call, owed, c, amount, hcall, hnext, rfl⟩ |
    ⟨index, call, hcall, rfl⟩
  · -- A call that begins owes its whole program and has performed nothing.
    constructor
    · intro call' hcall'
      rcases List.mem_append.1 hcall' with hold | hnew
      · exact hs.owed call' hold
      · cases List.mem_singleton.1 hnew
        exact fun cell => le_rfl
    · intro cell
      rw [hs.cells cell]
      simp [performed, finishedTotal]
  · -- What the call no longer owes has gone into the cell.
    have htotal : ∀ cell, total cell (owed.eraseIdx which) + (if c = cell then amount else 0) =
        total cell owed :=
      fun cell => sum_map_eraseIdx (fun a : ι × ℕ => if a.1 = cell then a.2 else 0) hnext
    have howed := hs.owed _ (List.mem_of_getElem? hcall)
    constructor
    · intro call' hcall' cell
      rcases List.mem_or_eq_of_mem_set hcall' with hold | rfl
      · exact hs.owed call' hold cell
      · exact ((Nat.le_add_right _ _).trans_eq (htotal cell)).trans (howed cell)
    · intro cell
      have hsum := sum_map_set
        (fun call : κ × List (ι × ℕ) => total cell (program call.1) - total cell call.2) hcall
        (call, owed.eraseIdx which)
      have hrest := htotal cell
      have hle := howed cell
      dsimp only at hsum hle
      have hperformed : performed program cell
          { s with
            cells := Function.update s.cells c ((s.cells c + amount) % size)
            calls := s.calls.set index (call, owed.eraseIdx which) } =
          performed program cell s + if c = cell then amount else 0 := by
        unfold performed finishedTotal
        dsimp only
        omega
      rw [hperformed]
      by_cases hcell : c = cell
      · subst hcell
        dsimp only
        rw [Function.update_self, if_pos rfl, hs.cells c, Nat.mod_add_mod, Nat.add_assoc]
      · dsimp only
        rw [Function.update_of_ne (Ne.symm hcell), if_neg hcell, Nat.add_zero, hs.cells cell]
  · -- A call that ends has performed its whole program.
    constructor
    · exact fun call' hcall' => hs.owed call' (List.mem_of_mem_eraseIdx hcall')
    · intro cell
      have hsum := sum_map_eraseIdx
        (fun call : κ × List (ι × ℕ) => total cell (program call.1) - total cell call.2) hcall
      dsimp only at hsum
      rw [total_nil, Nat.sub_zero] at hsum
      rw [hs.cells cell]
      congr 2
      simp only [performed, finishedTotal, List.map_append, List.sum_append, List.map_cons, List.map_nil,
        List.sum_cons, List.sum_nil, Nat.add_zero]
      omega

/-- At every moment of every interleaving a cell holds what has been added to it so far. -/
theorem cells_run {cells₀ : ι → ℕ} (h₀ : ∀ cell, cells₀ cell < size) {s : State κ ι} {es : List (Event κ)}
    (hrun : run (step size program) (start cells₀) es = some s) (cell : ι) :
    s.cells cell = (cells₀ cell + performed program cell s) % size :=
  (invariant_run (I := Accounted size program cells₀) (fun _ _ _ hs h => hs.step h)
    (Accounted.start h₀) hrun).cells cell

/-! ## Between the finished and the started calls -/

variable (s : State κ ι)

theorem finishedTotal_le_performed (cell : ι) : finishedTotal program cell s ≤ performed program cell s :=
  Nat.le_add_right _ _

theorem performed_le_startedTotal (cell : ι) : performed program cell s ≤ startedTotal program cell s :=
  Nat.add_le_add_left (List.sum_le_sum fun _ _ => Nat.sub_le _ _) _

theorem performed_of_idle {s : State κ ι} (hidle : s.calls = []) (cell : ι) :
    performed program cell s = finishedTotal program cell s := by
  unfold performed
  rw [hidle]
  rfl

end SharedCounters
end Foundation
end GatewayEdge
