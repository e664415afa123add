import Mathlib.Tactic.Common

/-!
# Mutex — a lock as the thread that uses it sees it

Of a mutex one thread sees how many of its own guards are alive and what the mutex guards.  Taking a
lock it already holds never comes back; here it is an error, and a computation over the mutex either
`Acts` on the guarded value, all its locks going through, or `Blocks` on one of them.

The same code can also be run over a lock that its holder may take again.  Facts that have nothing to
do with locking are stated over that one.
-/

namespace GatewayEdge
namespace Foundation

inductive LockError
  /-- The thread waits for a guard of its own. -/
  | relock
  deriving DecidableEq, Repr

structure Mutex (α : Type) where
  guards : Nat := 0
  data : α

abbrev Locked (α β : Type) := StateT (Mutex α) (Except LockError) β

namespace Locked

variable {α β γ : Type} {P : Nat → Prop}

/-- `lock()`; a new guard is alive afterwards. -/
def lock (reentrant : Bool) : Locked α Unit := fun m =>
  if reentrant ∨ m.guards = 0 then .ok ((), { m with guards := m.guards + 1 }) else .error .relock

/-- The end of a guard's scope. -/
def unlock : Locked α Unit := fun m => .ok ((), { m with guards := m.guards - 1 })

def read (f : α → β) : Locked α β := fun m => .ok (f m.data, m)

def update (f : α → α) : Locked α Unit := fun m => .ok ((), { m with data := f m.data })

/-- `body` in the scope of a guard. -/
def withLock (reentrant : Bool) (body : Locked α β) : Locked α β := do
  lock reentrant
  let b ← body
  unlock
  pure b

/-! ## Computations whose locks all go through -/

/-- With as many guards alive as `P` says, `x` computes `f` and leaves no guard behind. -/
def Acts (P : Nat → Prop) (x : Locked α β) (f : α → β × α) : Prop :=
  ∀ m, P m.guards → x m = .ok ((f m.data).1, { m with data := (f m.data).2 })

theorem acts_pure (b : β) : Acts P (pure b : Locked α β) fun a => (b, a) :=
  fun _ _ => rfl

theorem acts_read (f : α → β) : Acts P (read f) fun a => (f a, a) :=
  fun _ _ => rfl

theorem acts_update (f : α → α) : Acts P (update f) fun a => ((), f a) :=
  fun _ _ => rfl

theorem Acts.bind {x : Locked α β} {f : α → β × α} {k : β → Locked α γ} {g : β → α → γ × α}
    (hx : Acts P x f) (hk : ∀ b, Acts P (k b) (g b)) :
    Acts P (x >>= k) fun a => g (f a).1 (f a).2 := by
  intro m hm
  calc
    (x >>= k) m = (x m).bind fun r => k r.1 r.2 := rfl
    _ = k (f m.data).1 { m with data := (f m.data).2 } := by rw [hx m hm]; rfl
    _ = _ := hk _ _ hm

/-- `&&` on a condition that reads nothing. -/
theorem Acts.and {x : Locked α Bool} {f : α → Bool} (b : Bool) (hx : Acts P x fun a => (f a, a)) :
    Acts P (pure b <&&> x) fun a => (b && f a, a) := by
  cases b with
  | true => exact hx
  | false => exact acts_pure false

/-- `||` runs its second operand when the first one is false. -/
theorem Acts.or {x y : Locked α Bool} {f g : α → Bool} (hx : Acts P x fun a => (f a, a))
    (hy : Acts P y fun a => (g a, a)) : Acts P (x <||> y) fun a => (f a || g a, a) := by
  have hsecond : ∀ b : Bool, Acts P (match b with | true => pure b | false => y)
      fun a => (b || g a, a) := by
    intro b
    cases b with
    | true => exact acts_pure true
    | false => exact hy
  exact hx.bind hsecond

/-- A lock goes through when it is free, or when its holder may take it again. -/
theorem Acts.withLock {reentrant : Bool} {body : Locked α β} {f : α → β × α}
    (hfree : ∀ n, P n → reentrant = true ∨ n = 0)
    (hbody : Acts (fun n => ∃ k, P k ∧ n = k + 1) body f) : Acts P (withLock reentrant body) f := by
  intro m hm
  have hlock : lock reentrant m = .ok ((), { m with guards := m.guards + 1 }) :=
    if_pos (hfree m.guards hm)
  have hrun := hbody { m with guards := m.guards + 1 } ⟨m.guards, hm, rfl⟩
  calc
    Locked.withLock reentrant body m
        = (lock reentrant m).bind fun r => (body r.2).bind fun r => .ok (r.1, { r.2 with
            guards := r.2.guards - 1 }) := rfl
    _ = (body { m with guards := m.guards + 1 }).bind fun r => .ok (r.1, { r.2 with
            guards := r.2.guards - 1 }) := by rw [hlock]; rfl
    _ = _ := by rw [hrun]; rfl

/-! ## Computations that wait for themselves -/

/-- With as many guards alive as `P` says, `x` ends at a lock that the thread holds. -/
def Blocks (P : Nat → Prop) (x : Locked α β) : Prop :=
  ∀ m, P m.guards → x m = .error .relock

theorem Blocks.bind {x : Locked α β} (hx : Blocks P x) (k : β → Locked α γ) :
    Blocks P (x >>= k) := by
  intro m hm
  calc
    (x >>= k) m = (x m).bind fun r => k r.1 r.2 := rfl
    _ = .error .relock := by rw [hx m hm]; rfl

/-- A lock the thread holds stops it. -/
theorem blocks_withLock_of_held (body : Locked α β) :
    Blocks (fun n => n ≠ 0) (withLock false body) := by
  apply Blocks.bind
  intro m hm
  exact if_neg (by simpa using hm)

/-- What waits for a held lock waits in the scope of any guard of it. -/
theorem Blocks.withLock {body : Locked α β} (hbody : Blocks (fun n => n ≠ 0) body) :
    Blocks (fun _ => True) (withLock false body) := by
  intro m _
  by_cases hfree : m.guards = 0
  · have hlock : lock false m = .ok ((), { m with guards := m.guards + 1 }) :=
      if_pos (Or.inr hfree)
    calc
      Locked.withLock false body m
          = (lock false m).bind fun r => (body >>= fun b => unlock >>= fun _ => pure b) r.2 := rfl
      _ = (body >>= fun b => unlock >>= fun _ => pure b) { m with guards := m.guards + 1 } := by
            rw [hlock]; rfl
      _ = .error .relock := hbody.bind _ _ (Nat.succ_ne_zero m.guards)
  · exact blocks_withLock_of_held body m hfree

end Locked
end Foundation
end GatewayEdge
