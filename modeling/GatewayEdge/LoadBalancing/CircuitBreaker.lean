import Mathlib.Logic.Function.Basic
import Mathlib.Algebra.Group.Nat.Defs
import Mathlib.Tactic.Common

/-!
# CircuitBreaker — the cross-process breaker slots

One slot per hashed name in a memory-mapped file shared by all workers of a node.  Each method of
`UpstreamCB` is taken as one atomic step; the free functions pick the slot by name, the node-wide
slot being that of `"__GLOBAL__"`.
-/

namespace GatewayEdge
namespace CircuitBreaker

def stateClosed : Nat := 0
def stateOpen : Nat := 1
def stateHalfOpen : Nat := 2

def failureThreshold : Nat := 50
def resetTimeoutSecs : Nat := 10
def shmSlots : Nat := 4096

structure UpstreamCB where
  state : Nat := 0
  failures : Nat := 0
  lastFailureTime : Nat := 0
  deriving DecidableEq, Repr

namespace UpstreamCB

/-- Moves OPEN to HALF_OPEN once the cooldown has elapsed, and answers whether to block. -/
def isOpen (now : Nat) (cb : UpstreamCB) : UpstreamCB × Bool :=
  if cb.state = stateOpen then
    if now ≤ (cb.lastFailureTime + resetTimeoutSecs) % 2 ^ 64 then (cb, true)
    -- The call that finds the cooldown over is the first probe.
    else ({ cb with state := stateHalfOpen }, false)
  else (cb, false)

def recordSuccess (cb : UpstreamCB) : UpstreamCB :=
  if cb.state = stateHalfOpen then { cb with state := stateClosed, failures := 0 }
  else if cb.state = stateClosed then { cb with failures := 0 }
  else cb

def recordFailure (now : Nat) (cb : UpstreamCB) : UpstreamCB :=
  -- One failed probe re-opens; the failures counted so far are kept.
  if cb.state = stateHalfOpen then { cb with state := stateOpen, lastFailureTime := now }
  else if cb.state = stateClosed then
    if failureThreshold ≤ cb.failures + 1 then
      { state := stateOpen, failures := cb.failures + 1, lastFailureTime := now }
    else { cb with failures := cb.failures + 1 }
  else cb

/-- While OPEN no report changes the slot. -/
theorem recordSuccess_of_open {cb : UpstreamCB} (h : cb.state = stateOpen) :
    cb.recordSuccess = cb := by
  simp [recordSuccess, h, stateOpen, stateHalfOpen, stateClosed]

theorem recordFailure_of_open {cb : UpstreamCB} (now : Nat) (h : cb.state = stateOpen) :
    cb.recordFailure now = cb := by
  simp [recordFailure, h, stateOpen, stateHalfOpen, stateClosed]

/-- The call that finds the cooldown over turns OPEN into HALF_OPEN. -/
theorem isOpen_of_open {cb : UpstreamCB} (now : Nat) (h : cb.state = stateOpen) :
    cb.isOpen now =
      if now ≤ (cb.lastFailureTime + resetTimeoutSecs) % 2 ^ 64 then (cb, true)
      else ({ cb with state := stateHalfOpen }, false) := if_pos h

theorem isOpen_of_not_open {cb : UpstreamCB} (now : Nat) (h : cb.state ≠ stateOpen) :
    cb.isOpen now = (cb, false) := if_neg h

/-- While HALF_OPEN the first report decides. -/
theorem recordSuccess_of_halfOpen {cb : UpstreamCB} (h : cb.state = stateHalfOpen) :
    cb.recordSuccess = { cb with state := stateClosed, failures := 0 } := if_pos h

theorem recordFailure_of_halfOpen {cb : UpstreamCB} (now : Nat) (h : cb.state = stateHalfOpen) :
    cb.recordFailure now = { cb with state := stateOpen, lastFailureTime := now } := if_pos h

/-- While CLOSED a success forgets the failures. -/
theorem recordSuccess_of_closed {cb : UpstreamCB} (h : cb.state = stateClosed) :
    cb.recordSuccess = { cb with failures := 0 } := by
  simp [recordSuccess, h, stateHalfOpen, stateClosed]

/-- While CLOSED a failure is counted, and the last one allowed opens. -/
theorem recordFailure_of_closed {cb : UpstreamCB} (now : Nat) (h : cb.state = stateClosed) :
    cb.recordFailure now =
      if failureThreshold ≤ cb.failures + 1 then
        { state := stateOpen, failures := cb.failures + 1, lastFailureTime := now }
      else { cb with failures := cb.failures + 1 } := by
  simp [recordFailure, h, stateHalfOpen, stateClosed]

theorem recordFailure_closed_iff {cb : UpstreamCB} (now : Nat) (h : cb.state = stateClosed) :
    (cb.recordFailure now).state = stateClosed ↔ cb.failures + 1 < failureThreshold := by
  rw [recordFailure_of_closed now h]
  by_cases hlast : failureThreshold ≤ cb.failures + 1
  · rw [if_pos hlast]
    exact ⟨fun hstate => absurd hstate (by simp [stateOpen, stateClosed]),
      fun hlt => absurd hlast (Nat.not_le.2 hlt)⟩
  · rw [if_neg hlast]
    exact ⟨fun _ => Nat.lt_of_not_le hlast, fun _ => h⟩

end UpstreamCB

/-! ## Slots -/

/-- The mapped file: one breaker per slot index. -/
abbrev Shm := Nat → UpstreamCB

variable (fxHash : String → Nat)

/-- The slot index of a name. -/
def slotOf (name : String) : Nat := fxHash name % shmSlots

def globalName : String := "__GLOBAL__"

/-- Apply one method to the slot of a name. -/
def onSlot (f : UpstreamCB → UpstreamCB) (name : String) (shm : Shm) : Shm :=
  Function.update shm (slotOf fxHash name) (f (shm (slotOf fxHash name)))

def isUpstreamOpen (now : Nat) (upstream : String) (shm : Shm) : Shm × Bool :=
  let answer := (shm (slotOf fxHash upstream)).isOpen now
  (Function.update shm (slotOf fxHash upstream) answer.1, answer.2)

/-- `record_success()`: the global slot only. -/
def recordSuccess (shm : Shm) : Shm := onSlot fxHash UpstreamCB.recordSuccess globalName shm

/-- `record_failure()`: the global slot only. -/
def recordFailure (now : Nat) (shm : Shm) : Shm :=
  onSlot fxHash (UpstreamCB.recordFailure now) globalName shm

def recordSuccessFor (upstream : String) (shm : Shm) : Shm :=
  recordSuccess fxHash (onSlot fxHash UpstreamCB.recordSuccess upstream shm)

def recordFailureFor (now : Nat) (upstream : String) (shm : Shm) : Shm :=
  recordFailure fxHash now (onSlot fxHash (UpstreamCB.recordFailure now) upstream shm)

def globalState (shm : Shm) : Nat := (shm (slotOf fxHash globalName)).state

/-- `get_confidence`: a score from 5 to 100. -/
def getConfidence (upstream : String) (shm : Shm) : Nat :=
  let cb := shm (slotOf fxHash upstream)
  if cb.state = stateOpen then 5
  else if cb.state = stateHalfOpen then 40
  else max 30 (min 100 (100 - (cb.failures % 2 ^ 32 * 4) % 2 ^ 32))

/-! ## Frames -/

/-- A probe of one name leaves the slots of the others alone. -/
theorem isUpstreamOpen_of_slot_ne (now : Nat) {upstream : String} (shm : Shm) {i : Nat}
    (h : i ≠ slotOf fxHash upstream) : (isUpstreamOpen fxHash now upstream shm).1 i = shm i := by
  simp [isUpstreamOpen, Function.update_of_ne h]

/-- A probe moves no slot but one that is OPEN. -/
theorem isUpstreamOpen_of_not_open (now : Nat) (upstream : String) {shm : Shm} {i : Nat}
    (h : (shm i).state ≠ stateOpen) : (isUpstreamOpen fxHash now upstream shm).1 i = shm i := by
  by_cases hi : i = slotOf fxHash upstream
  · subst hi
    simp [isUpstreamOpen, UpstreamCB.isOpen, h]
  · exact isUpstreamOpen_of_slot_ne fxHash now shm hi

@[simp] theorem onSlot_self (f : UpstreamCB → UpstreamCB) (name : String) (shm : Shm) :
    onSlot fxHash f name shm (slotOf fxHash name) = f (shm (slotOf fxHash name)) := by
  simp [onSlot]

theorem onSlot_of_ne (f : UpstreamCB → UpstreamCB) {name : String} (shm : Shm) {i : Nat}
    (h : i ≠ slotOf fxHash name) : onSlot fxHash f name shm i = shm i := by
  simp [onSlot, Function.update_of_ne h]

/-- A success of any upstream clears the node's slot while that is CLOSED. -/
theorem recordSuccessFor_global (upstream : String) {shm : Shm}
    (h : (shm (slotOf fxHash globalName)).state = stateClosed) :
    recordSuccessFor fxHash upstream shm (slotOf fxHash globalName) =
      { shm (slotOf fxHash globalName) with failures := 0 } := by
  unfold recordSuccessFor recordSuccess
  rw [onSlot_self]
  by_cases hslot : slotOf fxHash globalName = slotOf fxHash upstream
  · have hfirst : onSlot fxHash UpstreamCB.recordSuccess upstream shm (slotOf fxHash globalName) =
        { shm (slotOf fxHash globalName) with failures := 0 } := by
      rw [hslot, onSlot_self, ← hslot]
      exact UpstreamCB.recordSuccess_of_closed h
    rw [hfirst]
    exact UpstreamCB.recordSuccess_of_closed h
  · rw [onSlot_of_ne fxHash _ shm hslot]
    exact UpstreamCB.recordSuccess_of_closed h

/-- What leaves an OPEN slot as it is leaves it OPEN, whichever slot it is applied to. -/
theorem onSlot_eq_of_open {f : UpstreamCB → UpstreamCB} {name : String} {shm : Shm} {i : Nat}
    (hf : (shm i).state = stateOpen → f (shm i) = shm i) (hopen : (shm i).state = stateOpen) :
    onSlot fxHash f name shm i = shm i := by
  unfold onSlot
  by_cases hi : i = slotOf fxHash name
  · subst hi
    simpa using hf hopen
  · simp [Function.update_of_ne hi]

/-- The same of two slots one after the other. -/
theorem onSlot_onSlot_of_open {f : UpstreamCB → UpstreamCB}
    (hf : ∀ {cb : UpstreamCB}, cb.state = stateOpen → f cb = cb) (name name' : String) {shm : Shm}
    {i : Nat} (hopen : (shm i).state = stateOpen) :
    onSlot fxHash f name (onSlot fxHash f name' shm) i = shm i := by
  have hfirst : onSlot fxHash f name' shm i = shm i := onSlot_eq_of_open fxHash hf hopen
  rw [onSlot_eq_of_open fxHash hf (hfirst ▸ hopen)]
  exact hfirst

/-- No report, on whatever name, changes a slot that is OPEN. -/
theorem recordSuccessFor_of_open (upstream : String) {shm : Shm} {i : Nat}
    (hopen : (shm i).state = stateOpen) :
    recordSuccess fxHash shm i = shm i ∧ recordSuccessFor fxHash upstream shm i = shm i :=
  ⟨onSlot_eq_of_open fxHash UpstreamCB.recordSuccess_of_open hopen,
    onSlot_onSlot_of_open fxHash UpstreamCB.recordSuccess_of_open globalName upstream hopen⟩

theorem recordFailureFor_of_open (now : Nat) (upstream : String) {shm : Shm} {i : Nat}
    (hopen : (shm i).state = stateOpen) :
    recordFailure fxHash now shm i = shm i ∧ recordFailureFor fxHash now upstream shm i = shm i :=
  ⟨onSlot_eq_of_open fxHash (UpstreamCB.recordFailure_of_open now) hopen,
    onSlot_onSlot_of_open fxHash (UpstreamCB.recordFailure_of_open now) globalName upstream hopen⟩

end CircuitBreaker
end GatewayEdge
