import GatewayEdge.Foundation.Run
import GatewayEdge.LoadBalancing.Availability
import Mathlib.Data.Finset.Card

/-!
# UpstreamIsolation — whose reports can bench an upstream

Both mapped files keep one slot per hash value and no key.  Whether reports and probes about one
address can show in the usability of another is a question about slots alone: two addresses of one
slot share their state, and so does an address with the `"__GLOBAL__"` slot, which every report
writes.
-/

namespace GatewayEdge
namespace UpstreamIsolation

open Foundation
open CircuitBreaker (slotOf globalName onSlot onSlot_self onSlot_of_ne UpstreamCB)
open Selector (Usability)

/-! ## Operations on the two files -/

/-- What is done to an address. -/
inductive Action
  | recordSuccessFor
  | recordFailureFor
  | isUpstreamOpen
  | applyProbe (ok : Bool) (unhealthyThreshold healthyThreshold : Nat)
  deriving DecidableEq, Repr

structure Op where
  address : String
  clockMs : Nat
  action : Action
  deriving DecidableEq, Repr

variable (fxHash : String → Nat)

def exec (u : Usability) (op : Op) : Usability :=
  match op.action with
  | .recordSuccessFor => { u with cb := CircuitBreaker.recordSuccessFor fxHash op.address u.cb }
  | .recordFailureFor =>
    { u with cb := CircuitBreaker.recordFailureFor fxHash (op.clockMs / 1000) op.address u.cb }
  | .isUpstreamOpen =>
    { u with cb := (CircuitBreaker.isUpstreamOpen fxHash (op.clockMs / 1000) op.address u.cb).1 }
  | .applyProbe ok unhealthyThreshold healthyThreshold =>
    { u with
      health := Health.probe fxHash op.clockMs op.address ok unhealthyThreshold healthyThreshold
        u.health }

/-- `is_upstream_open` is false and `is_healthy` is true. -/
def Usable (now : Nat) (addr : String) (u : Usability) : Prop :=
  (CircuitBreaker.isUpstreamOpen fxHash now addr u.cb).2 = false ∧
    (Health.isHealthy fxHash addr u.health).2 = true

instance (now : Nat) (addr : String) (u : Usability) : Decidable (Usable fxHash now addr u) :=
  inferInstanceAs (Decidable (_ ∧ _))

/-- Files no process has written to. -/
def fresh : Usability where
  cb _ := {}
  health _ := {}

/-- The law asked for, from the given state of the files: after any sequence of operations on addresses
of `S`, the usability of an address is what the operations that name it alone would have made it. -/
def Isolated (S : Finset String) (u : Usability) : Prop :=
  ∀ ops : List Op, (∀ op ∈ ops, op.address ∈ S) → ∀ addr ∈ S, ∀ now,
    (Usable fxHash now addr (ops.foldl (exec fxHash) u) ↔
      Usable fxHash now addr ((ops.filter fun op => op.address = addr).foldl (exec fxHash) u))

/-- Different addresses have different slots, and then none of them has the node's. -/
def Separated (S : Finset String) : Prop :=
  ∀ a ∈ S, ∀ b ∈ S, a ≠ b → slotOf fxHash a ≠ slotOf fxHash b ∧
    slotOf fxHash a ≠ slotOf fxHash globalName

/-- This is the usability the selector asks for. -/
theorem selector_usable_iff (ctx : Selector.Context) (addr : String) (u : Usability) :
    Selector.Usable ctx addr u ↔ Usable ctx.fxHash ctx.now addr u := by
  unfold Selector.Usable Selector.usable Usable
  rcases CircuitBreaker.isUpstreamOpen ctx.fxHash ctx.now addr u.cb with ⟨cb, blocked⟩
  cases blocked with
  | true => simp
  | false => simp

/-! ## Separate slots isolate -/

/-- The two states look alike in the slots of an address. -/
structure SameView (addr : String) (u v : Usability) : Prop where
  cb : u.cb (slotOf fxHash addr) = v.cb (slotOf fxHash addr)
  health : u.health (slotOf fxHash addr) = v.health (slotOf fxHash addr)

variable {fxHash}

/-- A report at the address's own slot, which may be the node's as well. -/
theorem report_self (f : UpstreamCB → UpstreamCB) (addr : String) (shm : CircuitBreaker.Shm) :
    onSlot fxHash f globalName (onSlot fxHash f addr shm) (slotOf fxHash addr) =
      if slotOf fxHash addr = slotOf fxHash globalName then f (f (shm (slotOf fxHash addr)))
      else f (shm (slotOf fxHash addr)) := by
  by_cases hglobal : slotOf fxHash addr = slotOf fxHash globalName
  · rw [if_pos hglobal, hglobal, onSlot_self, ← hglobal, onSlot_self]
  · rw [if_neg hglobal, onSlot_of_ne fxHash f _ hglobal, onSlot_self]

/-- A report about another address, seen from a slot of neither. -/
theorem report_of_ne (f : UpstreamCB → UpstreamCB) {addr : String} (shm : CircuitBreaker.Shm)
    {i : Nat} (hother : i ≠ slotOf fxHash addr) (hglobal : i ≠ slotOf fxHash globalName) :
    onSlot fxHash f globalName (onSlot fxHash f addr shm) i = shm i := by
  rw [onSlot_of_ne fxHash f _ hglobal, onSlot_of_ne fxHash f _ hother]

namespace SameView

variable {addr : String} {u v : Usability}

theorem refl (addr : String) (u : Usability) : SameView fxHash addr u u := ⟨rfl, rfl⟩

theorem usable_iff (h : SameView fxHash addr u v) (now : Nat) :
    Usable fxHash now addr u ↔ Usable fxHash now addr v := by
  have hhealth : u.health (Health.slotOf fxHash addr) = v.health (Health.slotOf fxHash addr) :=
    h.health
  unfold Usable CircuitBreaker.isUpstreamOpen Health.isHealthy
  dsimp only
  rw [h.cb, hhealth]

/-- An operation on the address works on its slots alone. -/
theorem exec_own (h : SameView fxHash addr u v) {op : Op} (hown : op.address = addr) :
    SameView fxHash addr (exec fxHash u op) (exec fxHash v op) := by
  have hhealth : u.health (Health.slotOf fxHash addr) = v.health (Health.slotOf fxHash addr) :=
    h.health
  subst hown
  unfold exec
  cases op.action with
  | recordSuccessFor =>
      refine ⟨?_, h.health⟩
      calc
        CircuitBreaker.recordSuccessFor fxHash op.address u.cb (slotOf fxHash op.address) = _ :=
          report_self UpstreamCB.recordSuccess op.address u.cb
        _ = _ := by rw [h.cb]
        _ = CircuitBreaker.recordSuccessFor fxHash op.address v.cb (slotOf fxHash op.address) :=
          (report_self UpstreamCB.recordSuccess op.address v.cb).symm
  | recordFailureFor =>
      refine ⟨?_, h.health⟩
      calc
        CircuitBreaker.recordFailureFor fxHash (op.clockMs / 1000) op.address u.cb
            (slotOf fxHash op.address) = _ :=
          report_self (UpstreamCB.recordFailure (op.clockMs / 1000)) op.address u.cb
        _ = _ := by rw [h.cb]
        _ = CircuitBreaker.recordFailureFor fxHash (op.clockMs / 1000) op.address v.cb
            (slotOf fxHash op.address) :=
          (report_self (UpstreamCB.recordFailure (op.clockMs / 1000)) op.address v.cb).symm
  | isUpstreamOpen =>
      refine ⟨?_, h.health⟩
      simp [CircuitBreaker.isUpstreamOpen, h.cb]
  | applyProbe ok unhealthyThreshold healthyThreshold =>
      refine ⟨h.cb, ?_⟩
      change Health.probe _ _ _ _ _ _ _ (Health.slotOf fxHash op.address) =
        Health.probe _ _ _ _ _ _ _ (Health.slotOf fxHash op.address)
      simp [Health.probe, hhealth]

/-- An operation on an address with another slot does not show. -/
theorem exec_foreign (h : SameView fxHash addr u v) {op : Op}
    (hother : slotOf fxHash addr ≠ slotOf fxHash op.address)
    (hglobal : slotOf fxHash addr ≠ slotOf fxHash globalName) :
    SameView fxHash addr (exec fxHash u op) v := by
  unfold exec
  cases op.action with
  | recordSuccessFor =>
      exact ⟨(report_of_ne UpstreamCB.recordSuccess u.cb hother hglobal).trans h.cb, h.health⟩
  | recordFailureFor =>
      exact ⟨(report_of_ne (UpstreamCB.recordFailure _) u.cb hother hglobal).trans h.cb, h.health⟩
  | isUpstreamOpen =>
      exact ⟨(CircuitBreaker.isUpstreamOpen_of_slot_ne fxHash _ u.cb hother).trans h.cb, h.health⟩
  | applyProbe ok unhealthyThreshold healthyThreshold =>
      refine ⟨h.cb, ?_⟩
      have hslot : slotOf fxHash addr ≠ Health.slotOf fxHash op.address := hother
      simp [Health.probe, Function.update_of_ne hslot, h.health]

end SameView

theorem isolated_of_separated {S : Finset String} (h : Separated fxHash S) (u : Usability) :
    Isolated fxHash S u := by
  intro ops hops addr haddr now
  have hview : SameView fxHash addr (ops.foldl (exec fxHash) u)
      ((ops.filter fun op => op.address = addr).foldl (exec fxHash) u) := by
    apply foldl_purge
    · intro s t op hown hst
      exact hst.exec_own (by simpa using hown)
    · intro op hmem hforeign s t hst
      have hne : addr ≠ op.address := by
        intro heq
        simp [heq] at hforeign
      rcases h addr haddr op.address (hops op hmem) hne with ⟨hother, hglobal⟩
      exact hst.exec_foreign hother hglobal
    · exact SameView.refl addr u
  exact hview.usable_iff now

/-! ## Shared slots do not -/

/-- Every address starts out usable. -/
theorem usable_fresh (now : Nat) (addr : String) : Usable fxHash now addr fresh := by
  constructor
  · rfl
  · rfl

/-- One failed probe of `b` at the threshold 1. -/
def failedProbe (b : String) : Op :=
  { address := b, clockMs := 1000, action := .applyProbe false 1 1 }

def failedRequest (b : String) : Op := { address := b, clockMs := 1000, action := .recordFailureFor }

/-- A failed probe takes down whoever shares the slot. -/
theorem not_usable_of_shared_slot {a b : String} (h : slotOf fxHash a = slotOf fxHash b) :
    ¬ Usable fxHash 1 a (exec fxHash fresh (failedProbe b)) := by
  have hslot : Health.slotOf fxHash a = Health.slotOf fxHash b := h
  intro husable
  have hhealthy := husable.2
  unfold Health.isHealthy at hhealthy
  rw [hslot] at hhealthy
  simp [exec, failedProbe, Health.probe, Health.applyProbe, Health.touch, fresh] at hhealthy

/-- Failed requests about one address count in the node's slot as well. -/
theorem failedRequests_global {b : String} (h : slotOf fxHash globalName ≠ slotOf fxHash b) (n : Nat)
    (u : Usability) :
    ((List.replicate n (failedRequest b)).foldl (exec fxHash) u).cb (slotOf fxHash globalName) =
      (UpstreamCB.recordFailure 1)^[n] (u.cb (slotOf fxHash globalName)) := by
  induction n generalizing u with
  | zero => rfl
  | succ n ih =>
      have hone : (exec fxHash u (failedRequest b)).cb (slotOf fxHash globalName) =
          UpstreamCB.recordFailure 1 (u.cb (slotOf fxHash globalName)) := by
        change onSlot fxHash _ globalName (onSlot fxHash _ b u.cb) _ = _
        rw [onSlot_self, onSlot_of_ne fxHash _ u.cb h]
        simp [failedRequest]
      rw [List.replicate_succ, List.foldl_cons, ih, hone, Function.iterate_succ_apply]

/-- Fifty failed requests about `b` take down whoever shares the node's slot. -/
theorem not_usable_of_global_slot {a b : String} (ha : slotOf fxHash a = slotOf fxHash globalName)
    (hb : slotOf fxHash globalName ≠ slotOf fxHash b) :
    ¬ Usable fxHash 1 a ((List.replicate 50 (failedRequest b)).foldl (exec fxHash) fresh) := by
  have hopen : (UpstreamCB.recordFailure 1)^[50] {} =
      { state := CircuitBreaker.stateOpen, failures := 50, lastFailureTime := 1 } := by
    decide +kernel
  have hslot : ((List.replicate 50 (failedRequest b)).foldl (exec fxHash) fresh).cb
      (slotOf fxHash a) = { state := CircuitBreaker.stateOpen, failures := 50, lastFailureTime := 1 } := by
    rw [ha, failedRequests_global hb]
    exact hopen
  intro husable
  have hpasses := husable.1
  unfold CircuitBreaker.isUpstreamOpen at hpasses
  dsimp only at hpasses
  rw [hslot] at hpasses
  exact absurd hpasses (by decide)

/-- Operations that name only `b` leave nothing of a run for another address. -/
theorem filter_of_names {a b : String} (hne : a ≠ b) {ops : List Op} (h : ∀ op ∈ ops, op.address = b) :
    ops.filter (fun op => op.address = a) = [] := by
  apply List.filter_eq_nil_iff.2
  intro op hop
  rw [h op hop]
  simpa using hne.symm

theorem separated_of_isolated {S : Finset String} (h : Isolated fxHash S fresh) :
    Separated fxHash S := by
  intro a ha b hb hne
  have hlaw : ∀ ops : List Op, (∀ op ∈ ops, op.address = b) →
      Usable fxHash 1 a (ops.foldl (exec fxHash) fresh) := by
    intro ops hops
    apply (h ops (fun op hop => by rw [hops op hop]; exact hb) a ha 1).2
    rw [filter_of_names hne hops]
    exact usable_fresh 1 a
  have hslots : slotOf fxHash a ≠ slotOf fxHash b := by
    intro hshared
    refine not_usable_of_shared_slot hshared (hlaw [failedProbe b] fun op hop => ?_)
    rw [List.mem_singleton.1 hop]
    rfl
  refine ⟨hslots, fun hglobal => ?_⟩
  refine not_usable_of_global_slot hglobal (hglobal ▸ hslots)
    (hlaw (List.replicate 50 (failedRequest b)) fun op hop => ?_)
  rw [(List.mem_replicate.1 hop).2]
  rfl

/-- A set of more addresses than there are slots is never separated. -/
theorem card_le_of_separated {S : Finset String} (h : Separated fxHash S) :
    S.card ≤ CircuitBreaker.shmSlots := by
  have hmaps : ∀ a ∈ S, slotOf fxHash a ∈ Finset.range CircuitBreaker.shmSlots :=
    fun a _ => Finset.mem_range.2 (Nat.mod_lt _ (by decide))
  have hinj : ∀ a ∈ S, ∀ b ∈ S, slotOf fxHash a = slotOf fxHash b → a = b := by
    intro a ha b hb hsame
    by_contra hne
    exact (h a ha b hb hne).1 hsame
  calc
    S.card ≤ (Finset.range CircuitBreaker.shmSlots).card :=
      Finset.card_le_card_of_injOn (slotOf fxHash) hmaps hinj
    _ = CircuitBreaker.shmSlots := Finset.card_range _

/-- Upstreams are isolated from each other exactly if their slots are separate, from whatever state the
files are in, and already if they are so from fresh files. -/
theorem isolated_iff_separated (fxHash : String → Nat) (S : Finset String) :
    ((∀ u, Isolated fxHash S u) ↔ Separated fxHash S) ∧
      (Isolated fxHash S fresh ↔ Separated fxHash S) :=
  ⟨⟨fun h => separated_of_isolated (h fresh), isolated_of_separated⟩,
    ⟨separated_of_isolated, fun h => isolated_of_separated h fresh⟩⟩

/-- FxHash gives these two addresses the same value. -/
def twinHash (s : String) : Nat :=
  if s = "10.0.0.19:8080" then 13252218022247153784
  else if s = "10.0.0.92:8080" then 13252218022247153784
  else if s = "__GLOBAL__" then 3106020217899893933
  else 0

/-- One failed probe of the second address benches the first one. -/
theorem twins_not_isolated :
    ¬ Isolated twinHash {"10.0.0.19:8080", "10.0.0.92:8080"} fresh := by
  intro h
  have hshared : slotOf twinHash "10.0.0.19:8080" = slotOf twinHash "10.0.0.92:8080" := by decide
  refine not_usable_of_shared_slot hshared
    ((h [failedProbe "10.0.0.92:8080"] (by decide) "10.0.0.19:8080" (by decide) 1).2 ?_)
  exact usable_fresh 1 "10.0.0.19:8080"

end UpstreamIsolation
end GatewayEdge
