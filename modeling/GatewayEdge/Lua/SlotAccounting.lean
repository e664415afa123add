import GatewayEdge.Foundation.Run
import GatewayEdge.Lua.Gateway
import Mathlib.Data.List.Perm.Basic

/-!
# Lua.SlotAccounting — who gives a backpressure slot back

A slot is taken by `process_request` and, for an admitted request, is to be given back by the log
phase.  The log phase decides by `ngx.ctx`, which the redirect to the named location has emptied.
-/

namespace GatewayEdge
namespace Lua
namespace SlotAccounting

open Foundation
open Gateway (Platform World CallSettled processRequest reportTelemetry processRequest_settled)

/-! ## Requests between their access and their log phase -/

/-- A request whose access phase is over: its variables, `ngx.ctx` as the log phase will find it,
and whether `process_request` answered 200. -/
structure Pending where
  vars : Vars
  ctx : Ctx
  admitted : Bool

structure WorkerState where
  world : World
  bufs : ScratchBuffers
  pending : List Pending

/-- The access phase of a new request, the log phase of a pending one, or anything else that
happens to the world in between. -/
inductive Event
  | access (req : ClientRequest) (headers : Headers)
  | log (index : Nat) (status : Int) (latencyUs : Nat)
  | environment (w : World)

/-- Nothing but the access and log phases touches the gauge of this worker. -/
def step (p : Platform) (s : WorkerState) : Event → Option WorkerState
  | .access req headers =>
    let r := Lua.access p req headers s.world s.bufs
    some
      { world := r.world
        bufs := r.bufs
        pending := s.pending ++ [{ vars := r.vars, ctx := r.logCtx, admitted := r.handoff.isExec }] }
  | .log index status latencyUs =>
    match s.pending[index]? with
    | none => none
    | some request =>
      some { s with
        world := Lua.log p request.vars request.ctx status latencyUs s.world
        pending := s.pending.eraseIdx index }
  | .environment w =>
    if w.worker.inFlight = s.world.worker.inFlight then some { s with world := w } else none

/-- A worker that has served nothing. -/
def start (w : World) : WorkerState where
  world := { w with worker := { w.worker with inFlight := 0 } }
  bufs := ScratchBuffers.fresh
  pending := []

/-- The admitted requests whose log phase has not run. -/
def outstanding (s : WorkerState) : Nat := s.pending.countP Pending.admitted

/-- `IN_FLIGHT` counts exactly the admitted requests whose log phase has not run. -/
def Conserved (s : WorkerState) : Prop := s.world.worker.inFlight = outstanding s

/-- The event is not the log phase of an admitted request. -/
def NoAdmittedLog (s : WorkerState) : Event → Prop
  | .log index _ _ => ∀ request, s.pending[index]? = some request → request.admitted = false
  | _ => True

/-! ## What each phase does to the gauge -/

@[simp] theorem reportTelemetry_inFlight (p : Platform) (status : Int) (latencyUs : Nat)
    (upstream : Option Bytes) (w : World) :
    (reportTelemetry p status latencyUs upstream w).worker.inFlight = w.worker.inFlight := by
  unfold reportTelemetry
  dsimp only
  split
  · split <;> rfl
  · split <;> rfl

/-- The access phase takes a slot exactly for a request it hands on. -/
theorem access_inFlight (p : Platform) (req : ClientRequest) (headers : Headers) (w : World)
    (bufs : ScratchBuffers) :
    let r := Lua.access p req headers w bufs
    r.world.worker.inFlight = w.worker.inFlight + (if r.handoff.isExec then 1 else 0) := by
  have hgauge := (processRequest_settled p w (args req) bufs.out).gauge
  dsimp only
  change _ = _ + if (Lua.access p req headers w bufs).Admitted then 1 else 0
  rcases access_cases p req headers w bufs with
    ⟨hrefused, -, hworld, -⟩ | ⟨hstatus, hrefused, -, hworld, -⟩ | ⟨hstatus, hadmitted, hworld, -⟩
  · rw [hworld, if_neg hrefused, Int.add_zero]
  · rw [hworld, if_neg hrefused, hgauge, if_neg hstatus]
  · rw [hworld, if_pos hadmitted, hgauge, if_pos hstatus]

/-- No log phase ever finds the flag that tells it to release. -/
theorem access_logCtx (p : Platform) (req : ClientRequest) (headers : Headers) (w : World)
    (bufs : ScratchBuffers) : (Lua.access p req headers w bufs).logCtx.admitted = false := by
  rcases access_cases p req headers w bufs with
    ⟨hrefused, hctx, -⟩ | ⟨-, hrefused, hctx, -⟩ | ⟨-, hadmitted, -⟩
  all_goals
    unfold Access.Admitted at *
    unfold Access.logCtx
    cases hhandoff : (Lua.access p req headers w bufs).handoff with
    | exit reply => simp_all [Handoff.isExec]
    | exec location => rfl

/-- The flag is missing from every pending request. -/
def FlagsLost (s : WorkerState) : Prop := ∀ request ∈ s.pending, request.ctx.admitted = false

theorem flagsLost_step (p : Platform) (s : WorkerState) (e : Event) (s' : WorkerState)
    (h : FlagsLost s) (hs : step p s e = some s') : FlagsLost s' := by
  cases e with
  | access req headers =>
      have hs' := (Option.some.inj hs).symm
      subst hs'
      intro request hmem
      rcases List.mem_append.1 hmem with hold | hnew
      · exact h request hold
      · rw [List.mem_singleton.1 hnew]
        exact access_logCtx p req headers s.world s.bufs
  | log index status latencyUs =>
      unfold step at hs
      dsimp only at hs
      split at hs
      · cases hs
      · cases hs
        exact fun request hmem => h request (List.mem_of_mem_eraseIdx hmem)
  | environment w =>
      unfold step at hs
      dsimp only at hs
      split at hs
      · cases hs
        exact h
      · cases hs

/-! ## The gauge along a run -/

/-- The slots held on behalf of no request. -/
def excess (s : WorkerState) : Int := s.world.worker.inFlight - outstanding s

theorem conserved_iff_excess {s : WorkerState} : Conserved s ↔ excess s = 0 := by
  unfold Conserved excess
  omega

/-- Taking one request out of the list. -/
theorem countP_admitted_eraseIdx {pending : List Pending} {index : Nat} {request : Pending}
    (h : pending[index]? = some request) :
    pending.countP Pending.admitted =
      (pending.eraseIdx index).countP Pending.admitted + (if request.admitted then 1 else 0) := by
  rcases List.getElem?_eq_some_iff.1 h with ⟨hlt, hget⟩
  have hperm := (List.getElem_cons_eraseIdx_perm hlt).countP_eq Pending.admitted
  rw [← hperm, List.countP_cons, hget]

/-- A step leaks one slot if it logs an admitted request, and none otherwise. -/
theorem excess_step (p : Platform) (s : WorkerState) (e : Event) (s' : WorkerState)
    (h : FlagsLost s) (hs : step p s e = some s') :
    (NoAdmittedLog s e ∧ excess s' = excess s) ∨ (¬ NoAdmittedLog s e ∧ excess s' = excess s + 1) := by
  cases e with
  | access req headers =>
      have hs' := (Option.some.inj hs).symm
      subst hs'
      have hgauge := access_inFlight p req headers s.world s.bufs
      refine Or.inl ⟨trivial, ?_⟩
      unfold excess outstanding
      dsimp only at hgauge ⊢
      rw [hgauge, List.countP_append, List.countP_singleton]
      split <;> omega
  | log index status latencyUs =>
      unfold step at hs
      dsimp only at hs
      split at hs
      · cases hs
      · rename_i request hrequest
        cases hs
        have hmem : request ∈ s.pending := List.mem_of_getElem? hrequest
        have hctx := h request hmem
        -- Without the flag the log phase reports telemetry and nothing else.
        have hgauge : (Lua.log p request.vars request.ctx status latencyUs s.world).worker.inFlight =
            s.world.worker.inFlight := by
          simp [Lua.log, hctx]
        have hcount := countP_admitted_eraseIdx hrequest
        unfold excess outstanding NoAdmittedLog
        dsimp only
        rw [hgauge, hcount]
        -- The request leaves the list; only an admitted one was counted in it.
        cases hadmitted : request.admitted with
        | false =>
            refine Or.inl ⟨?_, by simp⟩
            intro request' hrequest'
            rw [hrequest] at hrequest'
            exact Option.some.inj hrequest' ▸ hadmitted
        | true =>
            refine Or.inr ⟨?_, ?_⟩
            · intro hlaw
              have := hlaw request hrequest
              simp [hadmitted] at this
            · simp
              omega
  | environment w =>
      unfold step at hs
      dsimp only at hs
      split at hs
      · rename_i hsame
        cases hs
        refine Or.inl ⟨trivial, ?_⟩
        unfold excess outstanding
        rw [hsame]
      · cases hs

theorem excess_run (p : Platform) {s t : WorkerState} {es : List Event} (h : FlagsLost s)
    (hrun : run (step p) s es = some t) :
    excess s ≤ excess t ∧ (excess t = excess s ↔ Along (step p) NoAdmittedLog s es) := by
  induction es generalizing s with
  | nil =>
      have hst : s = t := by simpa using hrun
      subst hst
      exact ⟨le_rfl, fun _ => trivial, fun _ => rfl⟩
  | cons e es ih =>
      rcases run_cons_eq_some.1 hrun with ⟨m, hm, hrest⟩
      rcases ih (flagsLost_step p s e m h hm) hrest with ⟨hle, hiff⟩
      have hnext : ∀ s', step p s e = some s' → s' = m := fun s' hs' => by
        rw [hm] at hs'
        exact (Option.some.inj hs').symm
      rcases excess_step p s e m h hm with ⟨hlaw, heq⟩ | ⟨hleak, heq⟩
      · refine ⟨by omega, ?_, ?_⟩
        · intro hsame
          refine ⟨hlaw, fun s' hs' => ?_⟩
          rw [hnext s' hs']
          exact hiff.1 (by omega)
        · rintro ⟨-, hafter⟩
          rw [hiff.2 (hafter m hm), heq]
      · exact ⟨by omega, fun hsame => by omega, fun halong => absurd halong.1 hleak⟩

/-- After any run the gauge is right exactly if no admitted request has reached its log phase. -/
theorem conserved_iff_no_admitted_log (p : Platform) (w : World) (es : List Event)
    (t : WorkerState) (hrun : run (step p) (start w) es = some t) :
    Conserved t ↔ Along (step p) NoAdmittedLog (start w) es := by
  have hstart : excess (start w) = 0 := rfl
  have hflags : FlagsLost (start w) := fun request hmem => by cases hmem
  rw [conserved_iff_excess, ← (excess_run p hflags hrun).2, hstart]

/-- A request between its two phases holds its slot. -/
theorem conserved_after_access :
    ∃ t, run (step Gateway.samplePlatform) (start Gateway.sampleWorld)
        [.access (sampleRequest none) (fun _ => none)] = some t ∧ Conserved t := by
  have henabled : (run (step Gateway.samplePlatform) (start Gateway.sampleWorld)
      [.access (sampleRequest none) (fun _ => none)]).isSome = true := rfl
  rcases Option.isSome_iff_exists.1 henabled with ⟨t, hrun⟩
  exact ⟨t, hrun,
    (conserved_iff_no_admitted_log _ _ _ t hrun).2 ⟨trivial, fun _ _ => trivial⟩⟩

/-- One anonymous request, served and logged: nothing is pending and its slot is still taken. -/
theorem logged_request_keeps_slot :
    ∃ t, run (step Gateway.samplePlatform) (start Gateway.sampleWorld)
        [.access (sampleRequest none) (fun _ => none), .log 0 200 1000] = some t ∧ ¬ Conserved t := by
  have hgauge : (run (step Gateway.samplePlatform) (start Gateway.sampleWorld)
      [.access (sampleRequest none) (fun _ => none), .log 0 200 1000]).map
        (fun t => (t.world.worker.inFlight, outstanding t)) = some (1, 0) := by
    decide +kernel
  rcases Option.map_eq_some_iff.1 hgauge with ⟨t, hrun, hvalues⟩
  refine ⟨t, hrun, ?_⟩
  unfold Conserved
  rw [(Prod.mk.inj hvalues).1, (Prod.mk.inj hvalues).2]
  decide

end SlotAccounting
end Lua
end GatewayEdge
