import GatewayEdge.Foundation.Run
import GatewayEdge.Lua.Gateway

/-!
# LoadShedding — the statuses the gateway makes up itself

A request ends with a status, an upstream's or the gateway's own, and its log phase reports it.  A
request that reached no upstream is reported without one, and then the report is about the node: from
500 on it counts as a failure in the `"__GLOBAL__"` slot, whose opening refuses the requests to come.
-/

namespace GatewayEdge
namespace LoadShedding

open Foundation
open CircuitBreaker (slotOf globalName stateOpen stateClosed failureThreshold)
open Gateway (Platform World processRequest processRequest_keepsSlot reportTelemetry strArg cStr)
open Lua (ClientRequest Headers ScratchBuffers Vars Ctx)

/-! ## Requests from admission to report -/

/-- A request that an upstream is working on. -/
structure Forwarded where
  vars : Vars
  ctx : Ctx

/-- A request that has ended; its log phase is still to come. -/
structure Ended where
  vars : Vars
  ctx : Ctx
  status : Int
  /-- No upstream has seen it. -/
  refused : Bool

structure State where
  world : World
  bufs : ScratchBuffers
  forwarded : List Forwarded
  ended : List Ended

/-- What can happen: a new request, the end of a forwarded one with the upstream's status, the log phase
of one that has ended, the clock moving on, and everything else in a worker, or the next requests
being another worker's. -/
inductive Event
  | access (req : ClientRequest) (headers : Headers)
  | complete (index : Nat) (status : Int)
  | log (index : Nat) (latencyUs : Nat)
  | tick (clockMs : Nat)
  | worker (worker : Gateway.Worker) (bufs : ScratchBuffers)

/-- Upstreams only answer below 500, and reports come in any order. -/
def step (p : Platform) (s : State) : Event → Option State
  | .access req headers =>
    let r := Lua.access p req headers s.world s.bufs
    match r.handoff with
    | .exit reply =>
      some
        { s with
          world := r.world
          bufs := r.bufs
          ended := s.ended ++
            [{ vars := r.vars, ctx := r.logCtx, status := reply.status, refused := true }] }
    | .exec _ =>
      some
        { s with
          world := r.world
          bufs := r.bufs
          forwarded := s.forwarded ++ [{ vars := r.vars, ctx := r.logCtx }] }
  | .complete index status =>
    match s.forwarded[index]? with
    | none => none
    | some request =>
      if status < 500 then
        some
          { s with
            forwarded := s.forwarded.eraseIdx index
            ended := s.ended ++
              [{ vars := request.vars, ctx := request.ctx, status := status, refused := false }] }
      else none
  | .log index latencyUs =>
    match s.ended[index]? with
    | none => none
    | some request =>
      some
        { s with
          world := Lua.log p request.vars request.ctx request.status latencyUs s.world
          ended := s.ended.eraseIdx index }
  | .tick clockMs =>
    if s.world.clockMs ≤ clockMs then some { s with world := { s.world with clockMs := clockMs } }
    else none
  | .worker worker bufs => some { s with world := { s.world with worker := worker }, bufs := bufs }

/-- Nothing is under way. -/
def start (w : World) (bufs : ScratchBuffers) : State where
  world := w
  bufs := bufs
  forwarded := []
  ended := []

/-- The slot of the node. -/
def globalSlot (p : Platform) (s : State) : CircuitBreaker.UpstreamCB :=
  s.world.shm.cb (slotOf p.fxHash globalName)

def Closed (p : Platform) (s : State) : Prop := (globalSlot p s).state = stateClosed

instance (p : Platform) (s : State) : Decidable (Closed p s) :=
  inferInstanceAs (Decidable (_ = _))

/-- The event is not one report too many: the failure of a request that was refused here, when one more
failure opens the breaker. -/
def Bearable (p : Platform) (s : State) : Event → Prop
  | .log index _ => ∀ request ∈ s.ended[index]?, request.refused = true → 500 ≤ request.status →
      (globalSlot p s).failures + 1 < failureThreshold
  | _ => True

instance (p : Platform) (s : State) (e : Event) : Decidable (Bearable p s e) := by
  cases e <;> unfold Bearable <;> infer_instance

/-! ## What the requests under way know -/

/-- A refused request names no upstream, and an upstream's answer is below 500. -/
def EndedWell (s : State) : Prop :=
  ∀ request ∈ s.ended, (request.refused = true → request.vars.targetUpstream = []) ∧
    (request.refused = false → request.status < 500)

theorem access_exit_upstream {p : Platform} {req : ClientRequest} {headers : Headers} {w : World}
    {bufs : ScratchBuffers} {reply : Lua.Reply}
    (h : (Lua.access p req headers w bufs).handoff = .exit reply) :
    (Lua.access p req headers w bufs).vars.targetUpstream = [] := by
  unfold Lua.access at h ⊢
  split at h
  · rfl
  · unfold Lua.accessChecked at h ⊢
    dsimp only at h ⊢
    split at h
    · rename_i hstatus
      rw [if_pos hstatus]
    · cases h

theorem access_keepsSlot (p : Platform) (req : ClientRequest) (headers : Headers) (w : World)
    (bufs : ScratchBuffers) {i : Nat} (h : (w.shm.cb i).state ≠ stateOpen) :
    (Lua.access p req headers w bufs).world.shm.cb i = w.shm.cb i := by
  have hcall := processRequest_keepsSlot p w (Lua.args req) bufs.out i h
  rcases Lua.access_cases p req headers w bufs with
    ⟨_, _, hworld, _⟩ | ⟨_, _, _, hworld, _⟩ | ⟨_, _, hworld, _⟩
  · rw [hworld]
  · rw [hworld, hcall]
  · rw [hworld, hcall]

theorem endedWell_step (p : Platform) (s : State) (e : Event) (s' : State) (h : EndedWell s)
    (hs : step p s e = some s') : EndedWell s' := by
  cases e with
  | access req headers =>
      unfold step at hs
      dsimp only at hs
      split at hs
      · rename_i reply hexit
        cases hs
        intro request hmem
        rcases List.mem_append.1 hmem with hold | hnew
        · exact h request hold
        · rw [List.mem_singleton.1 hnew]
          exact ⟨fun _ => access_exit_upstream hexit, fun hseen => by cases hseen⟩
      · cases hs
        exact h
  | complete index status =>
      unfold step at hs
      dsimp only at hs
      split at hs
      · cases hs
      · split at hs
        · rename_i hstatus
          cases hs
          intro request hmem
          rcases List.mem_append.1 hmem with hold | hnew
          · exact h request hold
          · rw [List.mem_singleton.1 hnew]
            exact ⟨fun hrefused => (by cases hrefused), fun _ => hstatus⟩
        · cases hs
  | log index latencyUs =>
      unfold step at hs
      dsimp only at hs
      split at hs
      · cases hs
      · cases hs
        exact fun request hmem => h request (List.mem_of_mem_eraseIdx hmem)
  | tick clockMs =>
      unfold step at hs
      dsimp only at hs
      split at hs
      · cases hs
        exact h
      · cases hs
  | worker worker bufs =>
      cases hs
      exact h

/-! ## What a report does to the node's slot -/

/-- The log phase touches the breakers only through its report. -/
theorem log_cb (p : Platform) (vars : Vars) (ctx : Ctx) (status : Int) (latencyUs : Nat) (w : World) :
    (Lua.log p vars ctx status latencyUs w).shm.cb =
      (reportTelemetry p status latencyUs (some vars.targetUpstream) w).shm.cb := by
  unfold Lua.log
  dsimp only
  split
  · rfl
  · rfl

/-- A report below 500 clears the slot, whatever it is about. -/
theorem log_below (p : Platform) (vars : Vars) (ctx : Ctx) {status : Int} (latencyUs : Nat)
    {w : World} (hclosed : (w.shm.cb (slotOf p.fxHash globalName)).state = stateClosed)
    (hstatus : status < 500) :
    ((Lua.log p vars ctx status latencyUs w).shm.cb (slotOf p.fxHash globalName)).state =
      stateClosed := by
  have hnot : ¬ (500 : Int) ≤ status := by omega
  rw [log_cb]
  unfold reportTelemetry
  dsimp only
  rw [if_neg hnot, if_neg hnot]
  split
  · exact (congrArg CircuitBreaker.UpstreamCB.state
      (CircuitBreaker.recordSuccessFor_global p.fxHash _ hclosed)).trans hclosed
  · dsimp only
    unfold CircuitBreaker.recordSuccess
    rw [CircuitBreaker.onSlot_self, CircuitBreaker.UpstreamCB.recordSuccess_of_closed hclosed]
    exact hclosed

/-- A report from 500 on without an upstream is a failure of the node. -/
theorem log_refused (p : Platform) {vars : Vars} (ctx : Ctx) {status : Int} (latencyUs : Nat)
    (w : World) (hupstream : vars.targetUpstream = []) (hstatus : 500 ≤ status) :
    (Lua.log p vars ctx status latencyUs w).shm.cb (slotOf p.fxHash globalName) =
      (w.shm.cb (slotOf p.fxHash globalName)).recordFailure w.nowSecs := by
  have hempty : strArg (some vars.targetUpstream) = "" := by
    rw [hupstream]
    decide
  rw [log_cb]
  unfold reportTelemetry
  dsimp only
  rw [hempty, if_neg (by simp), if_pos hstatus]
  exact CircuitBreaker.onSlot_self p.fxHash _ globalName w.shm.cb

/-! ## Along a run -/

/-- A step keeps the breaker CLOSED exactly if it is bearable. -/
theorem closed_step_iff (p : Platform) (s : State) (e : Event) (hwell : EndedWell s)
    (hclosed : Closed p s) : (∀ s', step p s e = some s' → Closed p s') ↔ Bearable p s e := by
  have hslot : (s.world.shm.cb (slotOf p.fxHash globalName)).state = stateClosed := hclosed
  cases e with
  | access req headers =>
      refine ⟨fun _ => trivial, fun _ s' hs => ?_⟩
      have hkeep := access_keepsSlot p req headers s.world s.bufs (i := slotOf p.fxHash globalName)
        (by rw [hslot]; decide)
      unfold step at hs
      dsimp only at hs
      split at hs
      · cases hs
        exact (congrArg CircuitBreaker.UpstreamCB.state hkeep).trans hslot
      · cases hs
        exact (congrArg CircuitBreaker.UpstreamCB.state hkeep).trans hslot
  | complete index status =>
      refine ⟨fun _ => trivial, fun _ s' hs => ?_⟩
      unfold step at hs
      dsimp only at hs
      split at hs
      · cases hs
      · split at hs
        · cases hs
          exact hclosed
        · cases hs
  | log index latencyUs =>
      cases hrequest : s.ended[index]? with
      | none => simp [step, Bearable, hrequest]
      | some request =>
          have hended := hwell request (List.mem_of_getElem? hrequest)
          simp only [step, Bearable, hrequest, Option.some.injEq, Option.mem_def, forall_eq']
          unfold Closed globalSlot
          dsimp only
          by_cases hstatus : 500 ≤ request.status
          · have hrefused : request.refused = true := by
              by_contra hseen
              have := hended.2 (by simpa using hseen)
              omega
            rw [log_refused p request.ctx latencyUs s.world (hended.1 hrefused) hstatus,
              CircuitBreaker.UpstreamCB.recordFailure_closed_iff _ hslot]
            exact ⟨fun h _ _ => h, fun h => h hrefused hstatus⟩
          · have hbelow : request.status < 500 := by omega
            have hstays := log_below p request.vars request.ctx latencyUs hslot hbelow
            exact ⟨fun _ _ hle => absurd hle hstatus, fun _ => hstays⟩
  | tick clockMs =>
      refine ⟨fun _ => trivial, fun _ s' hs => ?_⟩
      unfold step at hs
      dsimp only at hs
      split at hs
      · cases hs
        exact hclosed
      · cases hs
  | worker worker bufs =>
      refine ⟨fun _ => trivial, fun _ s' hs => ?_⟩
      cases hs
      exact hclosed

/-- From a node whose breaker is CLOSED and with nothing under way, the breaker stays CLOSED exactly as
long as no failure of a refused request is reported that is one too many. -/
theorem closed_throughout_iff (p : Platform) (w : World) (bufs : ScratchBuffers)
    (hclosed : (w.shm.cb (slotOf p.fxHash globalName)).state = stateClosed) (es : List Event) :
    Throughout (step p) (Closed p) (start w bufs) es ↔
      Along (step p) (Bearable p) (start w bufs) es := by
  have hwell : EndedWell (start w bufs) := fun request hmem => by cases hmem
  have hstart : Closed p (start w bufs) := hclosed
  exact throughout_iff_along (fun s e s' h _ _ hs => endedWell_step p s e s' h hs)
    (closed_step_iff p) hwell hstart es

/-- A node that serves one request at a time. -/
def narrowWorld : World :=
  { Gateway.sampleWorld with
    worker := { Gateway.sampleWorld.worker with
      config := { Gateway.sampleConfig with globalMaxConcurrency := 1 } } }

/-- One request is with its upstream; the others are refused for want of a slot and reported, and in the
end the first one is served. -/
def crowd (others : Nat) : List Event :=
  [.access (Lua.sampleRequest none) (fun _ => none)] ++
    List.replicate others (.access (Lua.sampleRequest none) (fun _ => none)) ++
    List.replicate others (.log 0 1000) ++ [.complete 0 200, .log 0 1000]

/-- A small crowd is no danger. -/
theorem small_crowd_closed :
    Throughout (step Gateway.samplePlatform) (Closed Gateway.samplePlatform)
      (start narrowWorld ScratchBuffers.fresh) (crowd 3) :=
  (closed_throughout_iff Gateway.samplePlatform narrowWorld ScratchBuffers.fresh rfl (crowd 3)).2
    (by decide)

/-- Fifty refused requests open the breaker, with the only upstream healthy all the time. -/
theorem large_crowd_opens :
    ¬ Throughout (step Gateway.samplePlatform) (Closed Gateway.samplePlatform)
      (start narrowWorld ScratchBuffers.fresh) (crowd 50) := by
  have hopen : (run (step Gateway.samplePlatform) (start narrowWorld ScratchBuffers.fresh)
      (crowd 50)).map (fun t => (globalSlot Gateway.samplePlatform t).state) = some stateOpen := by
    decide +kernel
  intro hlaw
  rcases Option.map_eq_some_iff.1 hopen with ⟨t, hrun, hstate⟩
  have hclosed : (globalSlot Gateway.samplePlatform t).state = stateClosed :=
    hlaw (crowd 50) [] t (List.append_nil _).symm hrun
  rw [hstate] at hclosed
  exact absurd hclosed (by decide)

end LoadShedding
end GatewayEdge
