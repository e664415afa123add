import GatewayEdge.Foundation.Streak
import GatewayEdge.Lua.Dispatch
import GatewayEdge.UpstreamIsolation

/-!
# UpstreamEvidence — on whose evidence a slot is benched

Between the choice of an upstream and the report about it lie two phases of the bridge, the buffers of a
worker and the requests of all other workers.  Still a report names the upstream its own request was sent to,
and the breaker of a slot opens on fifty failures in a row of requests that were sent to upstreams of the
slot, and on nothing else.  Upstreams whose names share a slot are benched together.
-/

namespace GatewayEdge
namespace UpstreamEvidence

open Foundation
open CircuitBreaker (slotOf globalName UpstreamCB failureThreshold stateClosed stateOpen stateHalfOpen onSlot
  onSlot_self onSlot_of_ne)
open Gateway (Platform World Args OutBuffers processRequest strArg cStr)
open Lua (ClientRequest Headers ScratchBuffers Vars Ctx upstreamLen)
open Lua.Dispatch
open Lua.Identity (carried)

/-! ## What a report is about -/

/-- The name an address goes by once it has been through the buffer. -/
def reportedName (address : String) : String := strArg (some (carried upstreamLen (some address)))

/-- An address that fits keeps its name. -/
theorem reportedName_of_fits {address : String} (hfits : Lua.UpstreamHeaders.Fits upstreamLen address)
    (hnul : '\x00' ∉ address.toList) : reportedName address = address := by
  have hcarried : carried upstreamLen (some address) = strBytes address := by
    unfold carried
    rw [Option.getD_some, List.take_of_length_le hfits]
    exact Gateway.cStr_of_no_nul (zero_notMem_strBytes hnul)
  unfold reportedName
  rw [hcarried]
  exact Gateway.strArg_strBytes hnul

/-- The request was sent to this member of a pool of its config. -/
structure SentTo (request : Pending) (up : Upstream) : Prop where
  member : ∃ name svc region, request.config.services.lookup name = some svc ∧
    up ∈ Selector.regionPool svc region
  carried : request.vars.targetUpstream = carried upstreamLen (some up.address)

/-- A request names the upstream it was sent to, and none if it was refused. -/
structure Honest (request : Pending) : Prop where
  sent : request.admitted = true → ∃ up, SentTo request up
  refused : request.admitted = false → request.vars.targetUpstream = []

section Slots

variable (p : Platform) (i : ℕ)

/-- The report names an upstream of this slot. -/
def concerns (r : Report) : Bool := r.name != "" && slotOf p.fxHash r.name == i

/-- A failed request of an upstream of this slot. -/
def blames (r : Report) : Bool := concerns p i r && decide (500 ≤ r.status)

def clears (r : Report) : Bool := concerns p i r && !decide (500 ≤ r.status)

/-- The failed requests in a row, the last one reported among them. -/
def failuresInARow (s : Node) : ℕ := streak (blames p i) (clears p i) s.reports

def breaker (s : Node) : UpstreamCB := s.shm.cb i

def Benched (s : Node) : Prop := (breaker i s).state ≠ stateClosed

instance (s : Node) : Decidable (Benched i s) := inferInstanceAs (Decidable (_ ≠ _))

end Slots

/-! ## What a step does to a slot -/

/-- Everything that can happen to slot `i`: it is asked, or a report is made that concerns it or not. -/
inductive Moves (p : Platform) (i : ℕ) (s t : Node) : Prop
  | asked (now : ℕ) (hslot : breaker i t = breaker i s ∨ breaker i t = ((breaker i s).isOpen now).1)
      (hreports : t.reports = s.reports)
  | unconcerned (r : Report) (hr : concerns p i r = false) (hslot : breaker i t = breaker i s)
      (hreports : t.reports = r :: s.reports)
  | blamed (now : ℕ) (r : Report) (hr : blames p i r = true)
      (hslot : breaker i t = (breaker i s).recordFailure now) (hreports : t.reports = r :: s.reports)
  | cleared (r : Report) (hr : clears p i r = true) (hslot : breaker i t = (breaker i s).recordSuccess)
      (hreports : t.reports = r :: s.reports)

/-- Asking twice is asking once. -/
theorem isOpen_isOpen_fst (now : ℕ) (cb : UpstreamCB) : ((cb.isOpen now).1.isOpen now).1 = (cb.isOpen now).1 := by
  by_cases hopen : cb.state = stateOpen
  · rw [UpstreamCB.isOpen_of_open now hopen]
    split
    · rename_i hcool
      rw [UpstreamCB.isOpen_of_open now hopen, if_pos hcool]
    · rfl
  · have hpass := UpstreamCB.isOpen_of_not_open now hopen
    rw [hpass, hpass]

theorem asked_trans {now : ℕ} {a b c : UpstreamCB} (hab : b = a ∨ b = (a.isOpen now).1)
    (hbc : c = b ∨ c = (b.isOpen now).1) : c = a ∨ c = (a.isOpen now).1 := by
  rcases hab with rfl | rfl
  · exact hbc
  · rcases hbc with rfl | rfl
    · exact Or.inr rfl
    · exact Or.inr (isOpen_isOpen_fst now a)

/-- Choosing an upstream asks slots, each as often as it likes. -/
theorem selectUpstream_asks (ctx : Selector.Context) (svc : ServiceConfig) (region : String)
    (userId : Option String) (canaryHint : String) (u : Selector.Usability) (i : ℕ) :
    (Selector.selectUpstream ctx svc region userId canaryHint u).1.cb i = u.cb i ∨
      (Selector.selectUpstream ctx svc region userId canaryHint u).1.cb i = ((u.cb i).isOpen ctx.now).1 := by
  refine Selector.selectUpstream_preserves
    (R := fun u u' => u'.cb i = u.cb i ∨ u'.cb i = ((u.cb i).isOpen ctx.now).1) (fun _ => Or.inl rfl)
    (fun _ _ _ => asked_trans) (fun pool _ up _ u => ?_) region userId canaryHint u
  rw [Selector.usable_cb]
  by_cases hi : i = slotOf ctx.fxHash up.address
  · subst hi
    exact Or.inr (Function.update_self ..)
  · exact Or.inl (CircuitBreaker.isUpstreamOpen_of_slot_ne ctx.fxHash ctx.now u.cb hi)

/-- The gates in front of the selector. -/
def aheadOfSelector (p : Platform) (a : Args) (out : OutBuffers) (identity : Option Auth.UserIdentity)
    (resolved : Router.ResolvedRoute) (svc : ServiceConfig) : List (Gate World Int) :=
  Gateway.slotGate p :: (Gateway.checkGates p a out ++
    [Gateway.shedGate identity, Gateway.bodyGate p a resolved, Gateway.loginGate identity svc,
      Gateway.limitGate p identity svc, Gateway.quotaGate p a identity svc])

theorem forall_aheadOfSelector {p : Platform} {a : Args} {out : OutBuffers}
    {identity : Option Auth.UserIdentity} {resolved : Router.ResolvedRoute} {svc : ServiceConfig}
    {P : Gate World Int → Prop} (hslot : P (Gateway.slotGate p))
    (hchecks : ∀ g ∈ Gateway.checkGates p a out, P g) (hshed : P (Gateway.shedGate identity))
    (hbody : P (Gateway.bodyGate p a resolved)) (hlogin : P (Gateway.loginGate identity svc))
    (hlimit : P (Gateway.limitGate p identity svc)) (hquota : P (Gateway.quotaGate p a identity svc)) :
    ∀ g ∈ aheadOfSelector p a out identity resolved svc, P g := by
  unfold aheadOfSelector
  simp only [List.forall_mem_cons, List.forall_mem_append, List.not_mem_nil, false_implies, implies_true,
    and_true]
  exact ⟨hslot, hchecks, hshed, hbody, hlogin, hlimit, hquota⟩

/-- Of the gates of a service the last one alone touches the breakers. -/
theorem breakers_of_service {p : Platform} {w : World} {a : Args} {out : OutBuffers}
    {resolved : Router.ResolvedRoute} {svc : ServiceConfig}
    (hservice : Gateway.requestService p w a = some (resolved, svc)) :
    (processRequest p w a out).world.shm.cb =
      if Gate.firstRefusal (aheadOfSelector p a out (Gateway.requestIdentity p w a) resolved svc) w = none then
        (Gateway.askSelector p a (Gateway.requestIdentity p w a) resolved svc w).1.cb
      else w.shm.cb := by
  refine @Gateway.view_call_at p w a out _ (fun w => w.shm.cb) _ []
    (Gateway.selectGate p a (Gateway.requestIdentity p w a) resolved svc) (fun _ _ => rfl) ?_ ?_ ?_ ?_
  · unfold Gateway.callGates Gateway.laterGates
    rw [hservice]
    rfl
  · apply forall_aheadOfSelector
    case hchecks => apply Gateway.forall_checkGates <;> exact fun _ => rfl
    all_goals exact fun _ => rfl
  · exact fun _ h => absurd h List.not_mem_nil
  · apply forall_aheadOfSelector
    case hchecks => apply Gateway.forall_checkGates <;> exact fun _ => rfl
    all_goals exact fun _ => rfl

/-- A call only ever asks. -/
theorem processRequest_asks (p : Platform) (w : World) (a : Args) (out : OutBuffers) (i : ℕ) :
    (processRequest p w a out).world.shm.cb i = w.shm.cb i ∨
      (processRequest p w a out).world.shm.cb i = ((w.shm.cb i).isOpen w.nowSecs).1 := by
  cases hservice : Gateway.requestService p w a with
  | none =>
      have hsame := @Gateway.view_call_of_unserved p w a out _ (fun w => w.shm.cb) (fun _ _ => rfl)
        (by apply Gateway.forall_checkGates <;> exact fun _ => rfl) hservice
      exact Or.inl (congrFun hsame i)
  | some found =>
      rcases found with ⟨resolved, svc⟩
      rw [breakers_of_service hservice]
      split
      · exact selectUpstream_asks (w.selectContext p) svc resolved.region _ a.request.canaryHint w.usability i
      · exact Or.inl rfl

theorem access_asks (p : Platform) (req : ClientRequest) (headers : Headers) (w : World) (bufs : ScratchBuffers)
    (i : ℕ) :
    (Lua.access p req headers w bufs).world.shm.cb i = w.shm.cb i ∨
      (Lua.access p req headers w bufs).world.shm.cb i = ((w.shm.cb i).isOpen w.nowSecs).1 := by
  rcases Lua.access_cases p req headers w bufs with
    ⟨-, -, hworld, -⟩ | ⟨-, -, -, hworld, -⟩ | ⟨-, -, hworld, -⟩
  · exact Or.inl (by rw [hworld])
  · rw [hworld]
    exact processRequest_asks p w (Lua.args req) bufs.out i
  · rw [hworld]
    exact processRequest_asks p w (Lua.args req) bufs.out i

/-- What a report makes of a slot it is about. -/
def reported (now : ℕ) (status : Int) (cb : UpstreamCB) : UpstreamCB :=
  if 500 ≤ status then cb.recordFailure now else cb.recordSuccess

/-- A report is about the slot of the upstream it names, and about the node's. -/
theorem reportTelemetry_cb (p : Platform) (status : Int) (latencyUs : ℕ) (upstream : Option Bytes) (w : World) :
    (Gateway.reportTelemetry p status latencyUs upstream w).shm.cb =
      onSlot p.fxHash (reported w.nowSecs status) globalName
        (if strArg upstream = "" then w.shm.cb
        else onSlot p.fxHash (reported w.nowSecs status) (strArg upstream) w.shm.cb) := by
  have hfailure : 500 ≤ status → reported w.nowSecs status = UpstreamCB.recordFailure w.nowSecs :=
    fun h => funext fun _ => if_pos h
  have hsuccess : ¬ 500 ≤ status → reported w.nowSecs status = UpstreamCB.recordSuccess :=
    fun h => funext fun _ => if_neg h
  unfold Gateway.reportTelemetry
  dsimp only
  by_cases hname : strArg upstream = ""
  · rw [if_neg (not_not.2 hname), if_pos hname]
    by_cases hstatus : 500 ≤ status
    · rw [if_pos hstatus, hfailure hstatus]
      rfl
    · rw [if_neg hstatus, hsuccess hstatus]
      rfl
  · rw [if_pos hname, if_neg hname]
    by_cases hstatus : 500 ≤ status
    · rw [if_pos hstatus, hfailure hstatus]
      rfl
    · rw [if_neg hstatus, hsuccess hstatus]
      rfl

/-- A report, seen from a slot that is not the node's. -/
theorem report_slot {p : Platform} {i : ℕ} (hi : i ≠ slotOf p.fxHash globalName) (r : Report) (latencyUs : ℕ)
    (w : World) :
    (Lua.log p r.request.vars r.request.ctx r.status latencyUs w).shm.cb i =
      if concerns p i r then reported w.nowSecs r.status (w.shm.cb i) else w.shm.cb i := by
  rw [LoadShedding.log_cb, reportTelemetry_cb, onSlot_of_ne p.fxHash _ _ hi]
  have hname : strArg (some r.request.vars.targetUpstream) = r.name := rfl
  rw [hname]
  unfold concerns
  by_cases hempty : r.name = ""
  · simp [hempty]
  · rw [if_neg hempty]
    by_cases hslot : i = slotOf p.fxHash r.name
    · subst hslot
      rw [onSlot_self]
      simp [hempty]
    · rw [onSlot_of_ne p.fxHash _ _ hslot]
      simp [Ne.symm hslot]

theorem moves_report {p : Platform} {i : ℕ} {s t : Node} {r : Report} {now : ℕ}
    (hslot : breaker i t = if concerns p i r then reported now r.status (breaker i s) else breaker i s)
    (hreports : t.reports = r :: s.reports) : Moves p i s t := by
  cases hconcerns : concerns p i r with
  | false =>
      rw [hconcerns, if_neg Bool.false_ne_true] at hslot
      exact .unconcerned r hconcerns hslot hreports
  | true =>
      rw [hconcerns, if_pos rfl] at hslot
      unfold reported at hslot
      by_cases hstatus : 500 ≤ r.status
      · rw [if_pos hstatus] at hslot
        exact .blamed now r (by simp [blames, hconcerns, hstatus]) hslot hreports
      · rw [if_neg hstatus] at hslot
        exact .cleared r (by simp [clears, hconcerns, hstatus]) hslot hreports

theorem moves_step {p : Platform} {i : ℕ} (hi : i ≠ slotOf p.fxHash globalName) {s t : Node} {e : Event}
    (h : step p s e = some t) : Moves p i s t := by
  cases e with
  | access v req headers =>
      cases h
      exact .asked _ (access_asks p req headers (s.world v) (s.processes v).bufs i) rfl
  | log v index status latencyUs =>
      unfold step at h
      dsimp only at h
      split at h
      · cases h
      · rename_i request _
        cases h
        exact moves_report (report_slot hi { request := request, status := status } latencyUs (s.world v)) rfl
  | spawn v worker config =>
      cases h
      exact .asked 0 (Or.inl rfl) rfl
  | elsewhere clockMs shm quotaCounters workers configs =>
      cases h
      exact .asked 0 (Or.inl rfl) rfl

/-! ## The evidence -/

/-- A slot has one of its three states, and while it is CLOSED its counter is the failures in a row. -/
structure Counted (p : Platform) (i : ℕ) (s : Node) : Prop where
  known : (breaker i s).state = stateClosed ∨ (breaker i s).state = stateOpen ∨
    (breaker i s).state = stateHalfOpen
  closed : (breaker i s).state = stateClosed →
    (breaker i s).failures = failuresInARow p i s ∧ failuresInARow p i s < failureThreshold

section Step

variable {p : Platform} {i : ℕ} {s t : Node}

theorem counted_of_not_closed
    (h : (breaker i t).state = stateOpen ∨ (breaker i t).state = stateHalfOpen) : Counted p i t := by
  refine ⟨Or.inr h, fun hclosed => ?_⟩
  rcases h with h | h
  · exact absurd (hclosed.symm.trans h) (by decide)
  · exact absurd (hclosed.symm.trans h) (by decide)

theorem counted_same (h : Counted p i s) (hslot : breaker i t = breaker i s)
    (hrow : failuresInARow p i t = failuresInARow p i s) : Counted p i t := by
  refine ⟨?_, fun hclosed => ?_⟩
  · rw [hslot]
    exact h.known
  · rw [hslot] at hclosed ⊢
    rw [hrow]
    exact h.closed hclosed

theorem counted_asked (h : Counted p i s) {now : ℕ}
    (hslot : breaker i t = breaker i s ∨ breaker i t = ((breaker i s).isOpen now).1)
    (hreports : t.reports = s.reports) : Counted p i t := by
  have hrow : failuresInARow p i t = failuresInARow p i s := by
    unfold failuresInARow
    rw [hreports]
  rcases hslot with hslot | hslot
  · exact counted_same h hslot hrow
  · -- asking can at most turn OPEN into HALF-OPEN, and touches no counter
    by_cases hopen : (breaker i s).state = stateOpen
    · rw [UpstreamCB.isOpen_of_open now hopen] at hslot
      split at hslot
      · exact counted_same h hslot hrow
      · exact counted_of_not_closed (Or.inr (congrArg UpstreamCB.state hslot))
    · rw [UpstreamCB.isOpen_of_not_open now hopen] at hslot
      exact counted_same h hslot hrow

theorem failuresInARow_of_unconcerned {r : Report} (hr : concerns p i r = false)
    (hreports : t.reports = r :: s.reports) : failuresInARow p i t = failuresInARow p i s := by
  unfold failuresInARow
  rw [hreports]
  exact streak_of_skip (by simp [clears, hr]) (by simp [blames, hr])

theorem failuresInARow_of_blamed {r : Report} (hr : blames p i r = true)
    (hreports : t.reports = r :: s.reports) : failuresInARow p i t = failuresInARow p i s + 1 := by
  have hkept : clears p i r = false := by
    unfold blames at hr
    unfold clears
    rw [(Bool.and_eq_true_iff.1 hr).2]
    exact Bool.and_false _
  unfold failuresInARow
  rw [hreports]
  exact streak_of_count hkept hr

theorem failuresInARow_of_cleared {r : Report} (hr : clears p i r = true)
    (hreports : t.reports = r :: s.reports) : failuresInARow p i t = 0 := by
  unfold failuresInARow
  rw [hreports]
  exact streak_of_reset hr

theorem counted_blamed (h : Counted p i s) {now : ℕ} {r : Report} (hr : blames p i r = true)
    (hslot : breaker i t = (breaker i s).recordFailure now) (hreports : t.reports = r :: s.reports) :
    Counted p i t := by
  -- CLOSED counts the failure or opens on it; the other two states are OPEN afterwards.
  rcases h.known with hstate | hstate | hstate
  · rcases h.closed hstate with ⟨hcount, -⟩
    rw [UpstreamCB.recordFailure_of_closed now hstate] at hslot
    split at hslot
    · exact counted_of_not_closed (Or.inl (congrArg UpstreamCB.state hslot))
    · rename_i hbelow
      have hfailures : (breaker i t).failures = (breaker i s).failures + 1 := congrArg UpstreamCB.failures hslot
      refine ⟨Or.inl ((congrArg UpstreamCB.state hslot).trans hstate), fun _ => ?_⟩
      rw [hfailures, failuresInARow_of_blamed hr hreports, ← hcount]
      exact ⟨rfl, Nat.lt_of_not_le hbelow⟩
  · rw [UpstreamCB.recordFailure_of_open now hstate] at hslot
    exact counted_of_not_closed (Or.inl ((congrArg UpstreamCB.state hslot).trans hstate))
  · rw [UpstreamCB.recordFailure_of_halfOpen now hstate] at hslot
    exact counted_of_not_closed (Or.inl (congrArg UpstreamCB.state hslot))

theorem counted_cleared (h : Counted p i s) {r : Report} (hr : clears p i r = true)
    (hslot : breaker i t = (breaker i s).recordSuccess) (hreports : t.reports = r :: s.reports) :
    Counted p i t := by
  have hzero := failuresInARow_of_cleared hr hreports
  have hclosed : (breaker i t).state = stateClosed → (breaker i t).failures = 0 → Counted p i t := by
    intro hstate hfailures
    refine ⟨Or.inl hstate, fun _ => ?_⟩
    rw [hfailures, hzero]
    exact ⟨rfl, by decide⟩
  -- An OPEN slot takes no notice of a success.
  rcases h.known with hstate | hstate | hstate
  · rw [UpstreamCB.recordSuccess_of_closed hstate] at hslot
    exact hclosed ((congrArg UpstreamCB.state hslot).trans hstate) (congrArg UpstreamCB.failures hslot)
  · rw [UpstreamCB.recordSuccess_of_open hstate] at hslot
    exact counted_of_not_closed (Or.inl ((congrArg UpstreamCB.state hslot).trans hstate))
  · rw [UpstreamCB.recordSuccess_of_halfOpen hstate] at hslot
    exact hclosed (congrArg UpstreamCB.state hslot) (congrArg UpstreamCB.failures hslot)

theorem counted_moves (h : Counted p i s) (hm : Moves p i s t) : Counted p i t := by
  cases hm with
  | asked now hslot hreports => exact counted_asked h hslot hreports
  | unconcerned r hr hslot hreports => exact counted_same h hslot (failuresInARow_of_unconcerned hr hreports)
  | blamed now r hr hslot hreports => exact counted_blamed h hr hslot hreports
  | cleared r hr hslot hreports => exact counted_cleared h hr hslot hreports

/-- Only one move leads out of CLOSED: the last failure allowed. -/
theorem opened_by (h : Counted p i s) (hm : Moves p i s t) (hbefore : ¬ Benched i s) (hafter : Benched i t) :
    ∃ r, t.reports = r :: s.reports ∧ blames p i r = true ∧ failuresInARow p i t = failureThreshold := by
  have hstate : (breaker i s).state = stateClosed := not_not.1 hbefore
  rcases h.closed hstate with ⟨hcount, hbelow⟩
  cases hm with
  | asked now hslot hreports =>
      have hsame : breaker i t = breaker i s := by
        rw [UpstreamCB.isOpen_of_not_open now (hstate.trans_ne (by decide)), or_self] at hslot
        exact hslot
      exact absurd ((congrArg UpstreamCB.state hsame).trans hstate) hafter
  | unconcerned r hr hslot hreports => exact absurd ((congrArg UpstreamCB.state hslot).trans hstate) hafter
  | blamed now r hr hslot hreports =>
      refine ⟨r, hreports, hr, ?_⟩
      rw [UpstreamCB.recordFailure_of_closed now hstate] at hslot
      split at hslot
      · rename_i hlast
        -- one below the threshold before, the threshold now
        rw [failuresInARow_of_blamed hr hreports]
        rw [hcount] at hlast
        exact Nat.le_antisymm hbelow hlast
      · exact absurd ((congrArg UpstreamCB.state hslot).trans hstate) hafter
  | cleared r hr hslot hreports =>
      rw [UpstreamCB.recordSuccess_of_closed hstate] at hslot
      exact absurd ((congrArg UpstreamCB.state hslot).trans hstate) hafter

end Step

/-! ## Whom a report names -/

theorem honest_access {p : Platform} {req : ClientRequest} {headers : Headers} {w : World} {bufs : ScratchBuffers}
    (hsized : Sized bufs) :
    let r := Lua.access p req headers w bufs
    Honest { vars := r.vars, ctx := r.logCtx, config := w.worker.config, admitted := r.handoff.isExec } := by
  dsimp only
  refine ⟨fun hadmitted => ?_, fun hrefused => ?_⟩
  · rcases chosen_of_admitted hsized hadmitted with ⟨entry, svc, up, hchosen⟩
    exact ⟨up, ⟨⟨_, svc, _, hchosen.service, hchosen.member⟩, hchosen.upstream⟩⟩
  · dsimp only at hrefused ⊢
    cases hhandoff : (Lua.access p req headers w bufs).handoff with
    | exec location =>
        rw [hhandoff] at hrefused
        cases hrefused
    | exit reply => exact LoadShedding.access_exit_upstream hhandoff

/-- Every request under way names its own upstream, and so did every one that was reported. -/
structure AllHonest (s : Node) : Prop where
  pending : ∀ v, ∀ request ∈ (s.processes v).pending, Honest request
  reports : ∀ r ∈ s.reports, Honest r.request

theorem pending_update {s : Node} (h : AllHonest s) (v : ℕ) {process : Process}
    (hv : ∀ request ∈ process.pending, Honest request) :
    ∀ u, ∀ request ∈ (Function.update s.processes v process u).pending, Honest request :=
  (Function.forall_update_iff s.processes fun _ process => ∀ request ∈ process.pending, Honest request).2
    ⟨hv, fun u _ => h.pending u⟩

theorem allHonest_step {p : Platform} {s t : Node} {e : Event} (hsized : AllSized s) (h : AllHonest s)
    (hs : step p s e = some t) : AllHonest t := by
  cases e with
  | access v req headers =>
      cases hs
      refine ⟨pending_update h v fun request hmem => ?_, h.reports⟩
      rcases List.mem_append.1 hmem with hold | hnew
      · exact h.pending v request hold
      · rw [List.mem_singleton.1 hnew]
        exact @honest_access p req headers (s.world v) (s.processes v).bufs (hsized v)
  | log v index status latencyUs =>
      unfold step at hs
      dsimp only at hs
      split at hs
      · cases hs
      · rename_i request hrequest
        cases hs
        refine ⟨pending_update h v fun other hmem => h.pending v other (List.mem_of_mem_eraseIdx hmem), ?_⟩
        intro r hr
        rcases List.mem_cons.1 hr with rfl | hold
        · exact h.pending v request (List.mem_of_getElem? hrequest)
        · exact h.reports r hold
  | spawn v worker config =>
      cases hs
      exact ⟨pending_update h v fun _ hmem => absurd hmem List.not_mem_nil, h.reports⟩
  | elsewhere clockMs shm quotaCounters workers configs =>
      cases hs
      exact ⟨h.pending, h.reports⟩

/-- The report is of a request that was sent to this member, under as much of its address as fits the buffer. -/
structure Names (r : Report) (up : Upstream) : Prop where
  sent : SentTo r.request up
  name : r.name = reportedName up.address
  whole : Lua.UpstreamHeaders.Fits upstreamLen up.address → '\x00' ∉ up.address.toList → r.name = up.address

/-- A report that names an upstream is of a request that was sent there. -/
theorem names_of_honest {r : Report} (h : Honest r.request) (hname : r.name ≠ "") : ∃ up, Names r up := by
  cases hadmitted : r.request.admitted with
  | false =>
      have hempty : r.name = "" := by
        unfold Report.name
        rw [h.refused hadmitted]
        decide
      exact absurd hempty hname
  | true =>
      rcases h.sent hadmitted with ⟨up, hsent⟩
      have hreported : r.name = reportedName up.address := by
        unfold Report.name reportedName
        rw [hsent.carried]
      exact ⟨up, hsent, hreported, fun hfits hnul => hreported.trans (reportedName_of_fits hfits hnul)⟩

/-! ## Every run -/

/-- The breaker of the slot was opened by this report, the fiftieth failure in a row, and has not been CLOSED
since. -/
def BenchedBy (p : Platform) (i : ℕ) (s : Node) (es : List Event) (r : Report) : Prop :=
  ∃ before e after m m', es = before ++ e :: after ∧ run (step p) s before = some m ∧ step p m e = some m' ∧
    m'.reports = r :: m.reports ∧ blames p i r = true ∧ failuresInARow p i m' = failureThreshold ∧
    Throughout (step p) (Benched i) m' after

section Start

variable {p : Platform} {i : ℕ} {clockMs : ℕ} {shm : Gateway.Shm} {quotaCounters : String → Int}
  {workers : ℕ → Gateway.Worker} {configs : ℕ → GatewayConfig}

theorem counted_start : Counted p i (start clockMs shm quotaCounters workers configs) :=
  ⟨Or.inl rfl, fun _ => ⟨rfl, Nat.zero_lt_succ _⟩⟩

theorem allHonest_start : AllHonest (start clockMs shm quotaCounters workers configs) :=
  ⟨fun _ _ hmem => absurd hmem List.not_mem_nil, fun _ hmem => absurd hmem List.not_mem_nil⟩

end Start

/-- In every run of a node, with any number of workers and their requests interleaved at will: a report that
names an upstream is of a request that was sent to that upstream, a member of a pool of the config it was
routed under.  The breaker of a slot that is not the node's counts, while CLOSED, exactly the failures in a
row reported so; and it is not CLOSED only because the fiftieth of them has opened it. -/
theorem benched_by_fifty_failures {p : Platform} {clockMs : ℕ} {shm : Gateway.Shm}
    {quotaCounters : String → Int} {workers : ℕ → Gateway.Worker} {configs : ℕ → GatewayConfig}
    {es : List Event} {s : Node}
    (hrun : run (step p) (start clockMs shm quotaCounters workers configs) es = some s) {i : ℕ}
    (hi : i ≠ slotOf p.fxHash globalName) :
    (∀ r ∈ s.reports, r.name ≠ "" → ∃ up, Names r up) ∧
    (¬ Benched i s →
      (breaker i s).failures = failuresInARow p i s ∧ failuresInARow p i s < failureThreshold) ∧
    (Benched i s → ∃ r, BenchedBy p i (start clockMs shm quotaCounters workers configs) es r) := by
  have hcounted : ∀ {fs m}, run (step p) (start clockMs shm quotaCounters workers configs) fs = some m →
      Counted p i m :=
    invariant_run (fun _ _ _ hs hstep => counted_moves hs (moves_step hi hstep)) counted_start
  have hhonest : AllSized s ∧ AllHonest s :=
    invariant_run (I := fun s => AllSized s ∧ AllHonest s)
      (fun s e t hs hstep => ⟨allSized_step p s e t hs.1 hstep, allHonest_step hs.1 hs.2 hstep⟩)
      ⟨fun _ => sized_fresh, allHonest_start⟩ hrun
  refine ⟨fun r hr => names_of_honest (hhonest.2.reports r hr), fun hclosed => ?_, fun hbenched => ?_⟩
  · exact (hcounted hrun).closed (not_not.1 hclosed)
  · have hfresh : ¬ Benched i (start clockMs shm quotaCounters workers configs) := not_not.2 rfl
    rcases exists_last_step_of_becomes hrun hfresh hbenched with
      ⟨before, e, after, m, m', hsplit, hbefore, hstep, hm, hm', -, hsince⟩
    rcases opened_by (hcounted hbefore) (moves_step hi hstep) hm hm' with ⟨r, hreports, hblames, hrow⟩
    exact ⟨r, before, e, after, m, m', hsplit, hbefore, hstep, hreports, hblames, hrow, hsince⟩

/-! ## A benched upstream -/

/-- The request for `/a` as a fresh worker hands it over. -/
def handedOver : Pending :=
  let r := Lua.access Gateway.samplePlatform (Lua.sampleRequest none) (fun _ => none) (tieredNode.world 0)
    ScratchBuffers.fresh
  { vars := r.vars, ctx := r.logCtx, config := tieredConfig, admitted := r.handoff.isExec }

/-- It is ended by a bad gateway. -/
def badGateway : Report := { request := handedOver, status := 502 }

/-- The first `k` workers hand over one request each; the counts it leaves are reset by the environment. -/
def handOvers : ℕ → List Event
  | 0 => []
  | k + 1 => handOvers k ++
    [.access k (Lua.sampleRequest none) fun _ => none,
      .elsewhere 1700000000000 Gateway.sampleWorld.shm (fun _ => 0)
        (fun _ => { Gateway.sampleWorld.worker with config := tieredConfig }) fun _ => tieredConfig]

def badGateways : ℕ → List Event
  | 0 => []
  | k + 1 => badGateways k ++ [.log k 0 502 1000]

structure HandedOver (k : ℕ) (s : Node) : Prop where
  world : ∀ v, s.world v = tieredNode.world v
  reports : s.reports = []
  pending : ∀ v < k, (s.processes v).pending = [handedOver]
  fresh : ∀ v, k ≤ v → s.processes v = tieredNode.processes v

theorem handedOver_zero : HandedOver 0 tieredNode where
  world := fun _ => rfl
  reports := rfl
  pending := fun v hv => absurd hv (Nat.not_lt_zero v)
  fresh := fun _ _ => rfl

/-- No slot is OPEN, so asking for an upstream leaves the breaker file as it is. -/
theorem breakers_of_access (bufs : ScratchBuffers) :
    (Lua.access Gateway.samplePlatform (Lua.sampleRequest none) (fun _ => none) (tieredNode.world 0)
      bufs).world.shm.cb = fun _ => {} := by
  funext i
  rcases access_asks Gateway.samplePlatform (Lua.sampleRequest none) (fun _ => none) (tieredNode.world 0) bufs i
    with hsame | hasked
  · exact hsame
  · have hclosed : ((tieredNode.world 0).shm.cb i).state ≠ stateOpen := (by decide : stateClosed ≠ stateOpen)
    exact hasked.trans (congrArg Prod.fst (UpstreamCB.isOpen_of_not_open _ hclosed))

theorem handedOver_succ {k : ℕ} {s : Node} (h : HandedOver k s) :
    ∃ t, run (step Gateway.samplePlatform) s
        [.access k (Lua.sampleRequest none) fun _ => none,
          .elsewhere 1700000000000 Gateway.sampleWorld.shm (fun _ => 0)
            (fun _ => { Gateway.sampleWorld.worker with config := tieredConfig }) fun _ => tieredConfig] =
          some t ∧ HandedOver (k + 1) t := by
  refine ⟨_, rfl, ?_⟩
  have hworld : s.world k = tieredNode.world 0 := h.world k
  have hprocess : s.processes k = tieredNode.processes 0 := h.fresh k le_rfl
  have hcb := breakers_of_access (tieredNode.processes 0).bufs
  rw [← hworld, ← hprocess] at hcb
  refine
    { world := fun v => ?_
      reports := h.reports
      pending := fun v hv => ?_
      fresh := fun v hv => ?_ }
  · change ({ tieredNode.world 0 with
        shm := { Gateway.sampleWorld.shm with
          cb := (Lua.access Gateway.samplePlatform (Lua.sampleRequest none) (fun _ => none) (s.world k)
            (s.processes k).bufs).world.shm.cb } } : World) = _
    rw [hcb]
    rfl
  · dsimp only
    by_cases hvk : v = k
    · rw [hvk, Function.update_self, hworld, hprocess]
      rfl
    · rw [Function.update_of_ne hvk]
      exact h.pending v (Nat.lt_of_le_of_ne (Nat.le_of_lt_succ hv) hvk)
  · dsimp only
    rw [Function.update_of_ne (Nat.ne_of_gt hv), h.fresh v (Nat.le_of_succ_le hv)]
    rfl

theorem handedOver_run (k : ℕ) :
    ∃ s, run (step Gateway.samplePlatform) tieredNode (handOvers k) = some s ∧ HandedOver k s := by
  induction k with
  | zero => exact ⟨tieredNode, rfl, handedOver_zero⟩
  | succ k ih =>
      rcases ih with ⟨s, hrun, h⟩
      rcases handedOver_succ h with ⟨t, hnext, ht⟩
      exact ⟨t, run_append_eq_some.2 ⟨s, hrun, hnext⟩, ht⟩

/-- The first `k` of the requests have been reported. -/
theorem reported_run {n : ℕ} {s : Node} (h : HandedOver n s) {k : ℕ} (hk : k ≤ n) :
    ∃ t, run (step Gateway.samplePlatform) s (badGateways k) = some t ∧
      t.reports = List.replicate k badGateway ∧ ∀ v, k ≤ v → v < n → (t.processes v).pending = [handedOver] := by
  induction k with
  | zero => exact ⟨s, rfl, h.reports, fun v _ hv => h.pending v hv⟩
  | succ k ih =>
      rcases ih (Nat.le_of_succ_le hk) with ⟨t, hrun, hreports, hpending⟩
      have hnext : ∃ t', step Gateway.samplePlatform t (.log k 0 502 1000) = some t' ∧
          t'.reports = badGateway :: t.reports ∧ ∀ v, v ≠ k → t'.processes v = t.processes v := by
        unfold step
        dsimp only
        rw [hpending k le_rfl hk]
        exact ⟨_, rfl, rfl, fun v hv => Function.update_of_ne hv _ _⟩
      rcases hnext with ⟨t', hstep, hreport, hothers⟩
      refine ⟨t', run_append_eq_some.2 ⟨t, hrun, run_cons_eq_some.2 ⟨t', hstep, rfl⟩⟩, ?_, ?_⟩
      · rw [hreport, hreports]
        rfl
      · intro v hkv hv
        rw [hothers v (Nat.ne_of_gt hkv)]
        exact hpending v (Nat.le_of_succ_le hkv) hv

/-- Fifty requests end with a bad gateway: their upstream is benched, by the fiftieth report. -/
theorem fifty_bad_gateways : ∃ s,
    run (step Gateway.samplePlatform) tieredNode (handOvers 50 ++ badGateways 50) = some s ∧
    s.reports.map Report.name = List.replicate 50 "b:80" ∧
    (∀ r ∈ s.reports, r.name ≠ "" → ∃ up, Names r up) ∧
    Benched (slotOf Gateway.sampleHash "b:80") s ∧
    ∃ r, BenchedBy Gateway.samplePlatform (slotOf Gateway.sampleHash "b:80") tieredNode
      (handOvers 50 ++ badGateways 50) r := by
  rcases handedOver_run 50 with ⟨s, hs, hhanded⟩
  rcases reported_run hhanded le_rfl with ⟨t, ht, hreports, -⟩
  have hrun : run (step Gateway.samplePlatform) tieredNode (handOvers 50 ++ badGateways 50) = some t :=
    run_append_eq_some.2 ⟨s, hs, ht⟩
  have hname : badGateway.name = "b:80" ∧
      clears Gateway.samplePlatform (slotOf Gateway.sampleHash "b:80") badGateway = false ∧
      blames Gateway.samplePlatform (slotOf Gateway.sampleHash "b:80") badGateway = true := by
    decide +kernel
  have hlaw := @benched_by_fifty_failures Gateway.samplePlatform _ _ _ _ _ _ t hrun
    (slotOf Gateway.sampleHash "b:80") (by decide)
  have hfifty : failureThreshold ≤ failuresInARow Gateway.samplePlatform (slotOf Gateway.sampleHash "b:80") t := by
    refine le_streak (by rw [hreports]; decide) fun r hr => ?_
    rw [hreports] at hr
    rw [List.eq_of_mem_replicate (List.mem_of_mem_take hr)]
    exact hname.2
  have hbenched : Benched (slotOf Gateway.sampleHash "b:80") t := by
    by_contra hclosed
    exact absurd (hlaw.2.1 hclosed).2 (Nat.not_lt.2 hfifty)
  refine ⟨t, hrun, ?_, hlaw.1, hbenched, hlaw.2.2 hbenched⟩
  rw [hreports, List.map_replicate, hname.1]

end UpstreamEvidence
end GatewayEdge
