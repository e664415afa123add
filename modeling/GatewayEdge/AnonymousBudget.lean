import GatewayEdge.Admission
import GatewayEdge.Foundation.Run

/-!
# AnonymousBudget — the per-IP limit on requests without an identity

The WAF counts a request against its client address only when the `Authorization` header is empty,
the per-user limiter only when there is an identity.  A call is one step of its worker; between two
calls anything may happen to the rest of the world, the calls of other workers on the same WAF file
included, as long as only calls touch the per-IP buckets.
-/

namespace GatewayEdge
namespace AnonymousBudget

open Foundation
open Foundation.WindowCounter (WithinBudget)
open Gateway (Platform World Args OutBuffers processRequest processRequest_settled requestIdentity
  requestInspection strArg)

/-! ## Runs and what is counted of them -/

/-- The world, and the client address and second of every request admitted without identity. -/
structure State where
  world : World
  admitted : List (String × Nat)

inductive Event
  | call (a : Args) (out : OutBuffers)
  | environment (w : World)

def step (p : Platform) (s : State) : Event → Option State
  | .call a out =>
    let r := processRequest p s.world a out
    some
      { world := r.world
        admitted :=
          if r.status = 200 ∧ requestIdentity p s.world a = none then
            (a.request.clientIp, s.world.nowSecs) :: s.admitted
          else s.admitted }
  | .environment w =>
    -- The buckets stay, the clock does not go back.
    if s.world.clockMs ≤ w.clockMs then
      some { s with
        world := { w with
          shm := { w.shm with waf := { w.shm.waf with ip := s.world.shm.waf.ip } } } }
    else none

def start (w : World) : State := { world := w, admitted := [] }

/-- The requests from `ip` admitted without identity in `second`. -/
def admissions (ip : String) (second : Nat) (s : State) : Nat := s.admitted.count (ip, second)

/-- `budget` is at least the per-IP budget of every call made in `second`. -/
def BudgetAtMost (p : Platform) (second budget : Nat) (s : State) : Event → Prop
  | .call _ _ => s.world.nowSecs = second → (s.world.wafContext p).budget ≤ budget
  | .environment _ => True

/-- A call from `ip` that gets no identity carries an empty `Authorization` header. -/
def HeaderEmpty (p : Platform) (ip : String) (s : State) : Event → Prop
  | .call a _ =>
    a.request.clientIp = ip → requestIdentity p s.world a = none → a.request.authHeader = ""
  | .environment _ => True

/-- What the WAF file vouches for. -/
def Inv (p : Platform) (ip : String) (second budget : Nat) (s : State) : Prop :=
  WithinBudget second budget s.world.nowSecs (admissions ip second s)
    (s.world.shm.waf.ip (p.fxHash ip % Waf.ipRateLimitSlots))

/-! ## One call -/

/-- An admitted call with an empty header has bumped the bucket of its address. -/
theorem bump_of_admitted {p : Platform} {w : World} {a : Args} {out : OutBuffers}
    (hip : a.request.clientIp ≠ "") (hheader : a.request.authHeader = "")
    (hstatus : (processRequest p w a out).status = 200) :
    let slot := p.fxHash a.request.clientIp % Waf.ipRateLimitSlots
    WindowCounter.bump (w.wafContext p).budget (w.nowSecs % 2 ^ 32) (w.shm.waf.ip slot) =
      some ((processRequest p w a out).world.shm.waf.ip slot) := by
  rcases (processRequest_settled p w a out).inspected hstatus with ⟨hallow, hwaf⟩
  have hinspect : Waf.inspect (w.wafContext p) a.request.path a.request.authHeader
      a.request.userAgent a.request.body a.request.clientIp w.shm.waf =
        ((requestInspection p w a).1, .allow) := Prod.ext rfl hallow
  rcases Waf.inspect_allow _ hinspect with ⟨_, _, hlimiter⟩ | ⟨hcounted, _⟩
  · rcases Waf.ipRateExceeded_false _ hlimiter with ⟨word, hbump, hupdate⟩
    dsimp only
    rw [hwaf, hupdate]
    refine hbump.trans ?_
    exact (congrArg some (Function.update_self (f := w.shm.waf.ip) ..)).symm
  · exact absurd ⟨hheader, hip⟩ hcounted

/-- Any call leaves the bucket alone or bumps it once. -/
theorem bucket_of_call (p : Platform) (w : World) (a : Args) (out : OutBuffers) (slot : Nat) :
    let after := (processRequest p w a out).world.shm.waf.ip slot
    after = w.shm.waf.ip slot ∨
      WindowCounter.bump (w.wafContext p).budget (w.nowSecs % 2 ^ 32) (w.shm.waf.ip slot) =
        some after := by
  dsimp only
  rcases (processRequest_settled p w a out).waf with hwaf | hwaf
  · exact Or.inl (by rw [hwaf])
  · rw [hwaf]
    exact Waf.inspect_ip (w.wafContext p) w.shm.waf slot

theorem inv_step {p : Platform} {ip : String} {second budget : Nat} (hip : ip ≠ "") (s : State)
    (e : Event) (s' : State) (h : Inv p ip second budget s)
    (hcond : BudgetAtMost p second budget s e ∧ HeaderEmpty p ip s e)
    (hs : step p s e = some s') : Inv p ip second budget s' := by
  cases e with
  | environment w =>
      unfold step at hs
      dsimp only at hs
      split at hs
      · rename_i hclock
        cases hs
        exact h.later (Nat.div_le_div_right hclock)
      · cases hs
  | call a out =>
      cases hs
      have hclock : (processRequest p s.world a out).world.nowSecs = s.world.nowSecs := by
        unfold World.nowSecs
        rw [(processRequest_settled p s.world a out).clock]
      unfold Inv admissions at h ⊢
      dsimp only
      rw [hclock]
      by_cases hown : (a.request.clientIp, s.world.nowSecs) = (ip, second) ∧
          (processRequest p s.world a out).status = 200 ∧ requestIdentity p s.world a = none
      · -- The call is one of those counted: its header is empty, so its address was charged.
        rcases hown with ⟨hpair, hadmitted⟩
        rcases Prod.mk.inj hpair with ⟨hclient, hsecond⟩
        rw [if_pos hadmitted, hpair, List.count_cons_self]
        have hbump := bump_of_admitted (hclient ▸ hip) (hcond.2 hclient hadmitted.2) hadmitted.1
        dsimp only at hbump
        rw [hclient] at hbump
        have hbudget := hcond.1 hsecond
        exact (h.bump (Waf.budget_lt _) hbump).2 hsecond
          (le_trans (Waf.budget_pos _) hbudget) hbudget
      · -- Any other call may spend from the bucket but is not counted.
        have hcount : (if (processRequest p s.world a out).status = 200 ∧
              requestIdentity p s.world a = none then
              (a.request.clientIp, s.world.nowSecs) :: s.admitted else s.admitted).count (ip, second)
            = s.admitted.count (ip, second) := by
          split
          · rename_i hadmitted
            exact List.count_cons_of_ne fun hpair => hown ⟨hpair, hadmitted⟩
          · rfl
        rw [hcount]
        rcases bucket_of_call p s.world a out (p.fxHash ip % Waf.ipRateLimitSlots) with
          hsame | hbump
        · rw [hsame]
          exact h
        · exact (h.bump (Waf.budget_lt _) hbump).1

/-! ## Every run -/

/-- In every run whose unidentified calls from `ip` carry an empty header, the requests from `ip`
that are admitted without identity in one second stay within the budgets of that second. -/
theorem anonymous_admissions_bounded (p : Platform) (w : World) (es : List Event) (t : State)
    (ip : String) (second budget : Nat) (hip : ip ≠ "")
    (hrun : run (step p) (start w) es = some t)
    (hbudget : Along (step p) (BudgetAtMost p second budget) (start w) es)
    (hheader : Along (step p) (HeaderEmpty p ip) (start w) es) :
    admissions ip second t ≤ budget := by
  have hstart : Inv p ip second budget (start w) := WithinBudget.zero second budget w.nowSecs _
  exact (invariant_run_along (inv_step hip) hstart (hbudget.and hheader) hrun).bounded

/-- `GET /a` from 1.2.3.4 with the given `Authorization` header. -/
def sampleArgs (authorization : Bytes) : Args where
  authHeader := some authorization
  path := some (strBytes "/a")
  userAgent := none
  body := none
  clientIp := some (strBytes "1.2.3.4")
  canaryHint := none
  contentType := none
  quotaIo := []

def sampleOut : OutBuffers where
  region := some (List.replicate 16 0)
  upstream := some (List.replicate 256 0)
  reqId := none
  userId := none
  homeRegion := none
  tier := none

/-- The sample platform with the per-IP budget set to one. -/
def strictPlatform : Platform :=
  { Gateway.samplePlatform with
    env := fun name => if name = "WAF_IP_RATE_LIMIT_RPS" then some "1" else none }

/-- Whatever the posture, the budget of this platform is one. -/
theorem budget_strictPlatform (second : Nat) (s : State) (es : List Event) :
    Along (step strictPlatform) (BudgetAtMost strictPlatform second 1) s es := by
  refine along_of_invariant (I := fun _ => True) (fun _ _ _ _ _ => trivial) ?_ trivial _
  intro s e _
  cases e with
  | environment w => trivial
  | call a out =>
      intro _
      have hsetting : ((strictPlatform.env "WAF_IP_RATE_LIMIT_RPS").bind
          (parseUnsigned 32)).getD 100 = 1 := by decide
      have hdiv := Nat.div_le_self 1 (Sentinel.wafBudgetDivisor s.world.worker.posture)
      unfold Waf.Context.budget Waf.ipRateLimitRps World.wafContext
      dsimp only
      rw [hsetting]
      exact max_le hdiv le_rfl

/-- Two requests without credentials in one second. -/
def twoRequests : List Event := [.call (sampleArgs []) sampleOut, .call (sampleArgs []) sampleOut]

/-- Under a budget of one, the first is admitted and the second is not. -/
theorem one_anonymous_admission :
    ∃ t, run (step strictPlatform) (start Gateway.sampleWorld) twoRequests = some t ∧
      admissions "1.2.3.4" 1700000000 t = 1 := by
  have henabled : (run (step strictPlatform) (start Gateway.sampleWorld) twoRequests).isSome = true := rfl
  rcases Option.isSome_iff_exists.1 henabled with ⟨t, hrun⟩
  have hheader : (sampleArgs []).request.authHeader = "" := by decide
  have hbound : admissions "1.2.3.4" 1700000000 t ≤ 1 :=
    anonymous_admissions_bounded _ _ _ t "1.2.3.4" 1700000000 1 (by decide) hrun
      (budget_strictPlatform _ _ _)
      ⟨fun _ _ => hheader, fun _ _ => ⟨fun _ _ => hheader, fun _ _ => trivial⟩⟩
  -- The budget is used up.
  have hspent : (run (step strictPlatform) (start Gateway.sampleWorld) twoRequests).all
      (fun t => 1 ≤ admissions "1.2.3.4" 1700000000 t) = true := by
    decide +kernel
  rw [hrun] at hspent
  exact ⟨t, hrun, le_antisymm hbound (of_decide_eq_true hspent)⟩

/-- Two requests in one second whose header is the letter `x`: under a budget of one, both are
admitted. -/
theorem junk_header_evades_budget :
    ∃ t, run (step strictPlatform) (start Gateway.sampleWorld)
        [.call (sampleArgs (strBytes "x")) sampleOut, .call (sampleArgs (strBytes "x")) sampleOut] =
          some t ∧
      Along (step strictPlatform) (BudgetAtMost strictPlatform 1700000000 1)
        (start Gateway.sampleWorld)
        [.call (sampleArgs (strBytes "x")) sampleOut, .call (sampleArgs (strBytes "x")) sampleOut] ∧
      ¬ admissions "1.2.3.4" 1700000000 t ≤ 1 := by
  have hcount : (run (step strictPlatform) (start Gateway.sampleWorld)
      [.call (sampleArgs (strBytes "x")) sampleOut, .call (sampleArgs (strBytes "x")) sampleOut]).map
        (admissions "1.2.3.4" 1700000000) = some 2 := by
    decide +kernel
  rcases Option.map_eq_some_iff.1 hcount with ⟨t, hrun, htwo⟩
  refine ⟨t, hrun, ?_, by rw [htwo]; decide⟩
  exact budget_strictPlatform _ _ _

end AnonymousBudget
end GatewayEdge
