import GatewayEdge.Config
import GatewayEdge.Foundation.F64
import GatewayEdge.Health
import GatewayEdge.LoadBalancing.CircuitBreaker

/-!
# Selector — weighted consistent hash, two choices, EWMA and canary splitting

Selecting an upstream is not pure: asking whether an address is usable may move its breaker slot
to HALF_OPEN and seeds its health slot, so both mapped files are threaded through.  The ring is
taken for granted here; whether there is room for it is a matter of `Pick`.
-/

namespace GatewayEdge
namespace Selector

open Foundation

/-! ## Latency averages -/

structure UpstreamStats where
  emaLatencyUs : F64 := .num 0
  requestCount : Nat := 0
  deriving DecidableEq, Repr

/-- The worker's table of latency averages. -/
abbrev EmaTable := String → Option UpstreamStats

/-- `f64::MAX`. -/
def f64Max : F64 := .num ((2 ^ 53 - 1) * 2 ^ 971)

/-- `f64::EPSILON`. -/
def f64Epsilon : F64 := .num (1 / 2 ^ 52)

/-- `ALPHA`. -/
def alpha : F64 := F64.round (1 / 10)

def UpstreamStats.update (s : UpstreamStats) (latencyUs : F64) : UpstreamStats where
  emaLatencyUs :=
    if s.requestCount = 0 then latencyUs
    else (alpha.mul latencyUs).add (((F64.num 1).sub alpha).mul s.emaLatencyUs)
  requestCount := s.requestCount + 1

def UpstreamStats.emaOrMax (s : UpstreamStats) : F64 :=
  if s.requestCount < 10 then f64Max else s.emaLatencyUs

def recordUpstreamLatency (upstream : String) (latencyUs : Nat) (stats : EmaTable) : EmaTable :=
  Function.update stats upstream (some (((stats upstream).getD {}).update (F64.round latencyUs)))

def getEma (upstream : String) (stats : EmaTable) : F64 :=
  match stats upstream with
  | some s => s.emaOrMax
  | none => f64Max

/-! ## The ring -/

/-- Each position repeated as often as its weight says, at least once. -/
def buildWeightRingPositions (weights : List Nat) : List Nat :=
  weights.zipIdx.flatMap fun p => List.replicate (max p.1 1) p.2

def fxHashIndex (fxHash : String → Nat) (key : String) (len : Nat) : Nat :=
  if len = 0 then 0 else fxHash key % len

/-! ## Selection -/

/-- The two mapped files the selector touches. -/
structure Usability where
  cb : CircuitBreaker.Shm
  health : Health.Shm

/-- What selection reads besides the pool: the hash, the clock in seconds, the averages. -/
structure Context where
  fxHash : String → Nat
  now : Nat
  ema : EmaTable

variable (ctx : Context)

/-- `!is_upstream_open(addr) && is_healthy(addr)`; the health slot is touched only when the
breaker lets the address through. -/
def usable (addr : String) (u : Usability) : Usability × Bool :=
  match CircuitBreaker.isUpstreamOpen ctx.fxHash ctx.now addr u.cb with
  | (cb, true) => ({ u with cb := cb }, false)
  | (cb, false) =>
    match Health.isHealthy ctx.fxHash addr u.health with
    | (health, ok) => ({ cb := cb, health := health }, ok)

/-- The loop of `collect_healthy_distinct`: `seen` and `healthy` are the two hash sets. -/
def collectHealthy (pool : List Upstream) :
    List Nat → List Nat → List Nat → Usability → Usability × List Nat
  | [], _, healthy, u => (u, healthy)
  | pos :: ring, seen, healthy, u =>
    -- A position stands in the ring as often as it weighs, and is asked once.
    if pos ∈ seen then collectHealthy pool ring seen healthy u
    else
      match pool[pos]? with
      | none => collectHealthy pool ring (pos :: seen) healthy u
      | some up =>
        match usable ctx up.address u with
        | (u, true) => collectHealthy pool ring (pos :: seen) (pos :: healthy) u
        | (u, false) => collectHealthy pool ring (pos :: seen) healthy u

def collectHealthyDistinct (pool : List Upstream) (ring : List Nat) (u : Usability) :
    Usability × List Nat :=
  collectHealthy ctx pool ring [] [] u

/-- `P2C_LATENCY_ADVANTAGE`. -/
def p2cLatencyAdvantage : F64 := F64.round (4 / 5)

/-- A latency average penalised by low confidence. -/
def composite (ema : F64) (confidence : Nat) : F64 :=
  ema.mul ((F64.num 1).add (((F64.num 100).sub (.num confidence)).div (.num 50)))

def score (addr : String) (u : Usability) : F64 :=
  composite (getEma addr ctx.ema) (CircuitBreaker.getConfidence ctx.fxHash addr u.cb)

/-- `pick_p2c`, on the two positions the slots name. -/
def pickP2c (pool : List Upstream) (a b : Nat) (healthy : List Nat) (u : Usability) : Option Nat :=
  if a ∈ healthy ∧ b ∈ healthy ∧ a ≠ b then
    let addrA := (pool[a]?.map Upstream.address).getD ""
    let addrB := (pool[b]?.map Upstream.address).getD ""
    let scoreA := score ctx addrA u
    let scoreB := score ctx addrB u
    -- Neither has been measured often enough.
    if f64Max.le (getEma addrA ctx.ema) ∧ f64Max.le (getEma addrB ctx.ema) then some a
    -- A lead of more than a fifth decides in either direction.
    else if scoreB.lt (scoreA.mul p2cLatencyAdvantage) then some b
    else if scoreA.lt (scoreB.mul p2cLatencyAdvantage) then some a
    else if (scoreA.sub scoreB).abs.lt f64Epsilon then some a
    else if scoreB.lt scoreA then some b
    else some a
  else if a ∈ healthy then some a
  else if b ∈ healthy then some b
  else none

/-- `select_from`. -/
def selectFrom (pool : List Upstream) (userId : Option String) (u : Usability) :
    Usability × Option String :=
  if pool.isEmpty then (u, none)
  else
    let hashKey := userId.getD "anonymous"
    let ring := buildWeightRingPositions (pool.map fun up => max up.weight 1)
    let primarySlot := fxHashIndex ctx.fxHash hashKey ring.length
    let altSlot := fxHashIndex ctx.fxHash (hashKey ++ ":p2c") ring.length
    match collectHealthyDistinct ctx pool ring u with
    | (u, healthy) =>
      if healthy.isEmpty then (u, none)
      else
        let a := ring[primarySlot % ring.length]?.getD 0
        let b := ring[altSlot % ring.length]?.getD 0
        match pickP2c ctx pool a b healthy u with
        | some pos => (u, pool[pos]?.map Upstream.address)
        | none =>
          -- Failover: walk the ring from the primary slot.
          let walk := (List.range ring.length).filterMap fun offset =>
            ring[(primarySlot + offset) % ring.length]?
          match walk.find? (· ∈ healthy) with
          | some pos => (u, pool[pos]?.map Upstream.address)
          | none => (u, none)

/-- `first.or_else(|| second)` on two pools. -/
def selectOrElse (first second : List Upstream) (userId : Option String) (u : Usability) :
    Usability × Option String :=
  match selectFrom ctx first userId u with
  | (u, some addr) => (u, some addr)
  | (u, none) => selectFrom ctx second userId u

/-- `select_upstream` of an existing service. -/
def selectUpstream (svc : ServiceConfig) (region : String) (userId : Option String)
    (canaryHint : String) (u : Usability) : Usability × Option String :=
  match svc.regionalUpstreams.lookup region with
  | none => (u, none)
  | some upstreams =>
    if upstreams.isEmpty then (u, none)
    else
      match svc.canary.filter (fun p => p.version ≠ "") with
      | none => selectFrom ctx upstreams userId u
      | some policy =>
        let canaryRefs := upstreams.filter fun up => up.version = policy.version
        let stableRefs := upstreams.filter fun up => up.version ≠ policy.version
        let sticky := canaryHint = policy.version
        -- The bucket of a user does not change from request to request.
        let bucketIn :=
          fxHashIndex ctx.fxHash (userId.getD "anonymous" ++ ":canary") 10000 % 2 ^ 32
            < policy.effectivePercent * 100
        if canaryRefs.isEmpty then selectFrom ctx stableRefs userId u
        else if stableRefs.isEmpty then selectFrom ctx canaryRefs userId u
        else if sticky ∨ bucketIn then selectOrElse ctx canaryRefs stableRefs userId u
        else selectOrElse ctx stableRefs canaryRefs userId u

/-! ## Selection asks about the pool's addresses and does nothing else -/

variable {ctx}

/-! What asking about any address of a pool preserves, selecting from the pool preserves; the relation
between the states before and after has to be a preorder. -/

section Preserves

variable {R : Usability → Usability → Prop} (hrefl : ∀ u, R u u)
  (htrans : ∀ u v w, R u v → R v w → R u w)

include hrefl htrans

theorem collectHealthy_preserves {pool : List Upstream}
    (hask : ∀ up ∈ pool, ∀ u, R u (usable ctx up.address u).1) (ring : List Nat) :
    ∀ (seen healthy : List Nat) (u : Usability),
      R u (collectHealthy ctx pool ring seen healthy u).1 := by
  induction ring with
  | nil =>
      intro seen healthy u
      exact hrefl u
  | cons pos ring ih =>
      intro seen healthy u
      unfold collectHealthy
      by_cases hseen : pos ∈ seen
      · simpa [hseen] using ih seen healthy u
      · cases hpos : pool[pos]? with
        | none => simpa [hseen] using ih (pos :: seen) healthy u
        | some up =>
            have huse : R u (usable ctx up.address u).1 := hask up (List.mem_of_getElem? hpos) u
            rcases hu : usable ctx up.address u with ⟨u', answer⟩
            rw [hu] at huse
            cases answer with
            | true => simpa [hseen, hu] using htrans _ _ _ huse (ih (pos :: seen) (pos :: healthy) u')
            | false => simpa [hseen, hu] using htrans _ _ _ huse (ih (pos :: seen) healthy u')

theorem selectFrom_preserves {pool : List Upstream}
    (hask : ∀ up ∈ pool, ∀ u, R u (usable ctx up.address u).1) (userId : Option String)
    (u : Usability) : R u (selectFrom ctx pool userId u).1 := by
  unfold selectFrom
  by_cases hempty : pool.isEmpty
  · simpa [hempty] using hrefl u
  · have hcollect := collectHealthy_preserves hrefl htrans hask
      (buildWeightRingPositions (pool.map fun up => max up.weight 1)) [] [] u
    simp only [hempty, Bool.false_eq_true, if_false]
    -- Past the scan of the ring nothing is touched any more.
    split
    · exact hcollect
    · split
      · exact hcollect
      · split
        · exact hcollect
        · exact hcollect

theorem selectOrElse_preserves {first second : List Upstream}
    (hfirst : ∀ up ∈ first, ∀ u, R u (usable ctx up.address u).1)
    (hsecond : ∀ up ∈ second, ∀ u, R u (usable ctx up.address u).1) (userId : Option String)
    (u : Usability) : R u (selectOrElse ctx first second userId u).1 := by
  have hone := selectFrom_preserves hrefl htrans hfirst userId u
  unfold selectOrElse
  rcases hs : selectFrom ctx first userId u with ⟨u', answer⟩
  rw [hs] at hone
  cases answer with
  | some addr => exact hone
  | none => exact htrans _ _ _ hone (selectFrom_preserves hrefl htrans hsecond userId u')

theorem selectUpstream_preserves {svc : ServiceConfig}
    (hask : ∀ pool ∈ svc.regionalUpstreams, ∀ up ∈ pool.2, ∀ u, R u (usable ctx up.address u).1)
    (region : String) (userId : Option String) (canaryHint : String) (u : Usability) :
    R u (selectUpstream ctx svc region userId canaryHint u).1 := by
  unfold selectUpstream
  cases hlookup : svc.regionalUpstreams.lookup region with
  | none => exact hrefl u
  | some upstreams =>
      have hpool : ∀ up ∈ upstreams, ∀ u, R u (usable ctx up.address u).1 := by
        rcases List.lookup_eq_some_iff.1 hlookup with ⟨before, after, hsplit, _⟩
        exact hask (region, upstreams) (by simp [hsplit])
      have hsub : ∀ (keep : Upstream → Bool), ∀ up ∈ upstreams.filter keep, ∀ u,
          R u (usable ctx up.address u).1 :=
        fun keep up hup => hpool up (List.mem_filter.1 hup).1
      dsimp only
      split
      · exact hrefl u
      · split
        · exact selectFrom_preserves hrefl htrans hpool userId u
        · split
          · exact selectFrom_preserves hrefl htrans (hsub _) userId u
          · split
            · exact selectFrom_preserves hrefl htrans (hsub _) userId u
            · split
              · exact selectOrElse_preserves hrefl htrans (hsub _) (hsub _) userId u
              · exact selectOrElse_preserves hrefl htrans (hsub _) (hsub _) userId u

end Preserves

/-- `frame i` of two states: slot `i` of the breaker file is the same in both. -/
def SameSlot (i : Nat) (u u' : Usability) : Prop := u'.cb i = u.cb i

theorem usable_cb (addr : String) (u : Usability) :
    (usable ctx addr u).1.cb = (CircuitBreaker.isUpstreamOpen ctx.fxHash ctx.now addr u.cb).1 := by
  unfold usable
  rcases CircuitBreaker.isUpstreamOpen ctx.fxHash ctx.now addr u.cb with ⟨cb, answer⟩
  cases answer <;> rfl

/-- Selecting for a service leaves every breaker slot alone that none of its addresses hashes to. -/
theorem selectUpstream_sameSlot {svc : ServiceConfig} {i : Nat}
    (haddr : ∀ pool ∈ svc.regionalUpstreams, ∀ up ∈ pool.2,
      i ≠ CircuitBreaker.slotOf ctx.fxHash up.address)
    (region : String) (userId : Option String) (canaryHint : String) (u : Usability) :
    SameSlot i u (selectUpstream ctx svc region userId canaryHint u).1 := by
  refine selectUpstream_preserves (R := SameSlot i) (fun _ => rfl)
    (fun _ _ _ huv hvw => hvw.trans huv) ?_ region userId canaryHint u
  intro pool hpool up hup v
  unfold SameSlot
  rw [usable_cb]
  exact CircuitBreaker.isUpstreamOpen_of_slot_ne ctx.fxHash ctx.now v.cb (haddr pool hpool up hup)

/-- Only a slot that is OPEN is ever moved. -/
theorem selectUpstream_of_not_open (svc : ServiceConfig) (region : String) (userId : Option String)
    (canaryHint : String) {u : Usability} {i : Nat}
    (h : (u.cb i).state ≠ CircuitBreaker.stateOpen) :
    (selectUpstream ctx svc region userId canaryHint u).1.cb i = u.cb i := by
  refine selectUpstream_preserves
    (R := fun v w => (v.cb i).state ≠ CircuitBreaker.stateOpen → w.cb i = v.cb i) (fun _ _ => rfl)
    (fun v w x hvw hwx hv => ?_) (fun pool _ up _ v hv => ?_) region userId canaryHint u h
  · have hsame := hvw hv
    exact (hwx (by rw [hsame]; exact hv)).trans hsame
  · rw [usable_cb]
    exact CircuitBreaker.isUpstreamOpen_of_not_open ctx.fxHash ctx.now up.address hv

end Selector
end GatewayEdge
