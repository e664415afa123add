import GatewayEdge.Foundation.Checked
import GatewayEdge.Foundation.Choice
import GatewayEdge.LoadBalancing.Availability
import Mathlib.Algebra.Ring.Nat

/-!
# Pick — selection over a fixed picture of the upstreams

While one selection runs, the usable addresses, their latency averages and their confidence are a
fixed picture.  Over such a picture selection is a function of its arguments, and it is written here
with every operation of it that could stop it: indexing the ring and the pool, the remainders by the
length of the ring, the sum of two slots, and the allocation of the ring.  A ring has as many slots as
its weights say, so it may be far larger than the config; for which sizes the allocator has room is a
parameter.  Allocations no larger than the config itself are taken for granted.

What it picks is settled by a rule without hashes of machine words: a contest between two slots of
the ring and, failing that, a walk around the ring (`slotRule`).  The code follows the rule whenever
there is room for the ring (`selectFrom_ok`), and stops where there is none (`selectFrom_error`).
-/

namespace GatewayEdge
namespace Pick

open Foundation
open Foundation.Checked (HasRoom NoRoom maxCapacity)
open Selector (regionPool)

/-- What selection reads of the world, taken at one moment. -/
structure Outlook where
  fxHash : String → Nat
  usable : String → Bool
  ema : String → F64
  confidence : String → Nat

variable (allocates : Nat → Bool) (o : Outlook)

/-! ## The code -/

/-- `build_weight_ring_positions`.  The sum wraps in a release build, so a vector whose announced
capacity is granted may still outgrow it while it is filled. -/
def buildWeightRingPositions (weights : List Nat) : Checked (List Nat) := do
  let total := weights.sum % 2 ^ 64
  Checked.allocate allocates total
  let ring := Selector.buildWeightRingPositions weights
  Checked.growTo allocates ring.length 64 total
  return ring

def fxHashIndex (key : String) (len : Nat) : Checked Nat :=
  if len = 0 then .ok 0 else Checked.rem (o.fxHash key) len

/-- The loop of `collect_healthy_distinct`. -/
def collectHealthy (pool : List Upstream) : List Nat → List Nat → List Nat → Checked (List Nat)
  | [], _, healthy => .ok healthy
  | pos :: ring, seen, healthy =>
    if pos ∈ seen then collectHealthy pool ring seen healthy
    else do
      let up ← Checked.index pool pos
      if o.usable up.address then collectHealthy pool ring (pos :: seen) (pos :: healthy)
      else collectHealthy pool ring (pos :: seen) healthy

def collectHealthyDistinct (pool : List Upstream) (ring : List Nat) : Checked (List Nat) :=
  collectHealthy o pool ring [] []

def score (addr : String) : F64 := Selector.composite (o.ema addr) (o.confidence addr)

/-- The branches of `pick_p2c` for two healthy positions: whether they end in `Some(b)`. -/
def secondWins (addrA addrB : String) : Prop :=
  if Selector.f64Max.le (o.ema addrA) ∧ Selector.f64Max.le (o.ema addrB) then False
  else if (score o addrB).lt ((score o addrA).mul Selector.p2cLatencyAdvantage) then True
  else if (score o addrA).lt ((score o addrB).mul Selector.p2cLatencyAdvantage) then False
  else if ((score o addrA).sub (score o addrB)).abs.lt Selector.f64Epsilon then False
  else (score o addrB).lt (score o addrA)

instance (addrA addrB : String) : Decidable (secondWins o addrA addrB) := by
  unfold secondWins
  infer_instance

def pickP2c (pool : List Upstream) (ring : List Nat) (primarySlot altSlot : Nat)
    (healthy : List Nat) : Checked (Option Nat) := do
  let a ← Checked.index ring (← Checked.rem primarySlot ring.length)
  let b ← Checked.index ring (← Checked.rem altSlot ring.length)
  if a ∈ healthy ∧ b ∈ healthy ∧ a ≠ b then
    let upA ← Checked.index pool a
    let upB ← Checked.index pool b
    return some (if secondWins o upA.address upB.address then b else a)
  else if a ∈ healthy then return some a
  else if b ∈ healthy then return some b
  else return none

/-- The failover loop of `select_from`, over the offsets from the primary slot. -/
def walk (ring : List Nat) (primarySlot : Nat) (healthy : List Nat) :
    List Nat → Checked (Option Nat)
  | [] => .ok none
  | offset :: offsets => do
    let slot ← Checked.add primarySlot offset
    let pos ← Checked.index ring (← Checked.rem slot ring.length)
    if pos ∈ healthy then return some pos else walk ring primarySlot healthy offsets

/-- `select_from`, answering with the member instead of its address. -/
def selectFrom (pool : List Upstream) (userId : Option String) : Checked (Option Upstream) :=
  if pool.isEmpty then .ok none
  else do
    let hashKey := userId.getD "anonymous"
    let ring ← buildWeightRingPositions allocates (pool.map fun up => max up.weight 1)
    let primarySlot ← fxHashIndex o hashKey ring.length
    let altSlot ← fxHashIndex o (hashKey ++ ":p2c") ring.length
    let healthy ← collectHealthyDistinct o pool ring
    if healthy.isEmpty then return none
    else
      match ← pickP2c o pool ring primarySlot altSlot healthy with
      | some pos => return some (← Checked.index pool pos)
      | none =>
        match ← walk ring primarySlot healthy (List.range ring.length) with
        | some pos => return some (← Checked.index pool pos)
        | none => return none

/-- `first.or_else(|| second)`: the second pool is not looked at when the first one serves. -/
def selectOrElse (first second : List Upstream) (userId : Option String) :
    Checked (Option Upstream) := do
  match ← selectFrom allocates o first userId with
  | some up => return some up
  | none => selectFrom allocates o second userId

/-- The bucket of a user lies below the percentage. -/
def bucketIn (userId : Option String) (policy : CanaryPolicy) : Checked Bool := do
  let bucket ← fxHashIndex o (userId.getD "anonymous" ++ ":canary") 10000
  return bucket % 2 ^ 32 < policy.effectivePercent * 100

/-- `select_upstream` of an existing service, answering with the member. -/
def selectMember (svc : ServiceConfig) (region : String) (userId : Option String)
    (canaryHint : String) : Checked (Option Upstream) :=
  match svc.regionalUpstreams.lookup region with
  | none => .ok none
  | some upstreams =>
    if upstreams.isEmpty then .ok none
    else
      match svc.canary.filter (fun p => p.version ≠ "") with
      | none => selectFrom allocates o upstreams userId
      | some policy => do
        let canaryRefs := upstreams.filter fun up => up.version = policy.version
        let stableRefs := upstreams.filter fun up => up.version ≠ policy.version
        if canaryRefs.isEmpty then selectFrom allocates o stableRefs userId
        else
          let sticky := canaryHint = policy.version
          let bucketed ← bucketIn o userId policy
          if stableRefs.isEmpty then selectFrom allocates o canaryRefs userId
          else if sticky ∨ bucketed then selectOrElse allocates o canaryRefs stableRefs userId
          else selectOrElse allocates o stableRefs canaryRefs userId

/-- `select_upstream`. -/
def selectUpstream (svc : ServiceConfig) (region : String) (userId : Option String)
    (canaryHint : String) : Checked (Option String) :=
  (selectMember allocates o svc region userId canaryHint).map (Option.map Upstream.address)

/-! ## The rule the code follows -/

/-- The ring of a pool. -/
def ringOf (pool : List Upstream) : List Nat :=
  Selector.buildWeightRingPositions (pool.map fun up => max up.weight 1)

def available (pool : List Upstream) (pos : Nat) : Bool := (pool[pos]?.map Upstream.address).any o.usable

/-- The address at a position, for the scores. -/
def addressAt (pool : List Upstream) (pos : Nat) : String := (pool[pos]?.map Upstream.address).getD ""

/-- The ring read once around from a slot. -/
def rotation (ring : List Nat) (start : Nat) : List Nat :=
  (List.range ring.length).filterMap fun offset => ring[(start + offset) % ring.length]?

/-- A contest between two slots of the ring, then a walk from the first of them. -/
def slotRule (pool : List Upstream) (ring : List Nat) (primarySlot altSlot : Nat)
    (avail : Nat → Bool) : Option Nat :=
  let a := ring[primarySlot % ring.length]?.getD 0
  let b := ring[altSlot % ring.length]?.getD 0
  (twoChoice a b (secondWins o (addressAt pool a) (addressAt pool b)) avail).or
    ((rotation ring primarySlot).find? avail)

/-- The rule on the slots of a user. -/
def position (pool : List Upstream) (userId : Option String) : Option Nat :=
  let hashKey := userId.getD "anonymous"
  let ring := ringOf pool
  slotRule o pool ring (Selector.fxHashIndex o.fxHash hashKey ring.length)
    (Selector.fxHashIndex o.fxHash (hashKey ++ ":p2c") ring.length) (available o pool)

/-- The member of the pool the rule picks for a user. -/
def choose (pool : List Upstream) (userId : Option String) : Option Upstream :=
  (position o pool userId).bind (pool[·]?)

/-! ## The ring -/

theorem length_buildWeightRingPositions (weights : List Nat) :
    (Selector.buildWeightRingPositions weights).length = (weights.map (max · 1)).sum := by
  unfold Selector.buildWeightRingPositions
  generalize 0 = start
  induction weights generalizing start with
  | nil => rfl
  | cons weight weights ih =>
      simp [List.zipIdx_cons, ih]

/-- The slots a pool takes in its ring: each member counts at least once. -/
def slotCount (pool : List Upstream) : Nat := (pool.map fun up => max up.weight 1).sum

theorem length_ringOf (pool : List Upstream) : (ringOf pool).length = slotCount pool := by
  unfold ringOf slotCount
  rw [length_buildWeightRingPositions, List.map_map]
  congr 1
  apply List.map_congr_left
  intro up _
  simp

theorem mem_ringOf {pool : List Upstream} {pos : Nat} : pos ∈ ringOf pool ↔ pos < pool.length := by
  unfold ringOf
  rw [Selector.mem_buildWeightRingPositions, List.length_map]

theorem ringOf_pos {pool : List Upstream} (h : pool ≠ []) : 0 < (ringOf pool).length := by
  apply List.length_pos_of_mem (a := 0)
  exact mem_ringOf.2 (List.length_pos_iff.2 h)

/-- There is room for the ring of a pool. -/
def RingFits (allocates : Nat → Bool) (pool : List Upstream) : Prop := HasRoom allocates (slotCount pool)

instance (allocates : Nat → Bool) (pool : List Upstream) : Decidable (RingFits allocates pool) :=
  inferInstanceAs (Decidable (HasRoom _ _))

/-- The ring is built when there is room for it. -/
theorem buildWeightRingPositions_ok {allocates : Nat → Bool} {pool : List Upstream}
    (h : RingFits allocates pool) :
    buildWeightRingPositions allocates (pool.map fun up => max up.weight 1) = .ok (ringOf pool) := by
  have hsum : (pool.map fun up => max up.weight 1).sum % 2 ^ 64 = slotCount pool :=
    Nat.mod_eq_of_lt (Nat.lt_of_le_of_lt h.1 (by decide))
  unfold buildWeightRingPositions
  dsimp only
  rw [hsum, Checked.allocate_ok h, Checked.ok_bind]
  change (Checked.growTo allocates (ringOf pool).length 64 (slotCount pool) >>= fun _ => _) = _
  rw [length_ringOf, Checked.growTo_ok]
  rfl

/-- And not otherwise, wrapped sum or not. -/
theorem buildWeightRingPositions_error {allocates : Nat → Bool} {pool : List Upstream}
    (h : ¬ RingFits allocates pool) :
    ∃ p, buildWeightRingPositions allocates (pool.map fun up => max up.weight 1) = .error p ∧ NoRoom p := by
  unfold buildWeightRingPositions
  change ∃ p, (Checked.allocate allocates (slotCount pool % 2 ^ 64) >>= fun _ =>
    Checked.growTo allocates (ringOf pool).length 64 (slotCount pool % 2 ^ 64) >>= fun _ => _) = _ ∧ _
  rcases Checked.allocate_cases allocates (slotCount pool % 2 ^ 64) with ⟨hroom, hok⟩ | ⟨-, p, herror, hp⟩
  · -- The sum has wrapped, so the ring does not fit into any vector.
    have hlarge : maxCapacity < slotCount pool := by
      by_contra hfits
      have hmod : slotCount pool % 2 ^ 64 = slotCount pool :=
        Nat.mod_eq_of_lt (Nat.lt_of_le_of_lt (Nat.le_of_not_lt hfits) (by decide))
      rw [hmod] at hroom
      exact h hroom
    rw [← length_ringOf] at hlarge
    rcases Checked.growTo_error hlarge 64 _ hroom.1 with ⟨p, herror, hp⟩
    rw [hok, Checked.ok_bind, herror]
    exact ⟨p, rfl, hp⟩
  · rw [herror]
    exact ⟨p, rfl, hp⟩

/-! ## Each operation follows the rule -/

variable {o}

theorem fxHashIndex_eq (key : String) (len : Nat) :
    fxHashIndex o key len = .ok (Selector.fxHashIndex o.fxHash key len) := by
  unfold fxHashIndex Selector.fxHashIndex
  by_cases hlen : len = 0
  · simp [hlen]
  · rw [if_neg hlen, if_neg hlen]
    exact Checked.rem_ok (Nat.pos_of_ne_zero hlen)

theorem available_eq {pool : List Upstream} {pos : Nat} {up : Upstream} (h : pool[pos]? = some up) :
    available o pool pos = o.usable up.address := by
  simp [available, h]

variable (o) in
/-- The scan never leaves the pool, and collects what it had and what is available and new. -/
theorem collectHealthy_ok (pool : List Upstream) (ring : List Nat)
    (hring : ∀ pos ∈ ring, pos < pool.length) : ∀ seen healthy : List Nat,
      ∃ found, collectHealthy o pool ring seen healthy = .ok found ∧
        ∀ pos, pos ∈ found ↔
          pos ∈ healthy ∨ (pos ∈ ring ∧ pos ∉ seen ∧ available o pool pos = true) := by
  induction ring with
  | nil =>
      intro seen healthy
      exact ⟨healthy, rfl, fun pos => by simp⟩
  | cons q ring ih =>
      intro seen healthy
      have hrest : ∀ pos ∈ ring, pos < pool.length := fun pos h => hring pos (List.mem_cons_of_mem _ h)
      have hlt : q < pool.length := hring q List.mem_cons_self
      have hq : pool[q]? = some pool[q] := List.getElem?_eq_getElem hlt
      unfold collectHealthy
      by_cases hseen : q ∈ seen
      · rcases ih hrest seen healthy with ⟨found, hfound, hmem⟩
        refine ⟨found, by simpa [hseen] using hfound, fun pos => ?_⟩
        rw [hmem pos]
        by_cases hpos : pos = q
        · simp [hpos, hseen]
        · simp [hpos]
      · rw [if_neg hseen, Checked.index_ok hq, Checked.ok_bind, ← available_eq hq]
        by_cases hok : available o pool q = true
        · rcases ih hrest (q :: seen) (q :: healthy) with ⟨found, hfound, hmem⟩
          refine ⟨found, by simpa [hok] using hfound, fun pos => ?_⟩
          rw [hmem pos]
          by_cases hpos : pos = q
          · simp [hpos, hseen, hok]
          · simp [hpos]
        · rcases ih hrest (q :: seen) healthy with ⟨found, hfound, hmem⟩
          refine ⟨found, by simpa [hok] using hfound, fun pos => ?_⟩
          rw [hmem pos]
          by_cases hpos : pos = q
          · simp [hpos, hok]
          · simp [hpos]

variable (o) in
theorem collectHealthyDistinct_ok (pool : List Upstream) :
    ∃ found, collectHealthyDistinct o pool (ringOf pool) = .ok found ∧
      ∀ pos, pos ∈ found ↔ available o pool pos = true := by
  rcases collectHealthy_ok o pool (ringOf pool) (fun pos h => mem_ringOf.1 h) [] [] with
    ⟨found, hfound, hmem⟩
  refine ⟨found, hfound, fun pos => ?_⟩
  rw [hmem pos]
  constructor
  · rintro (h | ⟨_, _, h⟩)
    · cases h
    · exact h
  · intro h
    refine Or.inr ⟨mem_ringOf.2 ?_, by simp, h⟩
    by_contra hout
    simp [available, List.getElem?_eq_none (Nat.le_of_not_lt hout)] at h

theorem pickP2c_eq {pool : List Upstream} {ring : List Nat}
    (hring : ∀ pos ∈ ring, pos < pool.length) (hpos : 0 < ring.length) (primarySlot altSlot : Nat)
    (healthy : List Nat) :
    pickP2c o pool ring primarySlot altSlot healthy =
      .ok (twoChoice (ring[primarySlot % ring.length]?.getD 0) (ring[altSlot % ring.length]?.getD 0)
        (secondWins o (addressAt pool (ring[primarySlot % ring.length]?.getD 0))
          (addressAt pool (ring[altSlot % ring.length]?.getD 0)))
        (fun pos => decide (pos ∈ healthy))) := by
  have ha : primarySlot % ring.length < ring.length := Nat.mod_lt _ hpos
  have hb : altSlot % ring.length < ring.length := Nat.mod_lt _ hpos
  unfold pickP2c
  rw [Checked.rem_ok hpos, Checked.ok_bind, Checked.index_lt_ok (Nat.mod_lt _ hpos), Checked.ok_bind,
    Checked.rem_ok hpos, Checked.ok_bind, Checked.index_lt_ok (Nat.mod_lt _ hpos), Checked.ok_bind,
    List.getElem?_eq_getElem ha, List.getElem?_eq_getElem hb]
  dsimp only [Option.getD_some]
  generalize hposA : ring[primarySlot % ring.length] = a
  generalize hposB : ring[altSlot % ring.length] = b
  have hltA : a < pool.length := hring a (hposA ▸ List.getElem_mem ha)
  have hltB : b < pool.length := hring b (hposB ▸ List.getElem_mem hb)
  have hlookA : pool[a]? = some pool[a] := List.getElem?_eq_getElem hltA
  have hlookB : pool[b]? = some pool[b] := List.getElem?_eq_getElem hltB
  unfold twoChoice
  by_cases hboth : a ∈ healthy ∧ b ∈ healthy ∧ a ≠ b
  · simp [hboth, Checked.index_ok hlookA, Checked.index_ok hlookB, addressAt, hlookA, hlookB]
  · have hboth' : ¬ (decide (a ∈ healthy) = true ∧ decide (b ∈ healthy) = true ∧ a ≠ b) := by
      simpa only [decide_eq_true_eq] using hboth
    rw [if_neg hboth, if_neg hboth']
    by_cases hokA : a ∈ healthy
    · simp [hokA]
    · by_cases hokB : b ∈ healthy
      · simp [hokA, hokB]
      · simp [hokA, hokB]

theorem walk_eq {ring : List Nat} (hpos : 0 < ring.length) {primarySlot : Nat}
    (healthy : List Nat) (offsets : List Nat)
    (hfits : ∀ offset ∈ offsets, primarySlot + offset < 2 ^ 64) :
    walk ring primarySlot healthy offsets =
      .ok ((offsets.filterMap fun offset => ring[(primarySlot + offset) % ring.length]?).find?
        (fun pos => decide (pos ∈ healthy))) := by
  induction offsets with
  | nil => rfl
  | cons offset offsets ih =>
      have hslot : (primarySlot + offset) % ring.length < ring.length := Nat.mod_lt _ hpos
      unfold walk
      rw [Checked.add_ok (hfits offset List.mem_cons_self), Checked.ok_bind, Checked.rem_ok hpos,
        Checked.ok_bind, Checked.index_lt_ok (Nat.mod_lt _ hpos), Checked.ok_bind,
        ih fun other h => hfits other (List.mem_cons_of_mem _ h)]
      simp only [List.filterMap_cons, List.getElem?_eq_getElem hslot, List.find?_cons]
      by_cases hok : ring[(primarySlot + offset) % ring.length] ∈ healthy
      · simp [hok]
      · simp [hok]

/-! ## What the rule promises -/

theorem available_iff {pool : List Upstream} {pos : Nat} :
    available o pool pos = true ↔ ∃ up, pool[pos]? = some up ∧ o.usable up.address = true := by
  unfold available
  cases pool[pos]? with
  | none => simp
  | some up => simp

variable (o) in
theorem settles_slotRule (pool : List Upstream) {ring : List Nat} (hpos : 0 < ring.length)
    (primarySlot altSlot : Nat) (avail : Nat → Bool) :
    Settles (· ∈ ring) avail (slotRule o pool ring primarySlot altSlot avail) := by
  have hentry : ∀ slot, ring[slot % ring.length]?.getD 0 ∈ ring := by
    intro slot
    have hslot : slot % ring.length < ring.length := Nat.mod_lt _ hpos
    simp [List.getElem?_eq_getElem hslot]
  refine (settles_twoChoice.orElse (settles_find? (rotation ring primarySlot) avail)).congr ?_
  intro pos
  constructor
  · rintro ((rfl | rfl) | hwalk)
    · exact hentry primarySlot
    · exact hentry altSlot
    · rcases List.mem_filterMap.1 hwalk with ⟨offset, _, hoffset⟩
      exact List.mem_of_getElem? hoffset
  · intro hmem
    exact Or.inr (Selector.mem_walk primarySlot hmem)

variable (o) in
theorem settles_position {pool : List Upstream} (hpool : pool ≠ []) (userId : Option String) :
    Settles (· ∈ ringOf pool) (available o pool) (position o pool userId) :=
  settles_slotRule o pool (ringOf_pos hpool) _ _ _

variable (o) in
/-- The rule settles the pool it is applied to. -/
theorem settles_choose (pool : List Upstream) (userId : Option String) :
    Settles (· ∈ pool) (fun up => o.usable up.address) (choose o pool userId) := by
  by_cases hpool : pool = []
  · subst hpool
    refine ⟨fun up hup => ?_, fun _ up hup => by cases hup⟩
    rcases Option.bind_eq_some_iff.1 hup with ⟨pos, _, hpos⟩
    simp at hpos
  · have hsettles := settles_position o hpool userId
    constructor
    · intro up hup
      rcases Option.bind_eq_some_iff.1 hup with ⟨pos, hposition, hpos⟩
      rcases available_iff.1 (hsettles.sound pos hposition).2 with ⟨up', hup', husable⟩
      have hsame : up' = up := Option.some.inj (hup'.symm.trans hpos)
      exact ⟨List.mem_of_getElem? hpos, hsame ▸ husable⟩
    · intro hnone up hup
      rcases List.mem_iff_getElem?.1 hup with ⟨pos, hpos⟩
      have hposition : position o pool userId = none := by
        cases hsome : position o pool userId with
        | none => rfl
        | some q =>
            -- An available position has a member, so the rule would have answered.
            rcases available_iff.1 (hsettles.sound q hsome).2 with ⟨up', hup', _⟩
            simp [choose, hsome, hup'] at hnone
      have hgone := hsettles.complete hposition pos
        (mem_ringOf.2 (List.getElem?_eq_some_iff.1 hpos).1)
      rwa [available_eq hpos] at hgone

/-- Where nothing is available the rule has no answer. -/
theorem choose_eq_none {pool : List Upstream} (userId : Option String)
    (h : ∀ pos, available o pool pos = false) : choose o pool userId = none := by
  apply (settles_choose o pool userId).isNone_iff.2
  intro up hup
  rcases List.mem_iff_getElem?.1 hup with ⟨pos, hpos⟩
  rw [← available_eq hpos]
  exact h pos

/-- The rule has no answer where a search that finds what is available finds nothing. -/
theorem choose_of_none_found {pool : List Upstream} {found : List Nat} (userId : Option String)
    (havail : (fun pos => decide (pos ∈ found)) = available o pool) (hnone : found.isEmpty = true) :
    choose o pool userId = none := by
  apply choose_eq_none
  intro pos
  rw [← havail, List.isEmpty_iff.1 hnone]
  rfl

/-- The code follows the rule. -/
theorem selectFrom_ok {allocates : Nat → Bool} {pool : List Upstream} (hroom : RingFits allocates pool)
    (userId : Option String) : selectFrom allocates o pool userId = .ok (choose o pool userId) := by
  unfold selectFrom
  by_cases hpool : pool = []
  · subst hpool
    have hnone : choose o [] userId = none := choose_eq_none userId fun pos => by simp [available]
    rw [hnone]
    rfl
  · have hpos : 0 < (ringOf pool).length := ringOf_pos hpool
    have hnonempty : pool.isEmpty = false := by simpa using hpool
    rw [hnonempty, if_neg Bool.false_ne_true, buildWeightRingPositions_ok hroom]
    rcases collectHealthyDistinct_ok o pool with ⟨found, hfound, hmem⟩
    have havail : (fun pos => decide (pos ∈ found)) = available o pool := by
      funext pos
      rw [Bool.eq_iff_iff, decide_eq_true_eq]
      exact hmem pos
    simp only [Checked.ok_bind, fxHashIndex_eq, hfound]
    by_cases hnone : found.isEmpty
    · rw [if_pos hnone, choose_of_none_found userId havail hnone]
      rfl
    · have hbound : ∀ offset ∈ List.range (ringOf pool).length,
          Selector.fxHashIndex o.fxHash (userId.getD "anonymous") (ringOf pool).length + offset
            < 2 ^ 64 := by
        intro offset hoffset
        have hslot : Selector.fxHashIndex o.fxHash (userId.getD "anonymous") (ringOf pool).length
            < (ringOf pool).length := by
          unfold Selector.fxHashIndex
          rw [if_neg hpos.ne']
          exact Nat.mod_lt _ hpos
        have hlt := List.mem_range.1 hoffset
        have hsize := hroom.1
        rw [← length_ringOf] at hsize
        unfold maxCapacity at hsize
        omega
      -- A position the rule answers with has a member.
      have hserve : ∀ pos, position o pool userId = some pos →
          (do return some (← Checked.index pool pos) : Checked (Option Upstream)) =
            .ok (choose o pool userId) := by
        intro pos hposition
        rcases available_iff.1 ((settles_position o hpool userId).sound pos hposition).2 with
          ⟨up, hup, _⟩
        simp [Checked.index_ok hup, choose, hposition, hup]
      rw [if_neg hnone, pickP2c_eq (fun pos h => mem_ringOf.1 h) hpos,
        walk_eq hpos found _ hbound, havail]
      simp only [Checked.ok_bind]
      split
      · rename_i pos htwo
        apply hserve pos
        simp [position, slotRule, htwo]
      · rename_i htwo
        split
        · rename_i pos hwalk
          apply hserve pos
          simp [position, slotRule, rotation, htwo, hwalk]
        · rename_i hwalk
          have hposition : position o pool userId = none := by
            simp [position, slotRule, rotation, htwo, hwalk]
          simp [choose, hposition]

/-- Without room for the ring it stops. -/
theorem selectFrom_error {allocates : Nat → Bool} {pool : List Upstream} (hroom : ¬ RingFits allocates pool)
    (userId : Option String) : ∃ p, selectFrom allocates o pool userId = .error p ∧ NoRoom p := by
  have hpool : pool.isEmpty = false := by
    refine List.isEmpty_eq_false_iff.2 fun hnil => hroom ?_
    rw [hnil]
    exact ⟨Nat.zero_le _, Or.inl rfl⟩
  rcases buildWeightRingPositions_error hroom with ⟨p, herror, hp⟩
  refine ⟨p, ?_, hp⟩
  unfold selectFrom
  rw [hpool, if_neg Bool.false_ne_true, herror]
  rfl

/-- An answer is the rule's. -/
theorem choose_of_selectFrom {allocates : Nat → Bool} {pool : List Upstream} {userId : Option String}
    {pick : Option Upstream} (h : selectFrom allocates o pool userId = .ok pick) :
    RingFits allocates pool ∧ choose o pool userId = pick := by
  by_cases hroom : RingFits allocates pool
  · exact ⟨hroom, Except.ok.inj ((selectFrom_ok hroom userId).symm.trans h)⟩
  · rcases selectFrom_error (o := o) hroom userId with ⟨p, herror, -⟩
    rw [herror] at h
    cases h

/-! ## The stateful selection follows the same rule -/

/-- The picture shows what selection finds in the mapped files: `u` is their state before it asks for
usable addresses and `u'` the one in which the scores are read. -/
structure Shows (o : Outlook) (ctx : Selector.Context) (u u' : Selector.Usability) : Prop where
  fxHash : o.fxHash = ctx.fxHash
  usable : ∀ addr, o.usable addr = true ↔ Selector.Usable ctx addr u
  ema : ∀ addr, o.ema addr = Selector.getEma addr ctx.ema
  confidence : ∀ addr, o.confidence addr = CircuitBreaker.getConfidence ctx.fxHash addr u'.cb

namespace Shows

variable {ctx : Selector.Context} {u u' : Selector.Usability}

theorem score_eq (h : Shows o ctx u u') (addr : String) :
    score o addr = Selector.score ctx addr u' := by
  unfold score Selector.score
  rw [h.ema, h.confidence]

theorem pickP2c_eq (h : Shows o ctx u u') (pool : List Upstream) (a b : Nat) (healthy : List Nat) :
    Selector.pickP2c ctx pool a b healthy u' =
      twoChoice a b (secondWins o (addressAt pool a) (addressAt pool b))
        (fun pos => decide (pos ∈ healthy)) := by
  unfold Selector.pickP2c twoChoice secondWins addressAt
  simp only [h.score_eq, h.ema, decide_eq_true_eq]
  by_cases hboth : a ∈ healthy ∧ b ∈ healthy ∧ a ≠ b
  · rw [if_pos hboth, if_pos hboth]
    repeat' split
    all_goals simp_all
  · rw [if_neg hboth, if_neg hboth]

theorem available_iff (h : Shows o ctx u u') (pool : List Upstream) (pos : Nat) :
    available o pool pos = true ↔ Selector.GoodPosition ctx pool u pos := by
  rw [Pick.available_iff]
  refine exists_congr fun up => and_congr_right fun _ => h.usable up.address

/-- Past the scan of the ring nothing is touched any more. -/
theorem selectFrom_state {pool : List Upstream} (hpool : pool ≠ []) (userId : Option String) :
    (Selector.selectFrom ctx pool userId u).1 =
      (Selector.collectHealthyDistinct ctx pool (ringOf pool) u).1 := by
  unfold Selector.selectFrom
  rw [if_neg (by simpa using hpool)]
  dsimp only
  split
  · rfl
  · split
    · rfl
    · split
      · rfl
      · rfl

theorem selectFrom_eq (pool : List Upstream) (userId : Option String)
    (h : Shows o ctx u (Selector.selectFrom ctx pool userId u).1) :
    (Selector.selectFrom ctx pool userId u).2 = (choose o pool userId).map Upstream.address := by
  by_cases hpool : pool = []
  · subst hpool
    rw [choose_eq_none userId fun pos => by simp [available]]
    rfl
  · rw [selectFrom_state hpool] at h
    have hring : ∀ pos, pos ∈ ringOf pool ↔ pos < pool.length := fun pos => mem_ringOf
    have hspec := Selector.collectHealthyDistinct_spec ctx hring u
    have hfold : Selector.buildWeightRingPositions (pool.map fun up => max up.weight 1) =
        ringOf pool := rfl
    unfold Selector.selectFrom
    rw [if_neg (by simpa using hpool)]
    dsimp only
    rw [hfold]
    rcases hcollect : Selector.collectHealthyDistinct ctx pool (ringOf pool) u with ⟨u', healthy⟩
    rw [hcollect] at h hspec
    rw [← h.fxHash]
    have havail : (fun pos => decide (pos ∈ healthy)) = available o pool := by
      funext pos
      rw [Bool.eq_iff_iff, decide_eq_true_eq, h.available_iff pool pos]
      exact hspec.2 pos
    dsimp only
    by_cases hnone : healthy.isEmpty
    · rw [if_pos hnone, choose_of_none_found userId havail hnone]
      rfl
    · rw [if_neg hnone, h.pickP2c_eq, havail]
      have hserve : ∀ pos, position o pool userId = some pos →
          pool[pos]?.map Upstream.address = (choose o pool userId).map Upstream.address := by
        intro pos hposition
        simp [choose, hposition]
      split
      · rename_i pos htwo
        apply hserve pos
        simp [position, slotRule, htwo]
      · rename_i htwo
        split
        · rename_i pos hwalk
          apply hserve pos
          simp [position, slotRule, rotation, htwo, hwalk]
        · rename_i hwalk
          have hposition : position o pool userId = none := by
            simp [position, slotRule, rotation, htwo, hwalk]
          simp [choose, hposition]

end Shows

end Pick
end GatewayEdge
