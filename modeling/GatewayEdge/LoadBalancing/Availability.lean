import GatewayEdge.LoadBalancing.Selector
import GatewayEdge.Foundation.Lru

/-!
# Availability — which pools can serve, and with which addresses

Selection hashes users, splits canary traffic and weighs latencies, yet *whether* it finds an
upstream depends on none of that: some member of the region's pool has to be usable.  What it finds
is always the address of a member of that pool.
-/

namespace GatewayEdge
namespace Selector

variable (ctx : Context)

/-- Neither the breaker nor the health flag stands against the address. -/
def Usable (addr : String) (u : Usability) : Prop := (usable ctx addr u).2 = true

instance (addr : String) (u : Usability) : Decidable (Usable ctx addr u) :=
  inferInstanceAs (Decidable (_ = _))

/-! ## Asking does not change the answers -/

/-- The two states answer alike for every address. -/
structure SameAnswers (u u' : Usability) : Prop where
  cb : ∀ i, ((u'.cb i).isOpen ctx.now).2 = ((u.cb i).isOpen ctx.now).2
  health : ∀ i, Health.touch (u'.health i) = Health.touch (u.health i)

variable {ctx}

namespace SameAnswers

theorem refl (u : Usability) : SameAnswers ctx u u := ⟨fun _ => rfl, fun _ => rfl⟩

theorem trans {u v w : Usability} (h : SameAnswers ctx u v) (h' : SameAnswers ctx v w) :
    SameAnswers ctx u w :=
  ⟨fun i => (h'.cb i).trans (h.cb i), fun i => (h'.health i).trans (h.health i)⟩

/-- The answer is read off the address's two slots. -/
theorem usable_iff {u u' : Usability} (h : SameAnswers ctx u u') (addr : String) :
    Usable ctx addr u' ↔ Usable ctx addr u := by
  have hcb := h.cb (CircuitBreaker.slotOf ctx.fxHash addr)
  have hhealth := h.health (Health.slotOf ctx.fxHash addr)
  unfold Usable usable CircuitBreaker.isUpstreamOpen Health.isHealthy
  dsimp only
  rw [hcb, hhealth]
  cases ((u.cb (CircuitBreaker.slotOf ctx.fxHash addr)).isOpen ctx.now).2 <;> rfl

end SameAnswers

/-- A slot that the call has moved to HALF_OPEN let the call through and keeps letting calls through. -/
theorem isOpen_isOpen (now : Nat) (cb : CircuitBreaker.UpstreamCB) :
    ((cb.isOpen now).1.isOpen now).2 = (cb.isOpen now).2 := by
  by_cases hopen : cb.state = CircuitBreaker.stateOpen
  · by_cases hcool : now ≤ (cb.lastFailureTime + CircuitBreaker.resetTimeoutSecs) % 2 ^ 64
    · have hblocked : cb.isOpen now = (cb, true) := by
        rw [CircuitBreaker.UpstreamCB.isOpen, if_pos hopen, if_pos hcool]
      rw [hblocked, hblocked]
    · have hprobe : cb.isOpen now = ({ cb with state := CircuitBreaker.stateHalfOpen }, false) := by
        rw [CircuitBreaker.UpstreamCB.isOpen, if_pos hopen, if_neg hcool]
      rw [hprobe]
      rfl
  · have hpass : cb.isOpen now = (cb, false) := by
      rw [CircuitBreaker.UpstreamCB.isOpen, if_neg hopen]
    rw [hpass, hpass]

theorem touch_touch (h : Health.UpstreamHealth) : Health.touch (Health.touch h) = Health.touch h := by
  unfold Health.touch
  by_cases hfresh : h.lastCheckMs = 0 ∧ h.healthy = 0
  · simp [hfresh]
  · simp [hfresh]

variable (ctx) in
theorem usable_sameAnswers (addr : String) (u : Usability) :
    SameAnswers ctx u (usable ctx addr u).1 := by
  have hcb : ∀ i, ((Function.update u.cb (CircuitBreaker.slotOf ctx.fxHash addr)
      ((u.cb (CircuitBreaker.slotOf ctx.fxHash addr)).isOpen ctx.now).1 i).isOpen ctx.now).2 =
        ((u.cb i).isOpen ctx.now).2 := by
    intro i
    by_cases hi : i = CircuitBreaker.slotOf ctx.fxHash addr
    · subst hi
      simpa using isOpen_isOpen ctx.now _
    · simp [Function.update_of_ne hi]
  have hhealth : ∀ i, Health.touch (Function.update u.health (Health.slotOf ctx.fxHash addr)
      (Health.touch (u.health (Health.slotOf ctx.fxHash addr))) i) = Health.touch (u.health i) := by
    intro i
    by_cases hi : i = Health.slotOf ctx.fxHash addr
    · subst hi
      simpa using touch_touch _
    · simp [Function.update_of_ne hi]
  unfold usable CircuitBreaker.isUpstreamOpen Health.isHealthy
  dsimp only
  cases ((u.cb (CircuitBreaker.slotOf ctx.fxHash addr)).isOpen ctx.now).2 with
  | true => exact ⟨hcb, fun _ => rfl⟩
  | false => exact ⟨hcb, hhealth⟩

/-! ## The scan of the ring -/

theorem mem_buildWeightRingPositions {weights : List Nat} {pos : Nat} :
    pos ∈ buildWeightRingPositions weights ↔ pos < weights.length := by
  unfold buildWeightRingPositions
  constructor
  · intro h
    rcases List.mem_flatMap.1 h with ⟨⟨weight, i⟩, hmem, hrep⟩
    have hi : pos = i := (List.mem_replicate.1 hrep).2
    rcases List.mem_zipIdx' hmem with ⟨hlt, _⟩
    exact hi ▸ hlt
  · intro h
    refine List.mem_flatMap.2 ⟨(weights[pos], pos), ?_, ?_⟩
    · exact List.mem_zipIdx_iff_getElem?.2 (List.getElem?_eq_getElem h)
    · have hweight : max weights[pos] 1 ≠ 0 := by omega
      exact List.mem_replicate.2 ⟨hweight, rfl⟩

/-- A position with an upstream that is usable. -/
def GoodPosition (ctx : Context) (pool : List Upstream) (u : Usability) (pos : Nat) : Prop :=
  ∃ up, pool[pos]? = some up ∧ Usable ctx up.address u

variable (ctx) in
/-- The scan collects what it had and the good positions it has not seen yet. -/
theorem collectHealthy_spec (pool : List Upstream) (ring : List Nat) :
    ∀ (seen healthy : List Nat) (u : Usability),
      SameAnswers ctx u (collectHealthy ctx pool ring seen healthy u).1 ∧
      ∀ pos, pos ∈ (collectHealthy ctx pool ring seen healthy u).2 ↔
        pos ∈ healthy ∨ (pos ∈ ring ∧ pos ∉ seen ∧ GoodPosition ctx pool u pos) := by
  induction ring with
  | nil =>
      intro seen healthy u
      exact ⟨SameAnswers.refl u, fun pos => by simp [collectHealthy]⟩
  | cons q ring ih =>
      intro seen healthy u
      unfold collectHealthy
      by_cases hseen : q ∈ seen
      · rcases ih seen healthy u with ⟨hsame, hmem⟩
        rw [if_pos hseen]
        refine ⟨hsame, fun pos => ?_⟩
        rw [hmem pos]
        by_cases hpos : pos = q
        · simp [hpos, hseen]
        · simp [hpos]
      · rw [if_neg hseen]
        cases hq : pool[q]? with
        | none =>
            rcases ih (q :: seen) healthy u with ⟨hsame, hmem⟩
            refine ⟨hsame, fun pos => ?_⟩
            rw [hmem pos]
            by_cases hpos : pos = q
            · subst hpos
              simp [GoodPosition, hq]
            · simp [hpos]
        | some up =>
            have huse := usable_sameAnswers ctx up.address u
            dsimp only
            rcases hanswer : usable ctx up.address u with ⟨u', answer⟩
            rw [hanswer] at huse
            -- The later questions are answered as they would have been before this one.
            have hgood : ∀ pos, GoodPosition ctx pool u' pos ↔ GoodPosition ctx pool u pos := by
              intro pos
              simp only [GoodPosition, huse.usable_iff]
            cases answer with
            | true =>
                have hus : Usable ctx up.address u := by simp [Usable, hanswer]
                rcases ih (q :: seen) (q :: healthy) u' with ⟨hsame, hmem⟩
                refine ⟨huse.trans hsame, fun pos => ?_⟩
                rw [hmem pos, hgood]
                by_cases hpos : pos = q
                · subst hpos
                  simp [GoodPosition, hq, hus, hseen]
                · simp [hpos]
            | false =>
                have hus : ¬ Usable ctx up.address u := by simp [Usable, hanswer]
                rcases ih (q :: seen) healthy u' with ⟨hsame, hmem⟩
                refine ⟨huse.trans hsame, fun pos => ?_⟩
                rw [hmem pos, hgood]
                by_cases hpos : pos = q
                · subst hpos
                  simp [GoodPosition, hq, hus]
                · simp [hpos]

/-! ## Selection from a pool -/

/-- What a selection from `pool` can answer: the address of a usable member, and `none` only when no
member is usable. -/
structure Served (ctx : Context) (pool : List Upstream) (u : Usability)
    (r : Usability × Option String) : Prop where
  sameAnswers : SameAnswers ctx u r.1
  member : ∀ addr, r.2 = some addr → ∃ up ∈ pool, up.address = addr ∧ Usable ctx addr u
  available : (∃ up ∈ pool, Usable ctx up.address u) → r.2.isSome = true

theorem Served.isSome_iff {pool : List Upstream} {u : Usability} {r : Usability × Option String}
    (h : Served ctx pool u r) : r.2.isSome = true ↔ ∃ up ∈ pool, Usable ctx up.address u := by
  refine ⟨fun hsome => ?_, h.available⟩
  rcases Option.isSome_iff_exists.1 hsome with ⟨addr, haddr⟩
  rcases h.member addr haddr with ⟨up, hup, rfl, huse⟩
  exact ⟨up, hup, huse⟩

/-- Only the membership in the pool matters. -/
theorem Served.congr {pool pool' : List Upstream} {u : Usability} {r : Usability × Option String}
    (h : Served ctx pool u r) (hpool : ∀ up, up ∈ pool ↔ up ∈ pool') : Served ctx pool' u r where
  sameAnswers := h.sameAnswers
  member addr haddr := by
    rcases h.member addr haddr with ⟨up, hup, hrest⟩
    exact ⟨up, (hpool up).1 hup, hrest⟩
  available := by
    rintro ⟨up, hup, huse⟩
    exact h.available ⟨up, (hpool up).2 hup, huse⟩

theorem pickP2c_mem {pool : List Upstream} {a b pos : Nat} {healthy : List Nat} {u : Usability}
    (h : pickP2c ctx pool a b healthy u = some pos) : pos ∈ healthy := by
  unfold pickP2c at h
  dsimp only at h
  by_cases hboth : a ∈ healthy ∧ b ∈ healthy ∧ a ≠ b
  · have hab : pos = a ∨ pos = b := by
      rw [if_pos hboth] at h
      repeat' split at h
      all_goals simp only [Option.some.injEq] at h
      all_goals simp [h]
    rcases hab with rfl | rfl
    · exact hboth.1
    · exact hboth.2.1
  · rw [if_neg hboth] at h
    by_cases ha : a ∈ healthy
    · rw [if_pos ha] at h
      exact Option.some.inj h ▸ ha
    · rw [if_neg ha] at h
      by_cases hb : b ∈ healthy
      · rw [if_pos hb] at h
        exact Option.some.inj h ▸ hb
      · rw [if_neg hb] at h
        cases h

/-- The failover walk passes every position of the ring. -/
theorem mem_walk {ring : List Nat} {pos : Nat} (start : Nat) (h : pos ∈ ring) :
    pos ∈ (List.range ring.length).filterMap fun offset =>
      ring[(start + offset) % ring.length]? := by
  rcases List.getElem_of_mem h with ⟨i, hi, rfl⟩
  have hmod : start % ring.length < ring.length := Nat.mod_lt _ (by omega)
  -- The offset that leads from the start to position `i`, once around if need be.
  refine List.mem_filterMap.2
    ⟨(i + (ring.length - start % ring.length)) % ring.length, List.mem_range.2 (Nat.mod_lt _ (by omega)), ?_⟩
  have hstep : (start + (i + (ring.length - start % ring.length)) % ring.length) % ring.length = i := by
    have hsum : start % ring.length + (i + (ring.length - start % ring.length)) = i + ring.length := by
      omega
    rw [Nat.add_mod_mod, ← Nat.mod_add_mod, hsum, Nat.add_mod_right, Nat.mod_eq_of_lt hi]
  rw [hstep, List.getElem?_eq_getElem hi]

variable (ctx) in
/-- A scan over a ring of all positions finds the good ones. -/
theorem collectHealthyDistinct_spec {pool : List Upstream} {ring : List Nat}
    (hring : ∀ pos, pos ∈ ring ↔ pos < pool.length) (u : Usability) :
    SameAnswers ctx u (collectHealthyDistinct ctx pool ring u).1 ∧
      ∀ pos, pos ∈ (collectHealthyDistinct ctx pool ring u).2 ↔ GoodPosition ctx pool u pos := by
  rcases collectHealthy_spec ctx pool ring [] [] u with ⟨hsame, hspec⟩
  refine ⟨hsame, fun pos => ?_⟩
  unfold collectHealthyDistinct
  rw [hspec pos]
  constructor
  · rintro (h | ⟨_, _, h⟩)
    · cases h
    · exact h
  · rintro ⟨up, hup, huse⟩
    have hlt : pos < pool.length := (List.getElem?_eq_some_iff.1 hup).1
    exact Or.inr ⟨(hring pos).2 hlt, by simp, up, hup, huse⟩

/-- A good position has an address, and it is that of a usable member. -/
theorem served_at {pool : List Upstream} {u u' : Usability} {pos : Nat} (hsame : SameAnswers ctx u u')
    (h : GoodPosition ctx pool u pos) : Served ctx pool u (u', pool[pos]?.map Upstream.address) := by
  rcases h with ⟨up, hup, huse⟩
  rw [hup]
  exact
    { sameAnswers := hsame
      member := fun addr h => ⟨up, List.mem_of_getElem? hup, Option.some.inj h, Option.some.inj h ▸ huse⟩
      available := fun _ => rfl }

variable (ctx) in
theorem selectFrom_served (pool : List Upstream) (userId : Option String) (u : Usability) :
    Served ctx pool u (selectFrom ctx pool userId u) := by
  unfold selectFrom
  by_cases hempty : pool.isEmpty
  · have hnil : pool = [] := by simpa using hempty
    rw [if_pos hempty, hnil]
    exact
      { sameAnswers := SameAnswers.refl u
        member := fun addr h => by cases h
        available := fun ⟨up, hup, _⟩ => by cases hup }
  · rw [if_neg hempty]
    dsimp only
    generalize hring : buildWeightRingPositions (pool.map fun up => max up.weight 1) = ring
    have hmemRing : ∀ pos, pos ∈ ring ↔ pos < pool.length := by
      intro pos
      rw [← hring, mem_buildWeightRingPositions, List.length_map]
    have hspec := collectHealthyDistinct_spec ctx hmemRing u
    rcases hcollect : collectHealthyDistinct ctx pool ring u with ⟨u', healthy⟩
    rw [hcollect] at hspec
    rcases hspec with ⟨hsame, hhealthy⟩
    have hpick : ∀ pos ∈ healthy, Served ctx pool u (u', pool[pos]?.map Upstream.address) :=
      fun pos hpos => served_at hsame ((hhealthy pos).1 hpos)
    dsimp only
    by_cases hnone : healthy.isEmpty
    · have hnil : healthy = [] := by simpa using hnone
      rw [if_pos hnone]
      refine ⟨hsame, fun addr h => by simp at h, ?_⟩
      rintro ⟨up, hup, huse⟩
      rcases List.mem_iff_getElem?.1 hup with ⟨pos, hpos⟩
      have hmem : pos ∈ healthy := (hhealthy pos).2 ⟨up, hpos, huse⟩
      rw [hnil] at hmem
      cases hmem
    · rw [if_neg hnone]
      split
      · rename_i pos hp2c
        exact hpick pos (pickP2c_mem hp2c)
      · split
        · rename_i pos hwalk
          exact hpick pos (by simpa using List.find?_some hwalk)
        · rename_i hwalk
          -- The walk would have met any healthy position.
          rcases List.exists_mem_of_ne_nil healthy (by simpa using hnone) with ⟨pos, hpos⟩
          have hring' : pos ∈ ring := by
            rcases (hhealthy pos).1 hpos with ⟨up, hup, _⟩
            exact (hmemRing pos).2 (List.getElem?_eq_some_iff.1 hup).1
          have habsurd := List.find?_eq_none.1 hwalk pos (mem_walk _ hring')
          simp [hpos] at habsurd

theorem selectOrElse_served (first second : List Upstream) (userId : Option String) (u : Usability) :
    Served ctx (first ++ second) u (selectOrElse ctx first second userId u) := by
  have hone := selectFrom_served ctx first userId u
  unfold selectOrElse
  rcases hs : selectFrom ctx first userId u with ⟨u', answer⟩
  rw [hs] at hone
  cases answer with
  | some addr =>
      refine { sameAnswers := hone.sameAnswers, member := fun a ha => ?_, available := fun _ => rfl }
      rcases hone.member a ha with ⟨up, hup, hrest⟩
      exact ⟨up, List.mem_append_left _ hup, hrest⟩
  | none =>
      have htwo := selectFrom_served ctx second userId u'
      refine
        { sameAnswers := hone.sameAnswers.trans htwo.sameAnswers, member := fun a ha => ?_,
          available := ?_ }
      · rcases htwo.member a ha with ⟨up, hup, haddr, huse⟩
        exact ⟨up, List.mem_append_right _ hup, haddr, (hone.sameAnswers.usable_iff a).1 huse⟩
      · rintro ⟨up, hup, huse⟩
        rcases List.mem_append.1 hup with hfirst | hsecond
        · cases hone.available ⟨up, hfirst, huse⟩
        · exact htwo.available ⟨up, hsecond, (hone.sameAnswers.usable_iff _).2 huse⟩

/-- The pool a region names; a region without an entry has none. -/
def regionPool (svc : ServiceConfig) (region : String) : List Upstream :=
  (svc.regionalUpstreams.lookup region).getD []

/-- Whatever the canary split, the hash and the scores say, the answer is the address of a usable member
of the region's pool, and there is one as soon as some member is usable. -/
theorem selectUpstream_served (svc : ServiceConfig) (region : String) (userId : Option String)
    (canaryHint : String) (u : Usability) :
    Served ctx (regionPool svc region) u (selectUpstream ctx svc region userId canaryHint u) := by
  have hnone : Served ctx [] u (u, none) :=
    { sameAnswers := SameAnswers.refl u
      member := fun addr h => by cases h
      available := fun ⟨up, hup, _⟩ => by cases hup }
  unfold selectUpstream regionPool
  cases svc.regionalUpstreams.lookup region with
  | none => exact hnone
  | some pool =>
      dsimp only [Option.getD_some]
      by_cases hempty : pool.isEmpty
      · have hnil : pool = [] := by simpa using hempty
        rw [if_pos hempty, hnil]
        exact hnone
      · rw [if_neg hempty]
        cases svc.canary.filter (fun p => p.version ≠ "") with
        | none => exact selectFrom_served ctx pool userId u
        | some policy =>
            dsimp only
            generalize hcanary : pool.filter (fun up => up.version = policy.version) = canary
            generalize hstable : pool.filter (fun up => up.version ≠ policy.version) = stable
            -- The split loses nobody and adds nobody.
            have hsplit : ∀ up, up ∈ canary ++ stable ↔ up ∈ pool := by
              intro up
              rw [← hcanary, ← hstable, List.mem_append, List.mem_filter, List.mem_filter]
              by_cases hversion : up.version = policy.version
              · simp [hversion]
              · simp [hversion]
            have hsplit' : ∀ up, up ∈ stable ++ canary ↔ up ∈ pool := by
              intro up
              rw [← hsplit up, List.mem_append, List.mem_append, or_comm]
            by_cases hcanaryNil : canary.isEmpty
            · have hnil : canary = [] := by simpa using hcanaryNil
              rw [if_pos hcanaryNil]
              exact (selectFrom_served ctx stable userId u).congr (by simpa [hnil] using hsplit)
            · rw [if_neg hcanaryNil]
              by_cases hstableNil : stable.isEmpty
              · have hnil : stable = [] := by simpa using hstableNil
                rw [if_pos hstableNil]
                exact (selectFrom_served ctx canary userId u).congr (by simpa [hnil] using hsplit)
              · rw [if_neg hstableNil]
                split
                · exact (selectOrElse_served canary stable userId u).congr hsplit
                · exact (selectOrElse_served stable canary userId u).congr hsplit'

/-- Whether a region can be served is a matter of its pool alone. -/
theorem selectUpstream_isSome_iff (svc : ServiceConfig) (region : String) (userId : Option String)
    (canaryHint : String) (u : Usability) :
    (selectUpstream ctx svc region userId canaryHint u).2.isSome = true ↔
      ∃ up ∈ regionPool svc region, Usable ctx up.address u :=
  (selectUpstream_served svc region userId canaryHint u).isSome_iff

end Selector
end GatewayEdge
