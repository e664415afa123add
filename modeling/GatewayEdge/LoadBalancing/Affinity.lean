import GatewayEdge.LoadBalancing.Pick

/-!
# Affinity — what users can rely on while upstreams come and go

Selection tries one or two pools in turn.  From the two properties of the rule that picks within a
pool it follows that a selection finds a usable member whenever there is one, that the failure of an
upstream moves nobody but its own users, and that a canary rollout only ever adds users to the
canary.

All of it holds as far as the allocator has room for the rings; without room the process stops, and
nothing else makes it stop.
-/

namespace GatewayEdge
namespace Pick

open Foundation
open Foundation.Checked (NoRoom)
open Selector (regionPool)

/-! ## The pools a selection tries -/

/-- Pools tried in turn; a later one is not looked at when an earlier one serves. -/
def tryPools (allocates : Nat → Bool) (o : Outlook) (userId : Option String) :
    List (List Upstream) → Checked (Option Upstream)
  | [] => .ok none
  | pool :: pools => do
    match ← selectFrom allocates o pool userId with
    | some up => return some up
    | none => tryPools allocates o userId pools

/-- The bucket of a user, of ten thousand. -/
def bucketOf (fxHash : String → Nat) (userId : Option String) : Nat :=
  Selector.fxHashIndex fxHash (userId.getD "anonymous" ++ ":canary") 10000 % 2 ^ 32

def labelled (version : String) (pool : List Upstream) : List Upstream :=
  pool.filter fun up => up.version = version

def unlabelled (version : String) (pool : List Upstream) : List Upstream :=
  pool.filter fun up => up.version ≠ version

/-- The pools `select_upstream` tries, in its order. -/
def tried (fxHash : String → Nat) (svc : ServiceConfig) (region : String) (userId : Option String)
    (canaryHint : String) : List (List Upstream) :=
  let pool := regionPool svc region
  match svc.canary.filter (fun p => p.version ≠ "") with
  | none => [pool]
  | some policy =>
    let canary := labelled policy.version pool
    let stable := unlabelled policy.version pool
    if canary.isEmpty then [stable]
    else if stable.isEmpty then [canary]
    else if canaryHint = policy.version ∨ bucketOf fxHash userId < policy.effectivePercent * 100 then
      [canary, stable]
    else [stable, canary]

variable {allocates : Nat → Bool} {o o' : Outlook} {userId : Option String}

theorem tryPools_single (pool : List Upstream) :
    tryPools allocates o userId [pool] = selectFrom allocates o pool userId := by
  unfold tryPools tryPools
  cases selectFrom allocates o pool userId with
  | error p => rfl
  | ok pick => cases pick <;> rfl

theorem tryPools_pair (first second : List Upstream) :
    tryPools allocates o userId [first, second] = selectOrElse allocates o first second userId := by
  have hlast : tryPools allocates o userId [second] = selectFrom allocates o second userId := tryPools_single second
  unfold tryPools selectOrElse
  cases selectFrom allocates o first userId with
  | error p => rfl
  | ok pick =>
      cases pick with
      | none => exact hlast
      | some up => rfl

theorem bucketIn_eq (policy : CanaryPolicy) :
    bucketIn o userId policy =
      .ok (decide (bucketOf o.fxHash userId < policy.effectivePercent * 100)) := by
  unfold bucketIn
  rw [fxHashIndex_eq]
  rfl

theorem tried_of_empty {fxHash : String → Nat} {svc : ServiceConfig} {region : String}
    (canaryHint : String) (h : regionPool svc region = []) :
    tried fxHash svc region userId canaryHint = [[]] := by
  unfold tried
  rw [h]
  cases svc.canary.filter (fun p => p.version ≠ "") with
  | none => rfl
  | some policy => rfl

theorem selectMember_eq (svc : ServiceConfig) (region : String) (canaryHint : String) :
    selectMember allocates o svc region userId canaryHint =
      tryPools allocates o userId (tried o.fxHash svc region userId canaryHint) := by
  have hnone : tryPools allocates o userId [[]] = .ok none := rfl
  unfold selectMember
  cases hlookup : svc.regionalUpstreams.lookup region with
  | none =>
      rw [tried_of_empty canaryHint (by simp [regionPool, hlookup]), hnone]
  | some pool =>
      have hpool : regionPool svc region = pool := by simp [regionPool, hlookup]
      dsimp only
      by_cases hempty : pool.isEmpty
      · rw [if_pos hempty, tried_of_empty canaryHint (by simpa [hpool] using hempty), hnone]
      · rw [if_neg hempty]
        unfold tried
        rw [hpool]
        cases svc.canary.filter (fun p => p.version ≠ "") with
        | none => exact (tryPools_single pool).symm
        | some policy =>
            simp only [bucketIn_eq, Checked.ok_bind, decide_eq_true_eq]
            change (if (labelled policy.version pool).isEmpty then _ else
              if (unlabelled policy.version pool).isEmpty then _ else _) = _
            by_cases hcanary : (labelled policy.version pool).isEmpty
            · rw [if_pos hcanary, if_pos hcanary]
              exact (tryPools_single _).symm
            · rw [if_neg hcanary, if_neg hcanary]
              by_cases hstable : (unlabelled policy.version pool).isEmpty
              · rw [if_pos hstable, if_pos hstable]
                exact (tryPools_single _).symm
              · rw [if_neg hstable, if_neg hstable]
                split
                · exact (tryPools_pair _ _).symm
                · exact (tryPools_pair _ _).symm

/-! ## Soundness and completeness -/

/-- A member of one of the pools. -/
def Offered (pools : List (List Upstream)) (up : Upstream) : Prop := ∃ pool ∈ pools, up ∈ pool

/-- The pools whose rings are built: up to the first that serves. -/
def reached (o : Outlook) : List (List Upstream) → List (List Upstream)
  | [] => []
  | pool :: pools => pool :: if pool.any fun up => o.usable up.address then [] else reached o pools

/-- A pool that serves nobody has no usable member. -/
theorem any_usable_eq (userId : Option String) (pool : List Upstream) :
    (pool.any fun up => o.usable up.address) = (choose o pool userId).isSome := by
  have hsettles := settles_choose o pool userId
  rw [Bool.eq_iff_iff, List.any_eq_true, Option.isSome_iff_ne_none, ne_eq, hsettles.isNone_iff]
  constructor
  · rintro ⟨up, hup, husable⟩ hgone
    rw [hgone up hup] at husable
    cases husable
  · intro hsome
    by_contra hnobody
    exact hsome fun up hup => by
      rw [← Bool.not_eq_true]
      exact fun husable => hnobody ⟨up, hup, husable⟩

/-- Trying the pools in turn settles what they offer together if there is room for the rings that are built,
and stops for want of room if there is not. -/
theorem tryPools_settles (allocates : Nat → Bool) (o : Outlook) (userId : Option String)
    (pools : List (List Upstream)) :
    ((∀ pool ∈ reached o pools, RingFits allocates pool) ∧
        ∃ pick, tryPools allocates o userId pools = .ok pick ∧
          Settles (Offered pools) (fun up => o.usable up.address) pick) ∨
      ((∃ pool ∈ reached o pools, ¬ RingFits allocates pool) ∧
        ∃ p, tryPools allocates o userId pools = .error p ∧ NoRoom p) := by
  induction pools with
  | nil =>
      refine Or.inl ⟨fun pool hpool => absurd hpool List.not_mem_nil, none, rfl, ⟨?_, ?_⟩⟩
      · intro up hup
        cases hup
      · rintro - up ⟨pool, hpool, -⟩
        exact absurd hpool List.not_mem_nil
  | cons pool pools ih =>
      have hmenu : ∀ up, (up ∈ pool ∨ Offered pools up) ↔ Offered (pool :: pools) up := by
        intro up
        simp [Offered]
      unfold tryPools reached
      rw [any_usable_eq userId pool]
      by_cases hfits : RingFits allocates pool
      · rw [selectFrom_ok hfits, Checked.ok_bind]
        have hfirst := settles_choose o pool userId
        cases hchoose : choose o pool userId with
        | some up =>
            refine Or.inl ⟨?_, some up, rfl, fun other hother => ?_, fun hnone => by cases hnone⟩
            · intro pool' hpool'
              rw [List.mem_singleton.1 hpool']
              exact hfits
            · have hup := hfirst.sound other (hchoose.trans hother)
              exact ⟨(hmenu other).1 (Or.inl hup.1), hup.2⟩
        | none =>
            rcases ih with ⟨hroom, pick, hpick, hsettles⟩ | ⟨⟨pool', hpool', hlarge⟩, herror⟩
            · refine Or.inl ⟨List.forall_mem_cons.2 ⟨hfits, hroom⟩, pick, hpick, ?_⟩
              have hboth := hfirst.orElse hsettles
              rw [hchoose, Option.none_or] at hboth
              exact hboth.congr hmenu
            · exact Or.inr ⟨⟨pool', List.mem_cons_of_mem _ hpool', hlarge⟩, herror⟩
      · rcases selectFrom_error (o := o) hfits userId with ⟨p, herror, hp⟩
        rw [herror]
        exact Or.inr ⟨⟨pool, List.mem_cons_self, hfits⟩, p, rfl, hp⟩

/-- The canary split loses nobody and adds nobody. -/
theorem offered_tried (fxHash : String → Nat) (svc : ServiceConfig) (region : String)
    (canaryHint : String) (up : Upstream) :
    Offered (tried fxHash svc region userId canaryHint) up ↔ up ∈ regionPool svc region := by
  unfold tried
  generalize regionPool svc region = pool
  cases svc.canary.filter (fun p => p.version ≠ "") with
  | none => simp [Offered]
  | some policy =>
      have hsplit : up ∈ pool ↔
          up ∈ labelled policy.version pool ∨ up ∈ unlabelled policy.version pool := by
        by_cases hversion : up.version = policy.version
        · simp [labelled, unlabelled, hversion]
        · simp [labelled, unlabelled, hversion]
      rw [hsplit]
      dsimp only
      by_cases hcanary : (labelled policy.version pool).isEmpty
      · have hnil : labelled policy.version pool = [] := by simpa using hcanary
        simp [Offered, hnil]
      · by_cases hstable : (unlabelled policy.version pool).isEmpty
        · have hnil : unlabelled policy.version pool = [] := by simpa using hstable
          simp [Offered, hcanary, hnil]
        · rw [if_neg hcanary, if_neg hstable]
          split
          · simp [Offered]
          · simp [Offered, or_comm]

/-- What a selection promises: the answer is the address of a usable member of the region's pool, and
there is one unless no member is usable or the region has no pool. -/
structure SoundAndComplete (o : Outlook) (svc : ServiceConfig) (region : String)
    (pick : Option String) : Prop where
  sound : ∀ addr, pick = some addr →
    ∃ up ∈ regionPool svc region, up.address = addr ∧ o.usable addr = true
  complete : pick = none ↔ ∀ up ∈ regionPool svc region, o.usable up.address = false

/-- Selection keeps its promise if there is room for each ring it builds, and otherwise stops for want of room.
It stops for no other reason: no index is out of bounds, no remainder is by zero and no sum of slots
overflows. -/
theorem selectUpstream_sound_complete (allocates : Nat → Bool) (o : Outlook) (svc : ServiceConfig)
    (region : String) (userId : Option String) (canaryHint : String) :
    ((∀ pool ∈ reached o (tried o.fxHash svc region userId canaryHint), RingFits allocates pool) ∧
        ∃ pick, selectUpstream allocates o svc region userId canaryHint = .ok pick ∧
          SoundAndComplete o svc region pick) ∨
      ((∃ pool ∈ reached o (tried o.fxHash svc region userId canaryHint), ¬ RingFits allocates pool) ∧
        ∃ p, selectUpstream allocates o svc region userId canaryHint = .error p ∧ NoRoom p) := by
  unfold selectUpstream
  rw [selectMember_eq]
  rcases tryPools_settles allocates o userId (tried o.fxHash svc region userId canaryHint) with
    ⟨hroom, pick, hpick, hsettles⟩ | ⟨hlarge, p, herror, hp⟩
  · refine Or.inl ⟨hroom, pick.map Upstream.address, by rw [hpick]; rfl, ?_, ?_⟩
    · intro addr haddr
      rcases Option.map_eq_some_iff.1 haddr with ⟨up, hup, rfl⟩
      rcases hsettles.sound up hup with ⟨hoffered, husable⟩
      exact ⟨up, (offered_tried _ svc region canaryHint up).1 hoffered, rfl, husable⟩
    · rw [Option.map_eq_none_iff, hsettles.isNone_iff]
      refine forall_congr' fun up => ?_
      rw [offered_tried]
  · exact Or.inr ⟨hlarge, p, by rw [herror]; rfl, hp⟩

/-- A stable member and a canary member of the given weight. -/
def splitService (weight : Nat) : ServiceConfig where
  name := "default"
  rateLimitMax := 1000
  requireAuth := false
  regionalUpstreams :=
    [("US", [{ name := "stable-a", address := "stable-a:8080", weight := 9, version := "stable" },
      { name := "canary-b", address := "canary-b:8080", weight := weight, version := "v2" }])]

/-- Every address usable, and all of them alike. -/
def allUp (hash : Nat) : Outlook where
  fxHash _ := hash
  usable _ := true
  ema _ := .num 0
  confidence _ := 100

/-- A pool without a usable member and with one of weight `2 ^ 60`: there is no upstream to find, and whatever
the allocator has room for the process panics instead of finding none.  At weight `2 ^ 56` it is aborted by an
allocator that has no room for half an exabyte. -/
theorem heavy_pool_panics :
    let down : Outlook := { allUp 2600 with usable := fun _ => false }
    ((regionPool (splitService (2 ^ 60)) "US").map Upstream.weight).sum < 2 ^ 64 ∧
      (∀ weight, ∀ up ∈ regionPool (splitService weight) "US", down.usable up.address = false) ∧
      (∀ allocates, selectUpstream allocates down (splitService (2 ^ 60)) "US" none "" =
        .error .capacityOverflow) ∧
      selectUpstream (fun slots => slots < 2 ^ 48) down (splitService (2 ^ 56)) "US" none "" =
        .error .allocationRefused := by
  refine ⟨by decide, fun _ _ _ => rfl, fun allocates => rfl, rfl⟩

/-! ## The stateful selection answers the same -/

namespace Shows

variable {ctx : Selector.Context} {u : Selector.Usability}

theorem selectFrom_of_ok {pool : List Upstream} {pick : Option Upstream}
    (h : Shows o ctx u (Selector.selectFrom ctx pool userId u).1)
    (hpick : selectFrom allocates o pool userId = .ok pick) :
    (Selector.selectFrom ctx pool userId u).2 = pick.map Upstream.address := by
  rw [h.selectFrom_eq, (choose_of_selectFrom hpick).2]

theorem selectOrElse_of_ok {first second : List Upstream} {pick : Option Upstream}
    (h : Shows o ctx u (Selector.selectOrElse ctx first second userId u).1)
    (hpick : selectOrElse allocates o first second userId = .ok pick) :
    (Selector.selectOrElse ctx first second userId u).2 = pick.map Upstream.address := by
  have hserved := Selector.selectFrom_served ctx first userId u
  unfold Selector.selectOrElse at h ⊢
  unfold selectOrElse at hpick
  cases hfirst : selectFrom allocates o first userId with
  | error p =>
      rw [hfirst] at hpick
      cases hpick
  | ok one =>
      rw [hfirst, Checked.ok_bind] at hpick
      have hone : one = choose o first userId := (choose_of_selectFrom hfirst).2.symm
      rcases hstate : Selector.selectFrom ctx first userId u with ⟨u', answer⟩
      rw [hstate] at h hserved
      cases answer with
      | some addr =>
          have hshown := selectFrom_of_ok (by rw [hstate]; exact h) hfirst
          rw [hstate] at hshown
          cases one with
          | none => cases hshown
          | some up =>
              rw [← Except.ok.inj hpick]
              exact hshown
      | none =>
          -- Nobody in the first pool was usable, so the rule found nobody there either.
          have hnobody : choose o first userId = none := by
            apply (settles_choose o first userId).isNone_iff.2
            intro up hup
            by_contra husable
            have hgood := (h.usable up.address).1 (by simpa using husable)
            have hsome := hserved.available ⟨up, hup, hgood⟩
            cases hsome
          rw [hone, hnobody] at hpick
          refine selectFrom_of_ok ?_ hpick
          exact
            { fxHash := h.fxHash, ema := h.ema, confidence := h.confidence
              usable := fun addr => (h.usable addr).trans (hserved.sameAnswers.usable_iff addr).symm }

/-- Whenever the checked selection answers, the selection on the mapped files gives the same answer. -/
theorem selectUpstream_of_ok {svc : ServiceConfig} {region canaryHint : String}
    {pick : Option String}
    (h : Shows o ctx u (Selector.selectUpstream ctx svc region userId canaryHint u).1)
    (hpick : selectUpstream allocates o svc region userId canaryHint = .ok pick) :
    (Selector.selectUpstream ctx svc region userId canaryHint u).2 = pick := by
  cases hmember : selectMember allocates o svc region userId canaryHint with
  | error p =>
      simp [selectUpstream, hmember, Except.map] at hpick
  | ok member =>
      have hmap : member.map Upstream.address = pick := by
        simpa [selectUpstream, hmember, Except.map] using hpick
      rw [← hmap]
      unfold Selector.selectUpstream at h ⊢
      unfold selectMember at hmember
      cases hlookup : svc.regionalUpstreams.lookup region with
      | none =>
          rw [hlookup] at hmember
          rw [← Except.ok.inj hmember]
          rfl
      | some pool =>
          rw [hlookup] at h hmember
          dsimp only at h hmember ⊢
          by_cases hempty : pool.isEmpty
          · rw [if_pos hempty] at hmember ⊢
            rw [← Except.ok.inj hmember]
            rfl
          · rw [if_neg hempty] at h hmember ⊢
            cases hpolicy : svc.canary.filter (fun p => p.version ≠ "") with
            | none =>
                rw [hpolicy] at h hmember
                exact selectFrom_of_ok h hmember
            | some policy =>
                rw [hpolicy] at h hmember
                simp only [bucketIn_eq, Checked.ok_bind, decide_eq_true_eq] at hmember
                have hbucket : bucketOf o.fxHash userId =
                    Selector.fxHashIndex ctx.fxHash (userId.getD "anonymous" ++ ":canary") 10000
                      % 2 ^ 32 := by
                  rw [← h.fxHash]
                  rfl
                rw [hbucket] at hmember
                dsimp only at h ⊢
                by_cases hcanary : (pool.filter fun up => up.version = policy.version).isEmpty
                · rw [if_pos hcanary] at h hmember ⊢
                  exact selectFrom_of_ok h hmember
                · rw [if_neg hcanary] at h hmember ⊢
                  by_cases hstable : (pool.filter fun up => up.version ≠ policy.version).isEmpty
                  · rw [if_pos hstable] at h hmember ⊢
                    exact selectFrom_of_ok h hmember
                  · rw [if_neg hstable] at h hmember ⊢
                    split at hmember
                    · rename_i hin
                      rw [if_pos hin] at h ⊢
                      exact selectOrElse_of_ok h hmember
                    · rename_i hin
                      rw [if_neg hin] at h ⊢
                      exact selectOrElse_of_ok h hmember

end Shows

/-! ## Failover -/

/-- The later picture has fewer usable addresses, and what is usable in it looks as it did. -/
structure Fewer (o o' : Outlook) : Prop where
  fxHash : o'.fxHash = o.fxHash
  usable : ∀ addr, o'.usable addr = true → o.usable addr = true
  ema : ∀ addr, o'.usable addr = true → o'.ema addr = o.ema addr
  confidence : ∀ addr, o'.usable addr = true → o'.confidence addr = o.confidence addr

namespace Fewer

theorem secondWins_iff (h : Fewer o o') {addrA addrB : String} (ha : o'.usable addrA = true)
    (hb : o'.usable addrB = true) : secondWins o' addrA addrB ↔ secondWins o addrA addrB := by
  unfold secondWins score
  rw [h.ema addrA ha, h.ema addrB hb, h.confidence addrA ha, h.confidence addrB hb]

theorem available (h : Fewer o o') (pool : List Upstream) (pos : Nat)
    (hpos : available o' pool pos = true) : available o pool pos = true := by
  rcases available_iff.1 hpos with ⟨up, hup, husable⟩
  exact available_iff.2 ⟨up, hup, h.usable _ husable⟩

/-- The rule is steady: the contest is judged as before while both sides are there, and the walk only
passes over what was passed over before. -/
theorem steady_choose (h : Fewer o o') (pool : List Upstream) (userId : Option String) :
    Steady (fun up => o'.usable up.address) (choose o pool userId) (choose o' pool userId) := by
  by_cases hpool : pool = []
  · intro up hup _
    rw [hpool] at hup
    rcases Option.bind_eq_some_iff.1 hup with ⟨pos, _, hpos⟩
    simp at hpos
  · have haddress : ∀ pos, Pick.available o' pool pos = true →
        o'.usable (addressAt pool pos) = true := by
      intro pos hpos
      rcases available_iff.1 hpos with ⟨up, hup, husable⟩
      simpa [addressAt, hup] using husable
    have hposition : Steady (Pick.available o' pool) (position o pool userId)
        (position o' pool userId) := by
      unfold position slotRule
      rw [h.fxHash]
      refine Steady.orElse (steady_twoChoice (h.available pool) ?_)
        (steady_find? _ (h.available pool)) ?_
      · intro ha hb
        exact h.secondWins_iff (haddress _ ha) (haddress _ hb)
      · exact settles_twoChoice.none_of_le settles_twoChoice (h.available pool)
    intro up hup husable
    rcases Option.bind_eq_some_iff.1 hup with ⟨pos, hpos, hmember⟩
    have hstays : Pick.available o' pool pos = true := available_iff.2 ⟨up, hmember, husable⟩
    simp [choose, hposition pos hpos hstays, hmember]

theorem choose_none (h : Fewer o o') {pool : List Upstream} (hnone : choose o pool userId = none) :
    choose o' pool userId = none :=
  (settles_choose o pool userId).none_of_le (settles_choose o' pool userId)
    (fun up => h.usable up.address) hnone

theorem tryPools_some (h : Fewer o o') {pools : List (List Upstream)} {up : Upstream}
    (hpick : tryPools allocates o userId pools = .ok (some up)) (husable : o'.usable up.address = true) :
    tryPools allocates o' userId pools = .ok (some up) := by
  induction pools with
  | nil => cases hpick
  | cons pool pools ih =>
      unfold tryPools at hpick ⊢
      by_cases hfits : RingFits allocates pool
      · rw [selectFrom_ok hfits, Checked.ok_bind] at hpick ⊢
        cases hchoose : choose o pool userId with
        | some other =>
            rw [hchoose] at hpick
            have hother : other = up := by simpa using hpick
            rw [h.steady_choose pool userId up (by rw [hchoose, hother]) husable]
            rfl
        | none =>
            rw [hchoose] at hpick
            rw [h.choose_none hchoose]
            exact ih hpick
      · rcases selectFrom_error (o := o) hfits userId with ⟨p, herror, -⟩
        rw [herror] at hpick
        cases hpick

end Fewer

/-- Failover disturbs only the users of the failed upstream: whoever was served by another address is
still served by it. -/
theorem failover_keeps_others (allocates : Nat → Bool) (o o' : Outlook) (svc : ServiceConfig) (region : String)
    (userId : Option String) (canaryHint : String) (failed addr : String)
    (hhash : o'.fxHash = o.fxHash)
    (husable : ∀ a, o'.usable a = true ↔ o.usable a = true ∧ a ≠ failed)
    (hema : ∀ a, o'.usable a = true → o'.ema a = o.ema a)
    (hconfidence : ∀ a, o'.usable a = true → o'.confidence a = o.confidence a)
    (hpick : selectUpstream allocates o svc region userId canaryHint = .ok (some addr))
    (hother : addr ≠ failed) : selectUpstream allocates o' svc region userId canaryHint = .ok (some addr) := by
  have hfewer : Fewer o o' :=
    { fxHash := hhash, usable := fun a ha => ((husable a).1 ha).1, ema := hema
      confidence := hconfidence }
  unfold selectUpstream at hpick ⊢
  rw [selectMember_eq] at hpick ⊢
  rw [hhash]
  rcases tryPools_settles allocates o userId (tried o.fxHash svc region userId canaryHint) with
    ⟨-, pick, htried, hsettles⟩ | ⟨-, p, herror, -⟩
  · rw [htried] at hpick
    have hmap : pick.map Upstream.address = some addr := by simpa [Except.map] using hpick
    rcases Option.map_eq_some_iff.1 hmap with ⟨up, rfl, rfl⟩
    have hstays : o'.usable up.address = true :=
      (husable _).2 ⟨(hsettles.sound up rfl).2, hother⟩
    rw [hfewer.tryPools_some htried hstays]
    rfl
  · rw [herror] at hpick
    cases hpick

/-- A user of the stable member stays there when the canary member fails. -/
theorem stable_user_stays :
    selectUpstream (fun _ => true) { allUp 4 with usable := fun a => a ≠ "canary-b:8080" } (splitService 1) "US"
      (some "u") "" = .ok (some "stable-a:8080") :=
  failover_keeps_others (fun _ => true) (allUp 4) _ (splitService 1) "US" (some "u") "" "canary-b:8080"
    "stable-a:8080" rfl (by simp [allUp]) (fun _ _ => rfl) (fun _ _ => rfl) (by decide)
    (by decide)

/-! ## Canary rollout -/

/-- The service with its canary at a percentage. -/
def atPercent (svc : ServiceConfig) (version : String) (percent : Nat) : ServiceConfig :=
  { svc with canary := some { version := version, percent := percent } }

/-- At that percentage the selection picks a member labelled with the policy's version. -/
def PicksCanary (allocates : Nat → Bool) (o : Outlook) (svc : ServiceConfig) (region : String)
    (userId : Option String) (canaryHint version : String) (percent : Nat) : Prop :=
  ∃ up, selectMember allocates o (atPercent svc version percent) region userId canaryHint = .ok (some up) ∧
    up.version = version

/-- With a usable member in the first pool the later pools do not matter. -/
theorem tryPools_first (allocates : Nat → Bool) (userId : Option String) {pool : List Upstream}
    (pools : List (List Upstream)) (h : ∃ up ∈ pool, o.usable up.address = true) :
    (¬ RingFits allocates pool → ∃ p, tryPools allocates o userId (pool :: pools) = .error p) ∧
      (RingFits allocates pool →
        ∃ up ∈ pool, tryPools allocates o userId (pool :: pools) = .ok (some up)) := by
  unfold tryPools
  refine ⟨fun hlarge => ?_, fun hfits => ?_⟩
  · rcases selectFrom_error (o := o) hlarge userId with ⟨p, herror, -⟩
    rw [herror]
    exact ⟨p, rfl⟩
  · rw [selectFrom_ok hfits, Checked.ok_bind]
    have hsettles := settles_choose o pool userId
    cases hchoose : choose o pool userId with
    | some up => exact ⟨up, (hsettles.sound up hchoose).1, rfl⟩
    | none =>
        rcases h with ⟨up, hup, husable⟩
        have hgone := hsettles.complete hchoose up hup
        rw [husable] at hgone
        cases hgone

/-- A user is on the canary by hint or by bucket, and there has to be room for the canary's ring. -/
theorem picksCanary_iff (allocates : Nat → Bool) {svc : ServiceConfig} {region version : String}
    (userId : Option String) (canaryHint : String) (percent : Nat) (hversion : version ≠ "")
    (hcanary : ∃ up ∈ regionPool svc region, up.version = version ∧ o.usable up.address = true)
    (hstable : ∃ up ∈ regionPool svc region, up.version ≠ version ∧ o.usable up.address = true) :
    PicksCanary allocates o svc region userId canaryHint version percent ↔
      (canaryHint = version ∨ bucketOf o.fxHash userId < min percent 100 * 100) ∧
        RingFits allocates (labelled version (regionPool svc region)) := by
  have hlabelled : ∃ up ∈ labelled version (regionPool svc region), o.usable up.address = true := by
    rcases hcanary with ⟨up, hup, hlabel, husable⟩
    exact ⟨up, List.mem_filter.2 ⟨hup, by simpa using hlabel⟩, husable⟩
  have hunlabelled : ∃ up ∈ unlabelled version (regionPool svc region),
      o.usable up.address = true := by
    rcases hstable with ⟨up, hup, hlabel, husable⟩
    exact ⟨up, List.mem_filter.2 ⟨hup, by simpa using hlabel⟩, husable⟩
  have hcanaryNe : (labelled version (regionPool svc region)).isEmpty = false := by
    rcases hlabelled with ⟨up, hup, _⟩
    exact List.isEmpty_eq_false_iff.2 (List.ne_nil_of_mem hup)
  have hstableNe : (unlabelled version (regionPool svc region)).isEmpty = false := by
    rcases hunlabelled with ⟨up, hup, _⟩
    exact List.isEmpty_eq_false_iff.2 (List.ne_nil_of_mem hup)
  have htried : tried o.fxHash (atPercent svc version percent) region userId canaryHint =
      if canaryHint = version ∨ bucketOf o.fxHash userId < min percent 100 * 100 then
        [labelled version (regionPool svc region), unlabelled version (regionPool svc region)]
      else
        [unlabelled version (regionPool svc region), labelled version (regionPool svc region)] := by
    have hfilter : (atPercent svc version percent).canary.filter (fun p => p.version ≠ "") =
        some { version := version, percent := percent } := by
      simp [atPercent, Option.filter, hversion]
    have hpool : regionPool (atPercent svc version percent) region = regionPool svc region := rfl
    unfold tried
    rw [hfilter, hpool]
    dsimp only
    rw [if_neg (by simp [hcanaryNe]), if_neg (by simp [hstableNe])]
    rfl
  unfold PicksCanary
  rw [selectMember_eq]
  change (∃ up, tryPools allocates o userId
    (tried o.fxHash (atPercent svc version percent) region userId canaryHint) = _ ∧ _) ↔ _
  rw [htried]
  by_cases hin : canaryHint = version ∨ bucketOf o.fxHash userId < min percent 100 * 100
  · rw [if_pos hin]
    have hfirst := tryPools_first allocates userId
      [unlabelled version (regionPool svc region)] hlabelled
    constructor
    · rintro ⟨up, hup, _⟩
      refine ⟨hin, ?_⟩
      by_contra hlarge
      rcases hfirst.1 hlarge with ⟨p, herror⟩
      rw [herror] at hup
      cases hup
    · rintro ⟨_, hfits⟩
      rcases hfirst.2 hfits with ⟨up, hmem, hup⟩
      exact ⟨up, hup, by simpa using (List.mem_filter.1 hmem).2⟩
  · rw [if_neg hin]
    have hfirst := tryPools_first allocates userId
      [labelled version (regionPool svc region)] hunlabelled
    refine ⟨?_, fun h => absurd h.1 hin⟩
    rintro ⟨up, hup, hlabel⟩
    -- The stable pool serves, or there is no room for its ring.
    by_cases hfits : RingFits allocates (unlabelled version (regionPool svc region))
    · rcases hfirst.2 hfits with ⟨up', hmem, hup'⟩
      have hsame : up' = up := by
        rw [hup'] at hup
        simpa using hup
      have hnot : up'.version ≠ version := by simpa using (List.mem_filter.1 hmem).2
      exact absurd (hsame ▸ hlabel) hnot
    · rcases hfirst.1 hfits with ⟨p, herror⟩
      rw [herror] at hup
      cases hup

/-- A rollout is sticky and monotone: raising the percentage takes nobody off the canary, everybody is
on it from a hundred percent on, and at zero percent exactly those are whose hint names it.  The
last two need room for the canary's ring. -/
theorem canary_monotone (allocates : Nat → Bool) (o : Outlook) (svc : ServiceConfig) (region : String)
    (userId : Option String) (canaryHint version : String) (hversion : version ≠ "")
    (hcanary : ∃ up ∈ regionPool svc region, up.version = version ∧ o.usable up.address = true)
    (hstable : ∃ up ∈ regionPool svc region, up.version ≠ version ∧ o.usable up.address = true) :
    (∀ p p', p ≤ p' → PicksCanary allocates o svc region userId canaryHint version p →
        PicksCanary allocates o svc region userId canaryHint version p') ∧
      (∀ p, 100 ≤ p → (PicksCanary allocates o svc region userId canaryHint version p ↔
        RingFits allocates (labelled version (regionPool svc region)))) ∧
      (PicksCanary allocates o svc region userId canaryHint version 0 ↔
        canaryHint = version ∧ RingFits allocates (labelled version (regionPool svc region))) := by
  have hbucket : bucketOf o.fxHash userId < 10000 := by
    unfold bucketOf Selector.fxHashIndex
    rw [if_neg (by decide)]
    omega
  have hiff := fun percent =>
    picksCanary_iff allocates userId canaryHint percent hversion hcanary hstable
  refine ⟨fun p p' hle hp => ?_, fun p hp => ?_, ?_⟩
  · rw [hiff] at hp ⊢
    refine ⟨hp.1.imp_right fun hlt => ?_, hp.2⟩
    calc
      bucketOf o.fxHash userId < min p 100 * 100 := hlt
      _ ≤ min p' 100 * 100 := Nat.mul_le_mul_right 100 (min_le_min_right 100 hle)
  · rw [hiff, Nat.min_eq_right hp]
    exact ⟨fun h => h.2, fun h => ⟨Or.inr hbucket, h⟩⟩
  · rw [hiff]
    simp

/-- An allocator with room for a terabyte of positions. -/
def roomy (slots : Nat) : Bool := slots ≤ 2 ^ 37

/-- A user of such a service is on the canary at a hundred percent, and without the hint not at zero. -/
theorem tester_on_canary :
    PicksCanary roomy (allUp 2600) (splitService 1) "US" (some "tester") "" "v2" 100 ∧
      ¬ PicksCanary roomy (allUp 2600) (splitService 1) "US" (some "tester") "" "v2" 0 := by
  have hlaw := canary_monotone roomy (allUp 2600) (splitService 1) "US" (some "tester") "" "v2" (by decide)
    (by decide) (by decide)
  exact ⟨(hlaw.2.1 100 (by decide)).2 (by decide), fun h => absurd (hlaw.2.2.1 h).1 (by decide)⟩

/-- A canary member of weight `2 ^ 60` serves nobody, not even at a hundred percent and whatever the allocator
has room for, and one of weight `2 ^ 56` nobody where a terabyte is the most there is room for. -/
theorem heavy_canary_serves_nobody :
    (∀ weight, (∃ up ∈ regionPool (splitService weight) "US",
        up.version = "v2" ∧ (allUp 2600).usable up.address = true) ∧
      (∃ up ∈ regionPool (splitService weight) "US",
        up.version ≠ "v2" ∧ (allUp 2600).usable up.address = true)) ∧
      (∀ allocates,
        ¬ PicksCanary allocates (allUp 2600) (splitService (2 ^ 60)) "US" (some "tester") "" "v2" 100) ∧
      ¬ PicksCanary roomy (allUp 2600) (splitService (2 ^ 56)) "US" (some "tester") "" "v2" 100 := by
  have hstops : ∀ allocates weight p,
      selectMember allocates (allUp 2600) (atPercent (splitService weight) "v2" 100) "US" (some "tester") "" =
        .error p →
      ¬ PicksCanary allocates (allUp 2600) (splitService weight) "US" (some "tester") "" "v2" 100 := by
    rintro allocates weight p herror ⟨up, hup, -⟩
    rw [herror] at hup
    cases hup
  refine ⟨fun weight => ⟨⟨_, List.mem_cons_of_mem _ List.mem_cons_self, rfl, rfl⟩,
      ⟨_, List.mem_cons_self, by decide, rfl⟩⟩,
    fun allocates => hstops allocates _ .capacityOverflow rfl, hstops roomy _ .allocationRefused rfl⟩

end Pick
end GatewayEdge
