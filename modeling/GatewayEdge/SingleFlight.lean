import GatewayEdge.Foundation.Run
import Mathlib.Algebra.Group.Nat.Defs
import Mathlib.Logic.Function.Basic

/-!
# SingleFlight — collapsing identical requests

The first caller of a key registers a flight and is its leader; callers that find it registered wait for
the leader to publish a status in the slot of the flight.  A caller that has waited too long leads the
flight itself, and whoever completes a flight finds it by its key alone.
-/

namespace GatewayEdge
namespace SingleFlight

open Foundation

/-! ## The state -/

def maxFollowerWaitMs : ℕ := 2000

/-- How a caller has come by `FlightResult::Leader`. -/
inductive Role
  | registered
  | tookOver
  deriving DecidableEq

/-- Where a caller is in `try_flight`, or behind it.  The slot is that of the flight the caller registered
or joined; a leader has no hold of it any more, so it is carried for what is said about leaders only. -/
inductive Phase
  | idle
  /-- The map lock is given back, the deadline not computed. -/
  | joined (key : UInt64) (slot : ℕ)
  | polling (key : UInt64) (slot deadline delay : ℕ)
  /-- The slot was empty. -/
  | waiting (key : UInt64) (slot deadline delay : ℕ)
  | asleep (key : UInt64) (slot deadline delay wakeAt : ℕ)
  | followed (key : UInt64) (slot : ℕ) (status : Int32)
  | leading (key : UInt64) (slot : ℕ) (role : Role)
  | completed (key : UInt64) (slot : ℕ) (role : Role) (status : Int32)
  deriving DecidableEq

/-- `IN_FLIGHT`, the result slots it has handed out, the metrics, the callers and the monotonic clock in
nanoseconds. -/
structure State where
  map : UInt64 → Option ℕ
  slots : ℕ → Option Int32
  nextSlot : ℕ
  collapsedTotal : ℕ
  leaderTotal : ℕ
  callers : ℕ → Phase
  now : ℕ

def start : State where
  map := fun _ => none
  slots := fun _ => none
  nextSlot := 0
  collapsedTotal := 0
  leaderTotal := 0
  callers := fun _ => .idle
  now := 0

/-- The caller goes on to the given phase. -/
def State.goto (s : State) (c : ℕ) (ph : Phase) : State :=
  { s with callers := Function.update s.callers c ph }

/-! ## The code -/

/-- `try_flight` up to the point where the map lock is given back. -/
def tryFlight (c : ℕ) (key : UInt64) (s : State) : State :=
  match s.map key with
  | some slot =>
    { s with collapsedTotal := (s.collapsedTotal + 1) % 2 ^ 64 }.goto c (.joined key slot)
  | none =>
    { s with
      map := Function.update s.map key (some s.nextSlot)
      slots := Function.update s.slots s.nextSlot none
      nextSlot := s.nextSlot + 1
      leaderTotal := (s.leaderTotal + 1) % 2 ^ 64 }.goto c (.leading key s.nextSlot .registered)

/-- `complete_flight`: the entry under the key goes, and its slot gets the status.  A reader of the slot
does not look at the map, so what it sees in between is what it would have seen just before. -/
def completeFlight (key : UInt64) (status : Int32) (s : State) : State :=
  match s.map key with
  | some slot =>
    { s with
      map := Function.update s.map key none
      slots := Function.update s.slots slot (some status) }
  | none => s

inductive Event
  | tryFlight (c : ℕ) (key : UInt64)
  /-- `Instant::now() + MAX_FOLLOWER_WAIT_MS`, and the first delay. -/
  | setDeadline (c : ℕ)
  | poll (c : ℕ)
  | checkDeadline (c : ℕ)
  | wake (c : ℕ)
  | complete (c : ℕ) (status : Int32)
  | tick (nanos : ℕ)

/-- One atomic step of a caller, or time going by. Only a leader completes, and once. -/
def step (s : State) : Event → Option State
  | .tryFlight c key =>
    match s.callers c with
    | .idle => some (tryFlight c key s)
    | _ => none
  | .setDeadline c =>
    match s.callers c with
    | .joined key slot =>
      some (s.goto c (.polling key slot (s.now + maxFollowerWaitMs * 1000000) 1))
    | _ => none
  | .poll c =>
    match s.callers c with
    | .polling key slot deadline delay =>
      match s.slots slot with
      | some status => some (s.goto c (.followed key slot status))
      | none => some (s.goto c (.waiting key slot deadline delay))
    | _ => none
  | .checkDeadline c =>
    match s.callers c with
    | .waiting key slot deadline delay =>
      if s.now > deadline then some (s.goto c (.leading key slot .tookOver))
      else some (s.goto c (.asleep key slot deadline delay (s.now + delay * 1000)))
    | _ => none
  | .wake c =>
    match s.callers c with
    | .asleep key slot deadline delay wakeAt =>
      if s.now ≥ wakeAt then some (s.goto c (.polling key slot deadline (min (delay * 2) 500)))
      else none
    | _ => none
  | .complete c status =>
    match s.callers c with
    | .leading key slot role => some ((completeFlight key status s).goto c (.completed key slot role status))
    | _ => none
  | .tick nanos => some { s with now := s.now + nanos }

/-! ## What a step can do -/

/-- The caller leads a flight, or has. -/
def Phase.Active : Phase → Prop
  | .leading _ _ _ => True
  | .completed _ _ _ _ => True
  | _ => False

/-- One caller goes on; map and slots stay. -/
structure Moves (s : State) (c : ℕ) (ph : Phase) (s' : State) : Prop where
  map : s'.map = s.map
  slots : s'.slots = s.slots
  callers : s'.callers = Function.update s.callers c ph

theorem moves_goto (s : State) (c : ℕ) (ph : Phase) : Moves s c ph (s.goto c ph) where
  map := rfl
  slots := rfl
  callers := rfl

/-- A caller that waits goes on waiting or reads a status, registers a flight, takes one over or completes
one; or time goes by. -/
inductive Effect (s : State) (e : Event) (s' : State) : Prop
  | waits (c : ℕ) (ph : Phase) (hmoves : Moves s c ph s') (hfrom : ¬ (s.callers c).Active)
      (hto : ¬ ph.Active)
      (hread : ∀ key slot status, ph = .followed key slot status → s.slots slot = some status)
  | registers (c : ℕ) (key : UInt64) (he : e = .tryFlight c key) (hidle : s.callers c = .idle)
      (hfree : s.map key = none) (hs' : s' = tryFlight c key s)
  | takesOver (c : ℕ) (key : UInt64) (slot deadline delay : ℕ) (he : e = .checkDeadline c)
      (hwaiting : s.callers c = .waiting key slot deadline delay) (hlate : s.now > deadline)
      (hmoves : Moves s c (.leading key slot .tookOver) s')
  | completes (c : ℕ) (key : UInt64) (slot : ℕ) (role : Role) (status : Int32)
      (he : e = .complete c status) (hleads : s.callers c = .leading key slot role)
      (hs' : s' = (completeFlight key status s).goto c (.completed key slot role status))
  | ticks (nanos : ℕ) (hs' : s' = { s with now := s.now + nanos })

theorem not_active_goto {s : State} {c : ℕ} {ph ph' : Phase} (hfrom : s.callers c = ph)
    (hph : ¬ ph.Active) (hph' : ¬ ph'.Active) (e : Event)
    (hread : ∀ key slot status, ph' = .followed key slot status → s.slots slot = some status) :
    Effect s e (s.goto c ph') :=
  .waits c ph' (moves_goto s c ph') (hfrom ▸ hph) hph' hread

theorem step_effect {s s' : State} {e : Event} : step s e = some s' → Effect s e s' := by
  intro h
  cases e with
  | tryFlight c key =>
      unfold step at h
      dsimp only at h
      split at h
      · rename_i hidle
        have hs' := (Option.some.inj h).symm
        cases hmap : s.map key with
        | none => exact .registers c key rfl hidle hmap hs'
        | some slot =>
            -- The flight is joined; the metric is all that changes besides.
            have hjoined : s' =
                { s with collapsedTotal := (s.collapsedTotal + 1) % 2 ^ 64 }.goto c (.joined key slot) := by
              rw [hs']
              unfold tryFlight
              rw [hmap]
            rw [hjoined]
            exact .waits c _ { map := rfl, slots := rfl, callers := rfl } (hidle ▸ id) id
              (fun key slot status hph => by cases hph)
      · cases h
  | setDeadline c =>
      unfold step at h
      dsimp only at h
      split at h
      · rename_i key slot hjoined
        cases h
        exact not_active_goto hjoined id id _ (fun key slot status hph => by cases hph)
      · cases h
  | poll c =>
      unfold step at h
      dsimp only at h
      split at h
      · rename_i key slot deadline delay hpolling
        split at h
        · rename_i status hslot
          cases h
          refine not_active_goto hpolling id id _ fun key' slot' status' hph => ?_
          cases hph
          exact hslot
        · cases h
          exact not_active_goto hpolling id id _ (fun key slot status hph => by cases hph)
      · cases h
  | checkDeadline c =>
      unfold step at h
      dsimp only at h
      split at h
      · rename_i key slot deadline delay hwaiting
        split at h
        · rename_i hlate
          cases h
          -- Neither the map nor the other callers are asked.
          exact .takesOver c key slot deadline delay rfl hwaiting hlate (moves_goto s c _)
        · cases h
          exact not_active_goto hwaiting id id _ (fun key slot status hph => by cases hph)
      · cases h
  | wake c =>
      unfold step at h
      dsimp only at h
      split at h
      · rename_i key slot deadline delay wakeAt hasleep
        split at h
        · cases h
          exact not_active_goto hasleep id id _ (fun key slot status hph => by cases hph)
        · cases h
      · cases h
  | complete c status =>
      unfold step at h
      dsimp only at h
      split at h
      · rename_i key slot role hleads
        exact .completes c key slot role status rfl hleads (Option.some.inj h).symm
      · cases h
  | tick nanos => exact .ticks nanos (Option.some.inj h).symm

/-! ## Leaders -/

/-- The phase is that of a leader of the key who has not completed. -/
def Phase.Leads (ph : Phase) (key : UInt64) (role : Role) : Prop := ∃ slot, ph = .leading key slot role

/-- No two leaders of one key at a time. -/
def SingleLeader (s : State) : Prop :=
  ∀ key c c' role role', (s.callers c).Leads key role → (s.callers c').Leads key role' → c = c'

/-- Nobody takes over while the flight is registered or an earlier taker-over is still at it, and nobody
registers a flight in the latter case. -/
def Orderly (s : State) : Event → Prop
  | .tryFlight c key =>
    s.callers c = .idle → s.map key = none → ∀ d, ¬ (s.callers d).Leads key .tookOver
  | .checkDeadline c => ∀ key slot deadline delay, s.callers c = .waiting key slot deadline delay →
      s.now > deadline → s.map key = none ∧ ∀ d, ¬ (s.callers d).Leads key .tookOver
  | _ => True

/-- A flight is registered as long as the caller that has registered it leads it. -/
def Registered (s : State) : Prop :=
  ∀ key, (∃ slot, s.map key = some slot) ↔ ∃ c, (s.callers c).Leads key .registered

theorem Phase.Leads.active {ph : Phase} {key : UInt64} {role : Role} : ph.Leads key role → ph.Active := by
  rintro ⟨slot, rfl⟩
  trivial

theorem leads_leading {key key' : UInt64} {slot : ℕ} {role role' : Role} :
    (Phase.leading key slot role).Leads key' role' ↔ key = key' ∧ role = role' := by
  constructor
  · rintro ⟨slot', h⟩
    exact ⟨(Phase.leading.inj h).1, (Phase.leading.inj h).2.2⟩
  · rintro ⟨rfl, rfl⟩
    exact ⟨slot, rfl⟩

section OneCaller

variable {s s' : State} {c : ℕ} {ph : Phase}

/-- Who leads once the given caller is in the given phase. -/
theorem leads_update (hcallers : s'.callers = Function.update s.callers c ph) {d : ℕ} {key : UInt64}
    {role : Role} :
    (s'.callers d).Leads key role ↔
      (d = c ∧ ph.Leads key role) ∨ (d ≠ c ∧ (s.callers d).Leads key role) := by
  rw [hcallers]
  by_cases hd : d = c
  · rw [hd, Function.update_self]
    simp
  · rw [Function.update_of_ne hd]
    simp [hd]

/-- A caller that does not lead goes on to a phase that does not: the leaders stay. -/
theorem leads_of_passive (hcallers : s'.callers = Function.update s.callers c ph)
    (hfrom : ¬ (s.callers c).Active) (hto : ¬ ph.Active) {d : ℕ} {key : UInt64} {role : Role} :
    (s'.callers d).Leads key role ↔ (s.callers d).Leads key role := by
  rw [leads_update hcallers]
  constructor
  · rintro (⟨-, hlead⟩ | ⟨-, hold⟩)
    · exact absurd hlead.active hto
    · exact hold
  · intro hold
    have hd : d ≠ c := fun heq => hfrom (heq ▸ hold.active)
    exact Or.inr ⟨hd, hold⟩

/-- A caller that starts to lead leaves a single leader exactly if there was none. -/
theorem singleLeader_of_leading {key : UInt64} {slot : ℕ} {role : Role}
    (hcallers : s'.callers = Function.update s.callers c (.leading key slot role))
    (hfrom : ¬ (s.callers c).Active) (hsingle : SingleLeader s) :
    SingleLeader s' ↔ ∀ d role, ¬ (s.callers d).Leads key role := by
  constructor
  · intro hsingle' d role' hd
    have hne : d ≠ c := fun heq => hfrom (heq ▸ hd.active)
    have hold : (s'.callers d).Leads key role' := (leads_update hcallers).2 (Or.inr ⟨hne, hd⟩)
    have hnew : (s'.callers c).Leads key role :=
      (leads_update hcallers).2 (Or.inl ⟨rfl, leads_leading.2 ⟨rfl, rfl⟩⟩)
    exact hne (hsingle' key d c role' role hold hnew)
  · intro hnone key' d d' role₁ role₂ hd hd'
    -- Two leaders afterwards are the new one twice, the new one and an old one, or two old ones.
    rcases (leads_update hcallers).1 hd with ⟨rfl, hlead⟩ | ⟨-, hold⟩
    · rcases (leads_update hcallers).1 hd' with ⟨rfl, -⟩ | ⟨-, hold'⟩
      · rfl
      · exact absurd ((leads_leading.1 hlead).1 ▸ hold') (hnone d' role₂)
    · rcases (leads_update hcallers).1 hd' with ⟨rfl, hlead'⟩ | ⟨-, hold'⟩
      · exact absurd ((leads_leading.1 hlead').1 ▸ hold) (hnone d role₁)
      · exact hsingle key' d d' role₁ role₂ hold hold'

end OneCaller

/-- Fewer leaders, no new pairs. -/
theorem SingleLeader.mono {s s' : State} (hsingle : SingleLeader s)
    (hleads : ∀ d key role, (s'.callers d).Leads key role → (s.callers d).Leads key role) :
    SingleLeader s' :=
  fun key c c' role role' hc hc' =>
    hsingle key c c' role role' (hleads c key role hc) (hleads c' key role' hc')

theorem map_completeFlight (key key' : UInt64) (status : Int32) (s : State) :
    (completeFlight key status s).map key' = if key' = key then none else s.map key' := by
  unfold completeFlight
  cases hmap : s.map key with
  | none =>
      dsimp only
      split
      · rename_i heq
        rw [heq, hmap]
      · rfl
  | some slot =>
      dsimp only
      split
      · rename_i heq
        rw [heq, Function.update_self]
      · rename_i hne
        rw [Function.update_of_ne hne]

theorem callers_completeFlight (key : UInt64) (status : Int32) (s : State) :
    (completeFlight key status s).callers = s.callers := by
  unfold completeFlight
  split <;> rfl

/-- Registering a flight: the entry and its leader. -/
theorem tryFlight_of_free {c : ℕ} {key : UInt64} {s : State} (hfree : s.map key = none) :
    (tryFlight c key s).map = Function.update s.map key (some s.nextSlot) ∧
      (tryFlight c key s).slots = Function.update s.slots s.nextSlot none ∧
      (tryFlight c key s).callers = Function.update s.callers c (.leading key s.nextSlot .registered) := by
  unfold tryFlight
  rw [hfree]
  exact ⟨rfl, rfl, rfl⟩

/-- As long as there is a single leader, no flight loses its entry but by the leader that has registered
it. -/
theorem registered_step {s s' : State} {e : Event} (hreg : Registered s) (hsingle : SingleLeader s)
    (h : step s e = some s') : Registered s' := by
  intro key'
  cases step_effect h with
  | waits c ph hmoves hfrom hto hread =>
      rw [hmoves.map, hreg key']
      exact exists_congr fun d => (leads_of_passive hmoves.callers hfrom hto).symm
  | registers c key he hidle hfree hs' =>
      rcases tryFlight_of_free (c := c) hfree with ⟨hmap, -, hcallers⟩
      have hnot : ¬ (s.callers c).Active := hidle ▸ id
      rw [hs', hmap]
      by_cases hkey : key' = key
      · -- The new entry and its leader.
        rw [hkey, Function.update_self]
        constructor
        · intro _
          exact ⟨c, (leads_update hcallers).2 (Or.inl ⟨rfl, leads_leading.2 ⟨rfl, rfl⟩⟩)⟩
        · intro _
          exact ⟨_, rfl⟩
      · rw [Function.update_of_ne hkey, hreg key']
        refine exists_congr fun d => ?_
        rw [leads_update hcallers, leads_leading]
        constructor
        · intro hold
          exact Or.inr ⟨fun heq => hnot (heq ▸ hold.active), hold⟩
        · rintro (⟨-, hsame, -⟩ | ⟨-, hold⟩)
          · exact absurd hsame.symm hkey
          · exact hold
  | takesOver c key slot deadline delay he hwaiting hlate hmoves =>
      have hnot : ¬ (s.callers c).Active := hwaiting ▸ id
      rw [hmoves.map, hreg key']
      refine exists_congr fun d => ?_
      rw [leads_update hmoves.callers, leads_leading]
      constructor
      · intro hold
        exact Or.inr ⟨fun heq => hnot (heq ▸ hold.active), hold⟩
      · -- Who takes over does not register.
        rintro (⟨-, -, hrole⟩ | ⟨-, hold⟩)
        · cases hrole
        · exact hold
  | completes c key slot role status he hleads hs' =>
      have hcallers : s'.callers =
          Function.update s.callers c (.completed key slot role status) := by
        rw [hs', State.goto, callers_completeFlight]
      have hmap : s'.map key' = if key' = key then none else s.map key' := by
        rw [hs']
        exact map_completeFlight key key' status s
      have hleader : (s.callers c).Leads key role := ⟨slot, hleads⟩
      rw [hmap]
      by_cases hkey : key' = key
      · -- The entry is gone, whoever has registered it.
        rw [if_pos hkey, hkey]
        constructor
        · rintro ⟨slot', hslot'⟩
          cases hslot'
        · rintro ⟨d, hd⟩
          -- A registrar still at it would be a second leader.
          rcases (leads_update hcallers).1 hd with ⟨-, slot', hslot'⟩ | ⟨hne, hold⟩
          · cases hslot'
          · exact absurd (hsingle key d c .registered role hold hleader) hne
      · rw [if_neg hkey, hreg key']
        refine exists_congr fun d => ?_
        rw [leads_update hcallers]
        constructor
        · intro hold
          refine Or.inr ⟨fun heq => hkey ?_, hold⟩
          rw [heq, hleads, leads_leading] at hold
          exact hold.1.symm
        · rintro (⟨-, slot', hslot'⟩ | ⟨-, hold⟩)
          · cases hslot'
          · exact hold
  | ticks nanos hs' =>
      rw [hs']
      exact hreg key'

/-- Nobody leads a key exactly if no flight is registered under it and nobody has taken one over. -/
theorem no_leader_iff {s : State} (hreg : Registered s) (key : UInt64) :
    (∀ d role, ¬ (s.callers d).Leads key role) ↔
      s.map key = none ∧ ∀ d, ¬ (s.callers d).Leads key .tookOver := by
  constructor
  · intro hnone
    refine ⟨?_, fun d => hnone d .tookOver⟩
    cases hmap : s.map key with
    | none => rfl
    | some slot =>
        rcases (hreg key).1 ⟨slot, hmap⟩ with ⟨c, hc⟩
        exact absurd hc (hnone c .registered)
  · rintro ⟨hfree, hnone⟩ d role hd
    cases role with
    | tookOver => exact hnone d hd
    | registered =>
        rcases (hreg key).2 ⟨d, hd⟩ with ⟨slot, hslot⟩
        rw [hfree] at hslot
        cases hslot

/-- A step keeps the leader single exactly when it is orderly. -/
theorem singleLeader_step_iff {s : State} (e : Event) (hreg : Registered s) (hsingle : SingleLeader s) :
    (∀ s', step s e = some s' → SingleLeader s') ↔ Orderly s e := by
  constructor
  · intro hnext
    cases e with
    | tryFlight c key =>
        intro hidle hfree
        have hnot : ¬ (s.callers c).Active := hidle ▸ id
        have hs' : step s (.tryFlight c key) = some (tryFlight c key s) := by
          unfold step
          dsimp only
          rw [hidle]
        have hnone := (singleLeader_of_leading (tryFlight_of_free hfree).2.2 hnot hsingle).1 (hnext _ hs')
        exact fun d => hnone d .tookOver
    | checkDeadline c =>
        intro key slot deadline delay hwaiting hlate
        have hnot : ¬ (s.callers c).Active := hwaiting ▸ id
        have hs' : step s (.checkDeadline c) = some (s.goto c (.leading key slot .tookOver)) := by
          unfold step
          dsimp only
          rw [hwaiting]
          exact if_pos hlate
        have hcallers := (moves_goto s c (.leading key slot .tookOver)).callers
        exact (no_leader_iff hreg key).1
          ((singleLeader_of_leading hcallers hnot hsingle).1 (hnext _ hs'))
    | setDeadline c => trivial
    | poll c => trivial
    | wake c => trivial
    | complete c status => trivial
    | tick nanos => trivial
  · intro horderly s' h
    cases step_effect h with
    | waits c ph hmoves hfrom hto hread =>
        exact hsingle.mono fun d key role hd => (leads_of_passive hmoves.callers hfrom hto).1 hd
    | registers c key he hidle hfree hs' =>
        subst he
        have hnot : ¬ (s.callers c).Active := hidle ▸ id
        rw [hs']
        exact (singleLeader_of_leading (tryFlight_of_free hfree).2.2 hnot hsingle).2
          ((no_leader_iff hreg key).2 ⟨hfree, horderly hidle hfree⟩)
    | takesOver c key slot deadline delay he hwaiting hlate hmoves =>
        subst he
        have hnot : ¬ (s.callers c).Active := hwaiting ▸ id
        exact (singleLeader_of_leading hmoves.callers hnot hsingle).2
          ((no_leader_iff hreg key).2 (horderly key slot deadline delay hwaiting hlate))
    | completes c key slot role status he hleads hs' =>
        have hcallers : s'.callers =
            Function.update s.callers c (.completed key slot role status) := by
          rw [hs', State.goto, callers_completeFlight]
        refine hsingle.mono fun d key' role' hd => ?_
        rcases (leads_update hcallers).1 hd with ⟨-, slot', hslot'⟩ | ⟨-, hold⟩
        · cases hslot'
        · exact hold
    | ticks nanos hs' =>
        rw [hs']
        exact hsingle

/-! ## Every interleaving -/

theorem start_registered : Registered start := by
  intro key
  constructor
  · rintro ⟨slot, h⟩
    cases h
  · rintro ⟨c, slot, h⟩
    cases h

theorem start_singleLeader : SingleLeader start := by
  rintro key c c' role role' ⟨slot, h⟩ -
  cases h

/-- However callers, completions and the clock interleave: a key has at most one leader at a time exactly if
no follower takes a flight over while it is registered or an earlier follower that took one over has not
completed, and no flight is registered in the latter case. -/
theorem single_leader_iff_orderly (es : List Event) :
    Throughout step SingleLeader start es ↔ Along step Orderly start es :=
  throughout_iff_along (fun _ _ _ hreg hsingle _ h => registered_step hreg hsingle h)
    (fun _ e hreg hsingle => singleLeader_step_iff e hreg hsingle) start_registered start_singleLeader es

/-- A follower waits out its deadline while the leader is still at the backend. -/
def slowLeader : List Event :=
  [.tryFlight 0 7, .tryFlight 1 7, .setDeadline 1, .poll 1, .tick 2000000001, .checkDeadline 1]

theorem slowLeader_has_company : ¬ Throughout step SingleLeader start slowLeader := by
  intro hsingle
  have hboth : (run step start slowLeader).map (fun s => (s.callers 0, s.callers 1)) =
      some (.leading 7 0 .registered, .leading 7 0 .tookOver) := by
    decide +kernel
  rcases Option.map_eq_some_iff.1 hboth with ⟨s, hrun, hphases⟩
  have hleads : (s.callers 0).Leads 7 .registered := ⟨0, congrArg Prod.fst hphases⟩
  have hleads' : (s.callers 1).Leads 7 .tookOver := ⟨0, congrArg Prod.snd hphases⟩
  have hsame := hsingle slowLeader [] s (List.append_nil _).symm hrun 7 0 1 _ _ hleads hleads'
  cases hsame

end SingleFlight
end GatewayEdge
