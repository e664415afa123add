import GatewayEdge.SingleFlight

/-!
# FlightResults — whose status a follower gets

A leader that completes publishes its status in whatever flight is registered under the key then.  As long
as that is its own flight, or none, every follower gets the status of a leader of the flight it joined.
-/

namespace GatewayEdge
namespace SingleFlight

open Foundation

/-- Whoever was given `Follower(status)` joined a flight one of whose leaders has completed with that
status: the caller that registered it, or a follower that took it over. -/
def OwnResults (s : State) : Prop :=
  ∀ c key slot status, s.callers c = .followed key slot status →
    ∃ leader key' role, s.callers leader = .completed key' slot role status

/-- A leader completes only while its own flight is registered under the key, or none is. -/
def CompletesOwn (s : State) : Event → Prop
  | .complete c _ => ∀ key slot role, s.callers c = .leading key slot role →
      s.map key = none ∨ s.map key = some slot
  | _ => True

/-- Whatever stands in the slot of a flight was published by one of its leaders. -/
structure Published (s : State) : Prop where
  slots : ∀ slot status, s.slots slot = some status →
    ∃ leader key role, s.callers leader = .completed key slot role status
  results : OwnResults s

theorem start_published : Published start where
  slots := fun slot status h => by cases h
  results := fun c key slot status h => by cases h

section OneCaller

variable {s s' : State} {c : ℕ} {ph : Phase}

/-- A caller that has completed stays where it is. -/
theorem completed_update (hcallers : s'.callers = Function.update s.callers c ph)
    (hc : ∀ key slot role status, s.callers c ≠ .completed key slot role status) {slot : ℕ}
    {status : Int32} :
    (∃ leader key role, s.callers leader = .completed key slot role status) →
      ∃ leader key role, s'.callers leader = .completed key slot role status := by
  rintro ⟨leader, key, role, hleader⟩
  have hne : leader ≠ c := fun heq => hc key slot role status (heq ▸ hleader)
  refine ⟨leader, key, role, ?_⟩
  rw [hcallers, Function.update_of_ne hne]
  exact hleader

/-- A caller that goes on to another phase than that of a follower leaves the followers alone. -/
theorem followed_update (hcallers : s'.callers = Function.update s.callers c ph) {d : ℕ} {key : UInt64}
    {slot : ℕ} {status : Int32} (hd : s'.callers d = .followed key slot status) :
    ph = .followed key slot status ∨ s.callers d = .followed key slot status := by
  rw [hcallers] at hd
  by_cases hdc : d = c
  · rw [hdc, Function.update_self] at hd
    exact Or.inl hd
  · rw [Function.update_of_ne hdc] at hd
    exact Or.inr hd

/-- A caller goes on: nothing new is published and what it reads, if it reads, was published before. -/
theorem Published.update (h : Published s) (hcallers : s'.callers = Function.update s.callers c ph)
    (hslots : ∀ slot status, s'.slots slot = some status → s.slots slot = some status)
    (hc : ∀ key slot role status, s.callers c ≠ .completed key slot role status)
    (hread : ∀ key slot status, ph = .followed key slot status → s.slots slot = some status) :
    Published s' where
  slots := fun slot status hslot => completed_update hcallers hc (h.slots slot status (hslots slot status hslot))
  results := fun d key slot status hd => by
    rcases followed_update hcallers hd with hnew | hold
    · exact completed_update hcallers hc (h.slots slot status (hread key slot status hnew))
    · exact completed_update hcallers hc (h.results d key slot status hold)

end OneCaller

theorem completeFlight_of_free {s : State} {key : UInt64} (hfree : s.map key = none) (status : Int32) :
    completeFlight key status s = s := by
  unfold completeFlight
  rw [hfree]

theorem slots_completeFlight {s : State} {key : UInt64} {slot : ℕ} (hmap : s.map key = some slot)
    (status : Int32) :
    (completeFlight key status s).slots = Function.update s.slots slot (some status) := by
  unfold completeFlight
  rw [hmap]

/-- A leader that completes its own flight, or finds none, publishes in no other flight's slot. -/
theorem published_complete {s : State} {c : ℕ} {key : UInt64} {slot : ℕ} {role : Role} (h : Published s)
    (hleads : s.callers c = .leading key slot role) (hown : s.map key = none ∨ s.map key = some slot)
    (status : Int32) :
    Published ((completeFlight key status s).goto c (.completed key slot role status)) := by
  have hcallers : ((completeFlight key status s).goto c (.completed key slot role status)).callers =
      Function.update s.callers c (.completed key slot role status) := by
    rw [State.goto, callers_completeFlight]
  have hnot : ∀ key' slot' role' status', s.callers c ≠ .completed key' slot' role' status' := by
    intro key' slot' role' status' hcompleted
    rw [hleads] at hcompleted
    cases hcompleted
  have hslot : ∀ slot' status', (completeFlight key status s).slots slot' = some status' →
      slot' = slot ∧ status' = status ∨ s.slots slot' = some status' := by
    intro slot' status' hread
    rcases hown with hfree | hmap
    · -- Somebody else has completed the flight before.
      rw [completeFlight_of_free hfree] at hread
      exact Or.inr hread
    · rw [slots_completeFlight hmap] at hread
      by_cases heq : slot' = slot
      · rw [heq, Function.update_self] at hread
        exact Or.inl ⟨heq, (Option.some.inj hread).symm⟩
      · rw [Function.update_of_ne heq] at hread
        exact Or.inr hread
  refine { slots := ?_, results := ?_ }
  · intro slot' status' hread
    rcases hslot slot' status' hread with ⟨rfl, rfl⟩ | hold
    · -- The status just published: its leader is the caller itself.
      refine ⟨c, key, role, ?_⟩
      rw [hcallers, Function.update_self]
    · exact completed_update hcallers hnot (h.slots slot' status' hold)
  · intro d key' slot' status' hd
    rcases followed_update hcallers hd with hnew | hold
    · cases hnew
    · exact completed_update hcallers hnot (h.results d key' slot' status' hold)

theorem published_step (s : State) (e : Event) (s' : State) :
    Published s → CompletesOwn s e → step s e = some s' → Published s' := by
  intro hpub hown h
  have hnot : ∀ {c : ℕ}, ¬ (s.callers c).Active →
      ∀ key slot role status, s.callers c ≠ .completed key slot role status := by
    intro c hactive key slot role status hcompleted
    rw [hcompleted] at hactive
    exact hactive trivial
  cases step_effect h with
  | waits c ph hmoves hfrom hto hread =>
      exact hpub.update hmoves.callers (fun slot status hslot => hmoves.slots ▸ hslot) (hnot hfrom) hread
  | registers c key he hidle hfree hs' =>
      rcases tryFlight_of_free (c := c) hfree with ⟨-, hslots, hcallers⟩
      rw [hs']
      refine hpub.update hcallers ?_ (hnot (hidle ▸ id)) (fun key slot status hph => by cases hph)
      -- The slot of the new flight is empty.
      intro slot status hslot
      rw [hslots] at hslot
      by_cases heq : slot = s.nextSlot
      · rw [heq, Function.update_self] at hslot
        cases hslot
      · rwa [Function.update_of_ne heq] at hslot
  | takesOver c key slot deadline delay he hwaiting hlate hmoves =>
      exact hpub.update hmoves.callers (fun slot status hslot => hmoves.slots ▸ hslot)
        (hnot (hwaiting ▸ id)) (fun key slot status hph => by cases hph)
  | completes c key slot role status he hleads hs' =>
      subst he
      rw [hs']
      exact published_complete hpub hleads (hown key slot role hleads) status
  | ticks nanos hs' =>
      rw [hs']
      exact { slots := hpub.slots, results := hpub.results }

/-- However callers, completions and the clock interleave: as long as no leader completes while a flight
other than its own is registered under the key, every follower gets the status of a leader of the flight it
joined. -/
theorem followers_get_own_result (es : List Event) (hown : Along step CompletesOwn start es) :
    Throughout step OwnResults start es :=
  throughout_of_along published_step (fun _ h => h.results) start_published hown

/-- A leader and a follower of one flight. -/
def oneFlight : List Event :=
  [.tryFlight 0 7, .tryFlight 1 7, .setDeadline 1, .complete 0 200, .poll 1]

theorem oneFlight_own : Throughout step OwnResults start oneFlight := by
  refine followers_get_own_result oneFlight ?_
  refine ⟨trivial, fun s₁ h₁ => ⟨trivial, fun s₂ h₂ => ⟨trivial, fun s₃ h₃ => ⟨?_, ?_⟩⟩⟩⟩
  · cases h₁
    cases h₂
    cases h₃
    intro key slot role hleads
    cases hleads
    exact Or.inr rfl
  · exact fun _ _ => ⟨trivial, fun _ _ => trivial⟩

/-- Caller 1 takes the first flight over and completes late, when that of caller 2 is registered. -/
def lateCompletion : List Event :=
  [.tryFlight 0 7, .tryFlight 1 7, .setDeadline 1, .poll 1, .tick 2000000001, .checkDeadline 1,
    .complete 0 200, .tryFlight 2 7, .tryFlight 3 7, .complete 1 503, .setDeadline 3, .poll 3]

theorem lateCompletion_not_own : ¬ Throughout step OwnResults start lateCompletion := by
  intro hown
  cases hrun : run step start lateCompletion with
  | none => cases hrun
  | some t =>
      have hresults := hown lateCompletion [] t (List.append_nil _).symm hrun
      cases hrun
      -- Caller 3 has joined the flight of slot 1; the only callers that have completed led that of slot 0.
      rcases hresults 3 7 1 503 rfl with ⟨leader, key, role, hleader⟩
      rcases leader with _ | _ | _ | _ | n
      · cases hleader
      · cases hleader
      · cases hleader
      · cases hleader
      · cases hleader

end SingleFlight
end GatewayEdge
