import GatewayEdge.ConfigReload

/-!
# ReloadRaces — a request between the two stores of a reload

A request holds the config it has loaded while the router may be replaced under it, and one that starts
between the two stores sees the new router with the old config.  It is routed under one config exactly as
long as no reload stores its router around a request, unless the two routers are the same.
-/

namespace GatewayEdge
namespace ConfigReload

open Foundation
open Router (updateRouter findService)

/-! ## The law and its condition -/

/-- The config is the default one, or was built from a config file. -/
def BuiltFromFile (l : Loader) (cfg : GatewayConfig) : Prop :=
  cfg = {} ∨ ∃ contents, l.load contents = some cfg

/-- A request is answered under the config it holds: the router is the one of the same file, and a path that
resolves under it is not left without a service. -/
def OneConfig (l : Loader) (s : State) : Event → Prop
  | .findService i path => ∀ held, s.requests i = some held →
      BuiltFromFile l held ∧ s.router = updateRouter held ∧
        (Resolves l held path → answer l s path held ≠ none)
  | _ => True

/-- Every request between its two loads holds the config the router was built from. -/
def InStep (s : State) : Prop := ∀ i held, s.requests i = some held → s.router = updateRouter held

/-- No request is under way when a router is stored, and none begins before its config is, except where the
routers coincide. -/
def Quiet (s : State) : Event → Prop
  | .storeRouter => ∀ modified cfg, s.phase = .parsed modified cfg →
      ∀ i held, s.requests i = some held → updateRouter cfg = updateRouter held
  | .loadConfig _ => s.router = updateRouter s.config
  | _ => True

/-! ## One step -/

/-- What a slot holds after one slot was set. -/
theorem held_of_update {requests : ℕ → Option GatewayConfig} {i j : ℕ} {slot : Option GatewayConfig}
    {held : GatewayConfig} (h : Function.update requests i slot j = some held) :
    slot = some held ∨ requests j = some held := by
  by_cases hj : j = i
  · rw [hj, Function.update_self] at h
    exact Or.inl h
  · rw [Function.update_of_ne hj] at h
    exact Or.inr h

theorem inStep_start (files : Files) : InStep (start files) := fun i held h => by cases h

/-- Where neither router nor slots move. -/
theorem InStep.frame {s s' : State} (h : InStep s) (hrouter : s'.router = s.router)
    (hrequests : s'.requests = s.requests) : InStep s' := by
  intro i held hheld
  rw [hrouter]
  exact h i held (hrequests ▸ hheld)

/-- A step keeps the requests in step exactly when it is quiet. -/
theorem inStep_step_iff (l : Loader) {s : State} (e : Event) (h : InStep s) :
    (∀ s', step l s e = some s' → InStep s') ↔ Quiet s e := by
  cases e with
  | storeRouter =>
      constructor
      · intro hnext modified cfg hphase i held hheld
        have hs : step l s .storeRouter =
            some { s with router := updateRouter cfg, phase := .routed modified cfg } := by
          unfold step
          dsimp only
          rw [hphase]
        exact hnext _ hs i held hheld
      · intro hquiet s' hs i held hheld
        rcases step_storeRouter hs with ⟨modified, cfg, hphase, rfl⟩
        exact hquiet modified cfg hphase i held hheld
  | loadConfig i =>
      constructor
      · intro hnext
        exact hnext _ rfl i s.config (Function.update_self ..)
      · intro hquiet s' hs j held hheld
        cases hs
        rcases held_of_update hheld with hown | hother
        · exact Option.some.inj hown ▸ hquiet
        · exact h j held hother
  | findService i path =>
      refine ⟨fun _ => trivial, fun _ s' hs j held hheld => ?_⟩
      rcases step_findService hs with ⟨_, -, rfl⟩
      rcases held_of_update hheld with hown | hother
      · cases hown
      · exact h j held hother
  | poll reply outcome =>
      refine ⟨fun _ => trivial, fun _ s' hs => ?_⟩
      rcases step_poll hs with ⟨hrest, -, -⟩
      exact h.frame (by rw [hrest]) (by rw [hrest])
  | stat ok =>
      refine ⟨fun _ => trivial, fun _ s' hs => ?_⟩
      rcases step_stat hs with ⟨-, ⟨rfl, -⟩ | ⟨file, -, -, rfl⟩⟩
      · exact h
      · exact h.frame rfl rfl
  | read ok =>
      refine ⟨fun _ => trivial, fun _ s' hs => ?_⟩
      rcases step_read hs with ⟨modified, -, ⟨-, rfl⟩ | ⟨file, -, rfl⟩⟩
      · exact h.frame rfl rfl
      · exact h.frame rfl rfl
  | parse =>
      refine ⟨fun _ => trivial, fun _ s' hs => ?_⟩
      rcases step_parse hs with ⟨modified, data, -, ⟨-, rfl⟩ | ⟨cfg, -, rfl⟩⟩
      · exact h.frame rfl rfl
      · exact h.frame rfl rfl
  | storeConfig =>
      refine ⟨fun _ => trivial, fun _ s' hs => ?_⟩
      rcases step_storeConfig hs with ⟨modified, cfg, -, rfl⟩
      exact h.frame rfl rfl

/-! ## Where configs come from -/

/-- Every config there is was built from a file, the initial one apart. -/
structure FromFiles (l : Loader) (s : State) : Prop where
  config : BuiltFromFile l s.config
  requests : ∀ i held, s.requests i = some held → BuiltFromFile l held
  parsed : ∀ modified cfg, s.phase = .parsed modified cfg → BuiltFromFile l cfg
  routed : ∀ modified cfg, s.phase = .routed modified cfg → BuiltFromFile l cfg

theorem fromFiles_start (l : Loader) (files : Files) : FromFiles l (start files) where
  config := Or.inl rfl
  requests := fun i held h => by cases h
  parsed := fun modified cfg h => by cases h
  routed := fun modified cfg h => by cases h

/-- A phase without a config has nothing to show. -/
theorem FromFiles.of_phase {l : Loader} {s : State} (h : FromFiles l s) {phase : Phase}
    (hparsed : ∀ modified cfg, phase = .parsed modified cfg → BuiltFromFile l cfg)
    (hrouted : ∀ modified cfg, phase = .routed modified cfg → BuiltFromFile l cfg) :
    FromFiles l { s with phase := phase } where
  config := h.config
  requests := h.requests
  parsed := hparsed
  routed := hrouted

theorem fromFiles_step (l : Loader) (s : State) (e : Event) (s' : State) (h : FromFiles l s)
    (hs : step l s e = some s') : FromFiles l s' := by
  cases e with
  | poll reply outcome =>
      rcases step_poll hs with ⟨hrest, -, -⟩
      rw [hrest]
      exact { config := h.config, requests := h.requests, parsed := h.parsed, routed := h.routed }
  | stat ok =>
      rcases step_stat hs with ⟨-, ⟨rfl, -⟩ | ⟨file, -, -, rfl⟩⟩
      · exact h
      · exact h.of_phase (fun _ _ hp => by cases hp) fun _ _ hp => by cases hp
  | read ok =>
      rcases step_read hs with ⟨modified, -, ⟨-, rfl⟩ | ⟨file, -, rfl⟩⟩
      · exact h.of_phase (fun _ _ hp => by cases hp) fun _ _ hp => by cases hp
      · exact h.of_phase (fun _ _ hp => by cases hp) fun _ _ hp => by cases hp
  | parse =>
      rcases step_parse hs with ⟨modified, data, -, ⟨-, rfl⟩ | ⟨cfg, hload, rfl⟩⟩
      · exact h.of_phase (fun _ _ hp => by cases hp) fun _ _ hp => by cases hp
      · refine h.of_phase (fun m c hp => ?_) fun _ _ hp => by cases hp
        cases hp
        exact Or.inr ⟨data, hload⟩
  | storeRouter =>
      rcases step_storeRouter hs with ⟨modified, cfg, hphase, rfl⟩
      refine { config := h.config, requests := h.requests, parsed := fun _ _ hp => (by cases hp), routed := ?_ }
      intro m c hp
      cases hp
      exact h.parsed modified cfg hphase
  | storeConfig =>
      rcases step_storeConfig hs with ⟨modified, cfg, hphase, rfl⟩
      exact
        { config := h.routed modified cfg hphase
          requests := h.requests
          parsed := fun _ _ hp => (by cases hp)
          routed := fun _ _ hp => (by cases hp) }
  | loadConfig i =>
      cases hs
      refine { config := h.config, requests := fun j held hheld => ?_, parsed := h.parsed, routed := h.routed }
      rcases held_of_update hheld with hown | hother
      · exact Option.some.inj hown ▸ h.config
      · exact h.requests j held hother
  | findService i path =>
      rcases step_findService hs with ⟨_, -, rfl⟩
      refine { config := h.config, requests := fun j held hheld => ?_, parsed := h.parsed, routed := h.routed }
      rcases held_of_update hheld with hown | hother
      · cases hown
      · exact h.requests j held hother

/-! ## Every run -/

theorem oneConfig_of_inStep {l : Loader} {s : State} (hfiles : FromFiles l s) (h : InStep s) (e : Event) :
    OneConfig l s e := by
  cases e with
  | findService i path =>
      intro held hheld
      have hrouter := h i held hheld
      refine ⟨hfiles.requests i held hheld, hrouter, fun hresolves => ?_⟩
      unfold answer
      rw [hrouter]
      exact hresolves
  | _ => trivial

/-- In every run whose reloads are quiet each request is routed under one config; and the requests hold the
router's own config in all states of a run exactly when its reloads are quiet. -/
theorem one_config_when_quiet (l : Loader) (files : Files) (es : List Event) :
    (Along (step l) Quiet (start files) es → Along (step l) (OneConfig l) (start files) es) ∧
      (Throughout (step l) InStep (start files) es ↔ Along (step l) Quiet (start files) es) := by
  refine ⟨fun hquiet => ?_, ?_⟩
  · refine along_mono (I := fun s => FromFiles l s ∧ InStep s) ?_ ?_
      ⟨fromFiles_start l files, inStep_start files⟩ hquiet
    · rintro s e s' ⟨hfiles, hstep⟩ hq hs
      exact ⟨fromFiles_step l s e s' hfiles hs, (inStep_step_iff l e hstep).2 hq s' hs⟩
    · rintro s e ⟨hfiles, hstep⟩ -
      exact oneConfig_of_inStep hfiles hstep e
  · refine throughout_iff_along (I := fun _ => True) (fun _ _ _ _ _ _ _ => trivial) ?_ trivial
      (inStep_start files) es
    intro s e _ hstep
    exact inStep_step_iff l e hstep

/-- A request while a reload has parsed the next config, and one after the reload. -/
def requestsBesideReload : List Event :=
  [.poll (.document (sampleJson "v1" "s")) (.written 1), .stat true, .read true, .parse, .storeRouter,
    .storeConfig, .poll (.document (sampleJson "v2" "t")) (.written 2), .stat true, .read true, .parse,
    .loadConfig 0, .findService 0 "/a", .storeRouter, .storeConfig, .loadConfig 0, .findService 0 "/a"]

/-- A quiet step of a run with one request at a time. -/
def QuietAlone (s : State) : Event → Prop
  | .storeRouter => s.requests 0 = none
  | .loadConfig i => i = 0 ∧ s.router = updateRouter s.config
  | _ => True

instance (s : State) : DecidablePred (QuietAlone s)
  | .storeRouter => inferInstanceAs (Decidable (s.requests 0 = none))
  | .loadConfig i => inferInstanceAs (Decidable (i = 0 ∧ s.router = updateRouter s.config))
  | .poll .. | .stat _ | .read _ | .parse | .storeConfig | .findService .. => inferInstanceAs (Decidable True)

theorem quiet_of_quietAlone {l : Loader} {s : State} {es : List Event} (hs : ∀ i ≠ 0, s.requests i = none)
    (h : Along (step l) QuietAlone s es) : Along (step l) Quiet s es := by
  refine along_mono (I := fun s => ∀ i ≠ 0, s.requests i = none) ?_ ?_ hs h
  · intro s e s' hnone hquiet hstep i hi
    cases e with
    | poll reply outcome =>
        rw [(step_poll hstep).1]
        exact hnone i hi
    | stat ok =>
        rcases step_stat hstep with ⟨-, ⟨rfl, -⟩ | ⟨_, -, -, rfl⟩⟩
        · exact hnone i hi
        · exact hnone i hi
    | read ok =>
        rcases step_read hstep with ⟨_, -, ⟨-, rfl⟩ | ⟨_, -, rfl⟩⟩
        · exact hnone i hi
        · exact hnone i hi
    | parse =>
        rcases step_parse hstep with ⟨_, _, -, ⟨-, rfl⟩ | ⟨_, -, rfl⟩⟩
        · exact hnone i hi
        · exact hnone i hi
    | storeRouter =>
        rcases step_storeRouter hstep with ⟨_, _, -, rfl⟩
        exact hnone i hi
    | storeConfig =>
        rcases step_storeConfig hstep with ⟨_, _, -, rfl⟩
        exact hnone i hi
    | loadConfig j =>
        cases hstep
        rw [hquiet.1]
        exact (Function.update_of_ne hi _ _).trans (hnone i hi)
    | findService j path =>
        rcases step_findService hstep with ⟨_, -, rfl⟩
        dsimp only
        rw [Function.update_apply]
        split
        · rfl
        · exact hnone i hi
  · intro s e hnone hquiet
    cases e with
    | storeRouter =>
        intro modified cfg _ i held hheld
        by_cases hi : i = 0
        · rw [hi, hquiet] at hheld
          cases hheld
        · rw [hnone i hi] at hheld
          cases hheld
    | loadConfig i => exact hquiet.2
    | _ => trivial

/-- The first request is routed under `v1` and the second under `v2`. -/
theorem requests_beside_reload :
    Along (step sampleLoader) Quiet (start { temp := none, target := none }) requestsBesideReload ∧
      Along (step sampleLoader) (OneConfig sampleLoader) (start { temp := none, target := none })
        requestsBesideReload := by
  have hquiet : Along (step sampleLoader) Quiet (start { temp := none, target := none })
      requestsBesideReload :=
    quiet_of_quietAlone (fun _ _ => rfl) (by decide +kernel)
  exact ⟨hquiet, (one_config_when_quiet sampleLoader _ requestsBesideReload).1 hquiet⟩

/-- A reload that stores its router while request 0 is between its two loads. -/
def reloadAroundRequest : List Event :=
  [.poll (.document (sampleJson "v1" "s")) (.written 1), .stat true, .read true, .parse, .storeRouter,
    .storeConfig, .poll (.document (sampleJson "v2" "t")) (.written 2), .stat true, .read true, .parse,
    .loadConfig 0, .storeRouter]

/-- The config of service `s` behind `/a` is replaced by one with service `t` behind it, while a request for
`/a` is between its two loads: both configs have a service for the path, the request gets none. -/
theorem request_between_stores_unrouted :
    ∃ s held,
      run (step sampleLoader) (start { temp := none, target := none }) reloadAroundRequest = some s ∧
      s.requests 0 = some held ∧ Resolves sampleLoader held "/a" ∧
      Resolves sampleLoader (sampleConfig "v2" "t") "/a" ∧
      answer sampleLoader s "/a" held = none ∧ ¬ OneConfig sampleLoader s (.findService 0 "/a") := by
  have hrun : (run (step sampleLoader) (start { temp := none, target := none }) reloadAroundRequest).map
      (fun s => (s.requests 0, s.router)) =
        some (some (sampleConfig "v1" "s"), updateRouter (sampleConfig "v2" "t")) := by
    decide +kernel
  rcases Option.map_eq_some_iff.1 hrun with ⟨s, hs, hends⟩
  rcases Prod.mk.inj hends with ⟨hheld, hrouter⟩
  have hold : Resolves sampleLoader (sampleConfig "v1" "s") "/a" := by
    unfold Resolves
    decide +kernel
  have hnew : Resolves sampleLoader (sampleConfig "v2" "t") "/a" := by
    unfold Resolves
    decide
  have hnone : answer sampleLoader s "/a" (sampleConfig "v1" "s") = none := by
    unfold answer
    rw [hrouter]
    decide
  refine ⟨s, _, hs, hheld, hold, hnew, hnone, fun hone => ?_⟩
  exact (hone _ hheld).2.2 hold hnone

end ConfigReload
end GatewayEdge
