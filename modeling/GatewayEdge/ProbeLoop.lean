import GatewayEdge.Config
import GatewayEdge.Foundation.Run
import GatewayEdge.Health
import GatewayEdge.UpstreamUrl
import Mathlib.Algebra.Order.Field.Rat
import Mathlib.Data.Finset.Card
import Mathlib.Tactic.FieldSimp
import Mathlib.Tactic.Linarith

/-!
# ProbeLoop — the prober, its registry and the down ratio

Each cycle of the prober asks every address of the current config and adds those it has not met to a
registry.  Nothing ever leaves the registry, and `down_ratio` is taken over all of it, so an address that
a reload has dropped keeps counting, with the flag that its last probe has left it.
-/

namespace GatewayEdge
namespace Health

open Foundation
open UpstreamUrl (normalizeUrl)

/-! ## Addresses -/

/-- `if !known.contains(a) { known.push(a) }`. -/
def pushNew (known : List String) (address : String) : List String :=
  if address ∈ known then known else known ++ [address]

/-- The addresses of all upstreams of all services, as often as they occur. -/
def listedAddresses (cfg : GatewayConfig) : List String :=
  cfg.services.flatMap fun service =>
    service.2.regionalUpstreams.flatMap fun pool => pool.2.map Upstream.address

/-- Each of them once. -/
def uniqueAddresses (cfg : GatewayConfig) : List String := (listedAddresses cfg).foldl pushNew []

/-! ## A cycle -/

/-- What comes back from a probe. -/
inductive Reply
  | status (code : ℕ)
  | failed
  deriving DecidableEq, Repr

/-- Anything but a server error counts as alive. -/
def alive : Reply → Bool
  | .status code => code < 500 && code != 503
  | .failed => false

/-- One worker: the config in force, the registry of its prober, the slots, and two metrics. -/
structure Prober where
  config : GatewayConfig := {}
  registry : List String := []
  shm : Shm
  checksTotal : ℕ := 0
  checkFailuresTotal : ℕ := 0

/-- What a cycle meets: the answer behind each URL, and the clock when each address has been asked. -/
structure Surroundings where
  fetch : String → Reply
  clockMs : String → ℕ

variable (fxHash : String → ℕ)

def probeAddress (cfg : HealthCheckConfig) (around : Surroundings) (p : Prober) (address : String) :
    Prober :=
  let ok := alive (around.fetch (normalizeUrl address cfg.path))
  { p with
    checksTotal := p.checksTotal + 1
    checkFailuresTotal := if ok then p.checkFailuresTotal else p.checkFailuresTotal + 1
    shm := probe fxHash (around.clockMs address) address ok cfg.unhealthyThreshold cfg.healthyThreshold
      p.shm }

/-- One round of `probe_loop` with active checks enabled. -/
def cycle (cfg : HealthCheckConfig) (around : Surroundings) (p : Prober) : Prober :=
  let addrs := uniqueAddresses p.config
  addrs.foldl (probeAddress fxHash cfg around) { p with registry := addrs.foldl pushNew p.registry }

inductive ProbeEvent
  | reload (cfg : GatewayConfig)
  | cycle (around : Surroundings)

/-- Without active checks there is no cycle. -/
def proberStep (p : Prober) : ProbeEvent → Option Prober
  | .reload cfg => some { p with config := cfg }
  | .cycle around =>
    match p.config.healthCheck with
    | some cfg => if cfg.enabled then some (cycle fxHash cfg around p) else none
    | none => none

/-! ## The down ratio -/

/-- `filter(|a| !is_healthy(a)).count()`. -/
def countDown : List String → Shm → Shm × ℕ
  | [], shm => (shm, 0)
  | a :: as, shm =>
    match isHealthy fxHash a shm with
    | (shm, true) => countDown as shm
    | (shm, false) =>
      match countDown as shm with
      | (shm, down) => (shm, down + 1)

/-- `down_ratio`. -/
def downRatio (p : Prober) : Shm × ℚ :=
  if p.registry = [] then (p.shm, 0)
  else
    match countDown fxHash p.registry p.shm with
    | (shm, down) => (shm, down / p.registry.length)

/-! ## What the ratio is to be -/

/-- The distinct upstream addresses of a config. -/
def configAddresses (cfg : GatewayConfig) : Finset String := (listedAddresses cfg).toFinset

def IsDown (shm : Shm) (address : String) : Prop := (isHealthy fxHash address shm).2 = false

instance (shm : Shm) : DecidablePred (IsDown fxHash shm) :=
  fun _ => inferInstanceAs (Decidable (_ = _))

/-- The part of some addresses that is down, zero if there are none. -/
def downShare (shm : Shm) (addresses : Finset String) : ℚ :=
  if addresses = ∅ then 0 else (addresses.filter (IsDown fxHash shm)).card / addresses.card

/-- The ratio is that of the config in force. -/
def RatioTracks (p : Prober) : Prop :=
  (downRatio fxHash p).2 = downShare fxHash p.shm (configAddresses p.config)

/-- The addresses that earlier cycles have met and the config no longer has. -/
def departed (p : Prober) : Finset String := p.registry.toFinset \ configAddresses p.config

/-- They are down in the proportion in which the addresses of the config are. -/
def DepartedInProportion (p : Prober) : Prop :=
  ((departed p).filter (IsDown fxHash p.shm)).card =
    downShare fxHash p.shm (configAddresses p.config) * (departed p).card

/-! ## The registry -/

theorem mem_pushNew {known : List String} {address a : String} :
    a ∈ pushNew known address ↔ a ∈ known ∨ a = address := by
  unfold pushNew
  split
  · rename_i hknown
    constructor
    · exact Or.inl
    · rintro (hmem | rfl)
      · exact hmem
      · exact hknown
  · simp

theorem nodup_pushNew {known : List String} (h : known.Nodup) (address : String) :
    (pushNew known address).Nodup := by
  unfold pushNew
  split
  · exact h
  · rename_i hnew
    refine List.nodup_append.2 ⟨h, List.nodup_singleton _, ?_⟩
    intro a ha b hb heq
    rw [List.mem_singleton.1 hb] at heq
    exact hnew (heq ▸ ha)

theorem mem_foldl_pushNew (as : List String) {known : List String} {a : String} :
    a ∈ as.foldl pushNew known ↔ a ∈ known ∨ a ∈ as := by
  induction as generalizing known with
  | nil => simp
  | cons b as ih => rw [List.foldl_cons, ih, mem_pushNew, List.mem_cons, or_assoc]

theorem nodup_foldl_pushNew (as : List String) {known : List String} (h : known.Nodup) :
    (as.foldl pushNew known).Nodup := by
  induction as generalizing known with
  | nil => exact h
  | cons b as ih => exact ih (nodup_pushNew h b)

theorem foldl_probeAddress_frame (cfg : HealthCheckConfig) (around : Surroundings)
    (as : List String) (p : Prober) :
    (as.foldl (probeAddress fxHash cfg around) p).registry = p.registry ∧
      (as.foldl (probeAddress fxHash cfg around) p).config = p.config := by
  induction as generalizing p with
  | nil => exact ⟨rfl, rfl⟩
  | cons a as ih => exact ih _

/-- A cycle keeps what is registered, and registers the addresses of the config. -/
theorem cycle_registry (cfg : HealthCheckConfig) (around : Surroundings) (p : Prober) :
    (cycle fxHash cfg around p).registry = (uniqueAddresses p.config).foldl pushNew p.registry ∧
      (cycle fxHash cfg around p).config = p.config :=
  foldl_probeAddress_frame fxHash cfg around _ _

/-! ## The ratio over the registry -/

variable {fxHash}

theorem touch_touch (h : UpstreamHealth) : touch (touch h) = touch h := by
  unfold touch
  by_cases hseed : h.lastCheckMs = 0 ∧ h.healthy = 0
  · simp [hseed]
  · simp [hseed]

/-- To read one flag changes no other reading. -/
theorem isDown_after (a b : String) (shm : Shm) :
    IsDown fxHash (isHealthy fxHash a shm).1 b ↔ IsDown fxHash shm b := by
  unfold IsDown isHealthy
  by_cases hslot : slotOf fxHash b = slotOf fxHash a
  · simp [hslot, touch_touch]
  · simp [hslot]

theorem countDown_eq (as : List String) (shm : Shm) :
    (countDown fxHash as shm).2 = as.countP fun a => IsDown fxHash shm a := by
  induction as generalizing shm with
  | nil => rfl
  | cons a as ih =>
      have hrest : (as.countP fun b => IsDown fxHash (isHealthy fxHash a shm).1 b) =
          as.countP fun b => IsDown fxHash shm b :=
        List.countP_congr fun b _ => by simpa using isDown_after a b shm
      rcases hread : isHealthy fxHash a shm with ⟨shm', up⟩
      rw [hread] at hrest
      cases up with
      | true =>
          have hup : ¬ IsDown fxHash shm a := by simp [IsDown, hread]
          rw [List.countP_cons_of_neg (by simpa using hup), ← hrest, ← ih]
          simp [countDown, hread]
      | false =>
          have hdown : IsDown fxHash shm a := by simp [IsDown, hread]
          rw [List.countP_cons_of_pos (by simpa using hdown), ← hrest, ← ih]
          simp [countDown, hread]

/-- The ratio is the share of the registered addresses. -/
theorem downRatio_eq {p : Prober} (h : p.registry.Nodup) :
    (downRatio fxHash p).2 = downShare fxHash p.shm p.registry.toFinset := by
  -- No address is registered twice, so counting the list counts the set.
  have hfilter : (p.registry.filter fun a => IsDown fxHash p.shm a).toFinset =
      p.registry.toFinset.filter (IsDown fxHash p.shm) := by
    ext a
    simp
  have hcount : (countDown fxHash p.registry p.shm).2 =
      (p.registry.toFinset.filter (IsDown fxHash p.shm)).card := by
    rw [countDown_eq, List.countP_eq_length_filter, ← hfilter,
      List.toFinset_card_of_nodup (h.filter _)]
  have hcard : p.registry.toFinset.card = p.registry.length := List.toFinset_card_of_nodup h
  unfold downRatio downShare
  by_cases hempty : p.registry = []
  · simp [hempty]
  · rw [if_neg hempty, if_neg (by simpa using hempty), ← hcount, hcard]

/-! ## The ratio and the config -/

/-- A union is down in the proportion of one part exactly when the other part is. -/
theorem downShare_eq_iff {shm : Shm} {all part : Finset String} (h : part ⊆ all) :
    downShare fxHash shm all = downShare fxHash shm part ↔
      (((all \ part).filter (IsDown fxHash shm)).card : ℚ) =
        downShare fxHash shm part * (all \ part).card := by
  have hcard : ((all \ part).card : ℚ) + part.card = all.card := by
    exact_mod_cast Finset.card_sdiff_add_card_eq_card h
  have hdown : (((all \ part).filter (IsDown fxHash shm)).card : ℚ) +
      (part.filter (IsDown fxHash shm)).card = (all.filter (IsDown fxHash shm)).card := by
    have hsplit : (all \ part).filter (IsDown fxHash shm) =
        all.filter (IsDown fxHash shm) \ part.filter (IsDown fxHash shm) := by
      ext a
      simp only [Finset.mem_filter, Finset.mem_sdiff]
      tauto
    rw [hsplit]
    exact_mod_cast Finset.card_sdiff_add_card_eq_card (Finset.filter_subset_filter _ h)
  -- The share of a part, times its size, is what is down of it.
  have hpart : downShare fxHash shm part * part.card = (part.filter (IsDown fxHash shm)).card := by
    unfold downShare
    by_cases hempty : part = ∅
    · simp [hempty]
    · have hpos : (part.card : ℚ) ≠ 0 := by simpa using hempty
      rw [if_neg hempty, div_mul_cancel₀ _ hpos]
  by_cases hall : all = ∅
  · subst hall
    have hnone : part = ∅ := Finset.subset_empty.1 h
    simp [hnone]
  · have hpos : (all.card : ℚ) ≠ 0 := by simpa using hall
    have hshare : downShare fxHash shm all = (all.filter (IsDown fxHash shm)).card / all.card :=
      if_neg hall
    rw [hshare, div_eq_iff hpos, ← hdown, ← hcard, mul_add, hpart]
    constructor
    · intro heq
      linarith
    · intro heq
      linarith

theorem ratioTracks_iff {p : Prober} (hnodup : p.registry.Nodup)
    (hknown : configAddresses p.config ⊆ p.registry.toFinset) :
    RatioTracks fxHash p ↔ DepartedInProportion fxHash p := by
  unfold RatioTracks DepartedInProportion departed
  rw [downRatio_eq hnodup]
  exact downShare_eq_iff hknown

/-! ## Whole runs -/

/-- Right after a cycle the ratio is that of the config. -/
def TracksAfter (fxHash : String → ℕ) (p : Prober) (e : ProbeEvent) : Prop :=
  ∀ around p', e = .cycle around → proberStep fxHash p e = some p' → RatioTracks fxHash p'

def InProportionAfter (fxHash : String → ℕ) (p : Prober) (e : ProbeEvent) : Prop :=
  ∀ around p', e = .cycle around → proberStep fxHash p e = some p' → DepartedInProportion fxHash p'

theorem proberStep_cycle {p p' : Prober} {around : Surroundings} (hnodup : p.registry.Nodup)
    (h : proberStep fxHash p (.cycle around) = some p') :
    p'.registry.Nodup ∧ configAddresses p'.config ⊆ p'.registry.toFinset := by
  cases hcfg : p.config.healthCheck with
  | none => simp [proberStep, hcfg] at h
  | some cfg =>
      cases henabled : cfg.enabled with
      | false => simp [proberStep, hcfg, henabled] at h
      | true =>
          have hcycle : cycle fxHash cfg around p = p' := by simpa [proberStep, hcfg, henabled] using h
          -- Whatever the config lists is registered before it is asked.
          rcases cycle_registry fxHash cfg around p with ⟨hregistry, hconfig⟩
          rw [← hcycle, hregistry, hconfig]
          refine ⟨nodup_foldl_pushNew _ hnodup, fun a ha => ?_⟩
          have hlisted : a ∈ listedAddresses p.config := List.mem_toFinset.1 ha
          have hunique : a ∈ uniqueAddresses p.config := (mem_foldl_pushNew _).2 (Or.inr hlisted)
          exact List.mem_toFinset.2 ((mem_foldl_pushNew _).2 (Or.inr hunique))

theorem nodup_step (p : Prober) (e : ProbeEvent) (p' : Prober) (hnodup : p.registry.Nodup)
    (h : proberStep fxHash p e = some p') : p'.registry.Nodup := by
  cases e with
  | reload cfg =>
      cases h
      exact hnodup
  | cycle around => exact (proberStep_cycle hnodup h).1

/-- Over any reloads and cycles the ratio follows the config exactly as long as the addresses that have
left it are down in proportion. -/
theorem down_ratio_tracks_iff (fxHash : String → ℕ) (shm : Shm) (events : List ProbeEvent) :
    Along (proberStep fxHash) (TracksAfter fxHash) { shm := shm } events ↔
      Along (proberStep fxHash) (InProportionAfter fxHash) { shm := shm } events := by
  apply along_congr (I := fun p => p.registry.Nodup) nodup_step
  · intro p e hnodup
    constructor
    · intro h around p' he hstep
      rcases proberStep_cycle hnodup (he ▸ hstep) with ⟨hnodup', hknown⟩
      exact (ratioTracks_iff hnodup' hknown).1 (h around p' he hstep)
    · intro h around p' he hstep
      rcases proberStep_cycle hnodup (he ▸ hstep) with ⟨hnodup', hknown⟩
      exact (ratioTracks_iff hnodup' hknown).2 (h around p' he hstep)
  · exact List.nodup_nil

/-- A config with one upstream, which one failed probe takes down. -/
def soleUpstream (address : String) : GatewayConfig where
  services :=
    [("s",
      { name := "s"
        rateLimitMax := 10
        regionalUpstreams := [("eu", [{ name := "u", address := address }])]
        requireAuth := false })]
  healthCheck := some { unhealthyThreshold := 1 }

/-- The upstream fails and is replaced by another one, which answers. -/
def replacement : List ProbeEvent := [
  .reload (soleUpstream "a:80"),
  .cycle { fetch := fun _ => .failed, clockMs := fun _ => 1000 },
  .reload (soleUpstream "b:80"),
  .cycle { fetch := fun _ => .status 200, clockMs := fun _ => 11000 }]

/-- The two addresses have slots of their own. -/
def twoSlots (address : String) : ℕ := if address = "a:80" then 1 else 2

theorem replaced_upstream_counts :
    ¬ Along (proberStep twoSlots) (TracksAfter twoSlots) { shm := fun _ => {} } replacement := by
  intro h
  have hlast := (((h.2 _ rfl).2 _ rfl).2 _ rfl).1 _ _ rfl rfl
  unfold RatioTracks at hlast
  exact absurd hlast (by decide +kernel)

end Health
end GatewayEdge
