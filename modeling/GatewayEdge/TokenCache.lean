import GatewayEdge.AuthSoundness

/-!
# TokenCache — the cached path against the complete check

The cache may let a token through that the complete check would refuse by now.  The other way round it loses
nothing: a token that the complete check accepts is accepted from the cache as well, for the same identity.
-/

namespace GatewayEdge
namespace AuthSoundness

open Auth
open Foundation
open Revocation (RevocationSnapshot tvStatus snapshotStale)

variable {c : Crypto} {env : EnvVars} {s₀ s : State} {es : List Event} {token : String}

/-! ## What a token says for good -/

/-- The identity is the one that the text of the token stands for. -/
def StandsFor (c : Crypto) (token : String) (id : UserIdentity) : Prop :=
  ∃ parts, readToken c token = some parts ∧ buildIdentity c parts.claims parts.payload = some id

/-- An entry holds what the token says. -/
def Faithful (c : Crypto) (token : String) (entry : CachedToken) : Prop :=
  ∃ parts, readToken c token = some parts ∧
    buildIdentity c parts.claims parts.payload = some entry.identity ∧ parts.claims.tv = entry.tv

theorem checkToken_standsFor {cfg : GatewayConfig} {snap : RevocationSnapshot} {now : ℕ} {checked : Checked}
    (h : checkToken c cfg snap now token = some checked) : StandsFor c token checked.identity := by
  rcases checkToken_eq_some_iff.1 h with ⟨parts, hchecks⟩
  exact ⟨parts, hchecks.read, hchecks.identity⟩

theorem faithful_entryOf {cfg : GatewayConfig} {snap : RevocationSnapshot} {now : ℕ} {checked : Checked}
    (h : checkToken c cfg snap now token = some checked) : Faithful c token (entryOf env now checked) := by
  rcases checkToken_eq_some_iff.1 h with ⟨parts, hchecks⟩
  exact ⟨parts, hchecks.read, hchecks.identity, hchecks.tv⟩

/-- Whenever the token is checked, its entry agrees with the check. -/
theorem Faithful.checked {cfg : GatewayConfig} {snap : RevocationSnapshot} {now : ℕ} {checked : Checked}
    {entry : CachedToken} (hentry : Faithful c token entry)
    (h : checkToken c cfg snap now token = some checked) :
    entry.identity = checked.identity ∧ entry.tv = checked.tv := by
  rcases hentry with ⟨parts, hread, hid, htv⟩
  rcases checkToken_eq_some_iff.1 h with ⟨parts', hchecks⟩
  cases hread.symm.trans hchecks.read
  exact ⟨Option.some.inj (hid.symm.trans hchecks.identity), htv.symm.trans hchecks.tv⟩

/-- In every state of a run each entry says what its token says. -/
theorem faithful_run (hfresh : s₀.cache = Lru.empty) (hrun : run (step c env) s₀ es = some s) :
    ∀ token entry, (token, entry) ∈ s.cache → Faithful c token entry := by
  refine invariant_run (I := fun s : State => ∀ token entry, (token, entry) ∈ s.cache → Faithful c token entry)
    ?_ ?_ hrun
  · intro m e t hm hstep token entry hmem
    rcases mem_cache_step hstep hmem with hold | ⟨checked, hcheck, rfl⟩
    · exact hm token entry hold
    · exact faithful_entryOf hcheck
  · intro token entry hmem
    rw [hfresh] at hmem
    exact absurd hmem (Lru.not_mem_empty _)

/-! ## The version floor -/

/-- The complete check has looked at the floor of every user with a name. -/
theorem checkToken_version {cfg : GatewayConfig} {snap : RevocationSnapshot} {now : ℕ} {checked : Checked}
    (h : checkToken c cfg snap now token = some checked) (hne : checked.identity.userId ≠ "") :
    tvStatus snap checked.identity.userId checked.tv = .valid := by
  rcases checkToken_sound h with ⟨-, -, -, -, hversion⟩
  exact hversion hne

/-! ## The cached path loses nothing -/

/-- A call with a token whose entry, if there is one, is faithful. -/
theorem validateToken_of_checked {cfg : GatewayConfig} {snap : RevocationSnapshot} {nowMs : ℕ}
    {cache : TokenCache} {checked : Checked}
    (hcache : ∀ entry, (token, entry) ∈ cache → Faithful c token entry)
    (hguard : (revocationFailClosed env && snapshotStale env nowMs snap) = false)
    (hchecked : checkToken c cfg snap (nowMs / 1000) token = some checked)
    (hversion : tvStatus snap checked.identity.userId checked.tv = .valid) :
    (validateToken c env cfg snap nowMs ("Bearer " ++ token) cache).2 = some checked.identity := by
  cases hfound : (cache.get token).2 with
  | none =>
      rw [validateToken_of_miss hguard hfound, hchecked]
      rfl
  | some entry =>
      rcases (hcache entry (Lru.mem_of_get hfound)).checked hchecked with ⟨hid, htv⟩
      rcases Nat.lt_or_ge (nowMs / 1000) entry.expiresAt with hlive | hexpired
      · rw [validateToken_of_hit hguard hfound hlive (by rw [hid, htv]; exact hversion), hid]
      · -- an expired entry is as good as none
        unfold validateToken
        rw [stripStart_append]
        dsimp only
        rw [hguard, if_neg Bool.false_ne_true]
        rcases hget : cache.get token with ⟨cache', found⟩
        rw [hget] at hfound
        have hsome : found = some entry := hfound
        subst hsome
        dsimp only
        rw [if_neg (Nat.not_lt_of_le hexpired), validateUncached_snd, hchecked]
        rfl

/-- In every run of a worker, through reloads, publications and evictions: a token is only ever accepted for
the one identity that its text stands for; and what the complete check accepts now is accepted, for the same
identity, whatever the cache holds.  The snapshot must be fresh where it has to be, and a token without a
user name must not be below a floor that is set for the empty name. -/
theorem cache_loses_nothing (hfresh : s₀.cache = Lru.empty) (hrun : run (step c env) s₀ es = some s)
    (token : String) :
    (∀ id, (s.validate c env ("Bearer " ++ token)).2 = some id → StandsFor c token id) ∧
    ∀ checked, checkToken c s.cfg s.snap s.nowSecs token = some checked →
      (revocationFailClosed env = true → snapshotStale env s.clockMs s.snap = false) →
      (checked.identity.userId = "" → tvStatus s.snap "" checked.tv = .valid) →
      (s.validate c env ("Bearer " ++ token)).2 = some checked.identity := by
  have hfaithful := faithful_run hfresh hrun
  constructor
  · intro id haccept
    -- Accepted from an entry of the cache, or after the complete check.
    rcases (validateToken_eq_some haccept).2 with ⟨entry, hmem, -, rfl, -⟩ | ⟨checked, hcheck, rfl⟩
    · rcases hfaithful token entry hmem with ⟨parts, hread, hid, -⟩
      exact ⟨parts, hread, hid⟩
    · exact checkToken_standsFor hcheck
  · intro checked hchecked hsnapshot hempty
    have hguard : (revocationFailClosed env && snapshotStale env s.clockMs s.snap) = false := by
      cases hclosed : revocationFailClosed env with
      | true => simpa using hsnapshot hclosed
      | false => rfl
    refine validateToken_of_checked (hfaithful token) hguard hchecked ?_
    by_cases hne : checked.identity.userId = ""
    · rw [hne]
      exact hempty hne
    · exact checkToken_version hchecked hne

/-- Alice's token a second after it was cached, the cache having been filled with a state in which it was valid
as well. -/
theorem alice_not_lost : ∃ s,
    run (step sampleCrypto (fun _ => none)) sampleState
      [.validate ("Bearer " ++ sampleToken), .tick 1700000001000] = some s ∧
    (s.validate sampleCrypto (fun _ => none) ("Bearer " ++ sampleToken)).2 = some alice := by
  have hlaw : ∀ s, run (step sampleCrypto (fun _ => none)) sampleState
      [.validate ("Bearer " ++ sampleToken), .tick 1700000001000] = some s → s.cfg = sampleState.cfg →
      s.snap = RevocationSnapshot.empty → s.nowSecs = 1700000001 →
      (s.validate sampleCrypto (fun _ => none) ("Bearer " ++ sampleToken)).2 = some alice := by
    intro s hrun hcfg hsnap hnow
    refine (cache_loses_nothing rfl hrun sampleToken).2 { identity := alice, exp := 2000000000, tv := none }
      ?_ ?_ ?_
    · rw [hcfg, hsnap, hnow]
      exact checkToken_sampleToken rfl rfl rfl (by decide) (fun _ => rfl) rfl
    · intro hclosed
      exact absurd hclosed (by decide)
    · intro hempty
      exact absurd hempty (by decide)
  exact ⟨_, rfl, hlaw _ rfl rfl rfl rfl⟩

end AuthSoundness
end GatewayEdge
