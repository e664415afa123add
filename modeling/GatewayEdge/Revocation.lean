import GatewayEdge.Config

/-!
# Revocation — the local auth snapshot

An immutable snapshot of revoked keys and token-version floors that the hot path reads without
any I/O.  The two hash maps are functions.
-/

namespace GatewayEdge
namespace Revocation

structure RevocationSnapshot where
  /-- Full Redis key → expiry epoch seconds. -/
  revoked : String → Option Nat
  /-- User → token-version floor. -/
  tvFloors : String → Option Nat
  syncedAtMs : Nat
  /-- Number of successful syncs, 0 = never synced. -/
  generation : Nat

def RevocationSnapshot.empty : RevocationSnapshot where
  revoked := fun _ => none
  tvFloors := fun _ => none
  syncedAtMs := 0
  generation := 0

def jtiKey (jti : String) : String := "gateway:revoked:jti:" ++ jti
def tokenKey (tokenHashHex : String) : String := "gateway:revoked:token:" ++ tokenHashHex

/-- The key is in the snapshot and its expiry is in the future. -/
def RevocationSnapshot.listed (snap : RevocationSnapshot) (now : Nat) (key : String) : Bool :=
  match snap.revoked key with
  | some expiry => now < expiry
  | none => false

def isRevoked (snap : RevocationSnapshot) (now : Nat) (jti : Option String)
    (tokenHashHex : String) : Bool :=
  (match jti with
    | some j => j != "" && snap.listed now (jtiKey j)
    | none => false) || snap.listed now (tokenKey tokenHashHex)

inductive TvStatus
  | valid
  | stale
  deriving DecidableEq, Repr

def tvStatus (snap : RevocationSnapshot) (userId : String) (tokenTv : Option Nat) : TvStatus :=
  match snap.tvFloors userId with
  | none => .valid
  | some floor => if tokenTv = some floor then .valid else .stale

def syncIntervalSecs (env : EnvVars) : Nat := env.clamped "AUTH_SNAPSHOT_SYNC_SECS" 1 300 5

def snapshotStale (env : EnvVars) (nowMs : Nat) (snap : RevocationSnapshot) : Bool :=
  snap.generation == 0 || syncIntervalSecs env * 3000 + 5000 < nowMs - snap.syncedAtMs

/-- The Redis keys that revoke a token with this identifier and hash: the identifier counts only
when it is not empty. -/
def Names (jti : Option String) (tokenHashHex key : String) : Prop :=
  (∃ j, jti = some j ∧ j ≠ "" ∧ key = jtiKey j) ∨ key = tokenKey tokenHashHex

/-- A token is revoked exactly when one of the keys that name it is listed. -/
theorem isRevoked_iff {snap : RevocationSnapshot} {now : Nat} {jti : Option String}
    {tokenHashHex : String} :
    isRevoked snap now jti tokenHashHex = true ↔
      ∃ key, Names jti tokenHashHex key ∧ snap.listed now key = true := by
  unfold isRevoked Names
  constructor
  · intro h
    rcases Bool.or_eq_true_iff.1 h with hjti | htoken
    · cases jti with
      | none => simp at hjti
      | some j =>
          have hj : j ≠ "" ∧ snap.listed now (jtiKey j) = true := by simpa using hjti
          exact ⟨jtiKey j, Or.inl ⟨j, rfl, hj.1, rfl⟩, hj.2⟩
    · exact ⟨_, Or.inr rfl, htoken⟩
  · rintro ⟨key, ⟨j, rfl, hne, rfl⟩ | rfl, hlisted⟩
    · simp [hne, hlisted]
    · simp [hlisted]

/-- A snapshot that lists no key revokes nothing. -/
theorem isRevoked_of_unlisted {snap : RevocationSnapshot} (h : ∀ key, snap.revoked key = none) (now : Nat)
    (jti : Option String) (tokenHashHex : String) : isRevoked snap now jti tokenHashHex = false := by
  rw [Bool.eq_false_iff]
  intro hrevoked
  rcases isRevoked_iff.1 hrevoked with ⟨key, -, hlisted⟩
  rw [RevocationSnapshot.listed, h key] at hlisted
  cases hlisted

end Revocation
end GatewayEdge
