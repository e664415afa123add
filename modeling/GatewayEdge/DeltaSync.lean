import GatewayEdge.Foundation.Run
import GatewayEdge.RevocationSync

/-!
# DeltaSync — which revocations reach the snapshot

The index is scored by expiry, not by publication time, so the watermark tells what was pulled only
as long as no publisher adds an expiry from far below it.  Next to the state runs a record of what
publishers have published, and of how much of that the cycle in flight and the last successful cycle
had to see.
-/

namespace GatewayEdge
namespace Revocation
namespace DeltaSync

open Foundation
open Sync

/-! ## The record of publications -/

structure Audit where
  state : State
  /-- Every key published so far, with the expiry it was last published with. -/
  published : String → Option Int
  /-- `published` at the last `ZRANGEBYSCORE` that was answered. -/
  queried : String → Option Int
  /-- `queried` at the last cycle that was successful. -/
  covered : String → Option Int

def record (a : Audit) (s : State) : Event → Audit
  | .publication (.revoke key expiry) =>
    { a with state := s, published := Function.update a.published key (some expiry) }
  | .sync (.pullRevocations true) => { a with state := s, queried := a.published }
  | .sync (.publish _) => { a with state := s, covered := a.queried }
  | _ => { a with state := s }

def auditStep (env : EnvVars) (a : Audit) (e : Event) : Option Audit :=
  (step env a.state e).map fun s => record a s e

/-- What is in the index at the start counts as published. -/
def start (nowMs : Millis) (redis : Redis) : Audit where
  state := boot nowMs redis
  published := fun key => redis.revIndex.lookup key
  queried := fun _ => none
  covered := fun _ => none

/-- Every revocation published before the query of the last successful cycle is enforced until it
expires: a token it names is revoked. -/
def NoneLost (a : Audit) : Prop :=
  ∀ key expiry, a.covered key = some expiry → (a.state.nowSecs : Int) < expiry →
    ∀ jti tokenHashHex, Names jti tokenHashHex key →
      isRevoked a.state.snapshot a.state.nowSecs jti tokenHashHex = true

/-! ## What the worker knows and what it will still ask for -/

/-- The revocations pulled by the cycle in flight. -/
def inFlight (s : State) : List (String × Int) := s.phase.reply.getD []

/-- The watermark, as it will be if the cycle in flight succeeds. -/
def highWater (s : State) : Option Int := Watermark.raise s.lastRevScore (inFlight s)

section Knowledge

variable (s : State) (key : String) (expiry : Int)

/-- The snapshot keeps the key for as long, and the cycle in flight will not change that. -/
def Held : Prop :=
  (∃ n ∈ s.snapshot.revoked key, asU64 expiry ≤ n) ∧
    ∀ m ∈ inFlight s, m.1 = key → expiry ≤ m.2

instance : Decidable (Held s key expiry) := inferInstanceAs (Decidable (_ ∧ _))

/-- Above the next query's lower end, whether or not the cycle in flight succeeds. -/
def Askable : Prop :=
  Watermark.AtLeast (Watermark.queryFrom skewOverlapSecs (highWater s)) expiry

instance : Decidable (Askable s expiry) := inferInstanceAs (Decidable (Watermark.AtLeast _ _))

/-- Pulled by the cycle in flight, and again by the next one if this one fails. -/
def Pulled : Prop :=
  (key, expiry) ∈ inFlight s ∧
    Watermark.AtLeast (Watermark.queryFrom skewOverlapSecs s.lastRevScore) expiry

/-- The revocation is in the snapshot or on its way there. -/
def Reaches : Prop := Askable s expiry ∨ Pulled s key expiry ∨ Held s key expiry

end Knowledge

/-- A publisher adds a revocation only with an expiry at most the overlap below the high water, unless
the worker holds it already or it has expired. -/
def WithinOverlap (a : Audit) : Event → Prop
  | .publication (.revoke key expiry) =>
    (a.state.nowSecs : Int) < expiry → Askable a.state expiry ∨ Held a.state key expiry
  | _ => True

instance (a : Audit) : ∀ e, Decidable (WithinOverlap a e)
  | .publication (.revoke _ _) => inferInstanceAs (Decidable (_ → _))
  | .publication (.prune _) => isTrue trivial
  | .publication (.setVersion _ _ _) => isTrue trivial
  | .tick _ => isTrue trivial
  | .sync _ => isTrue trivial

/-- What holds of every unexpired revocation at every moment. -/
structure Inv (a : Audit) : Prop where
  indexed : ∀ key expiry, a.published key = some expiry → (a.state.nowSecs : Int) < expiry →
    a.state.redis.revIndex.lookup key = some expiry
  reaches : ∀ key expiry, a.published key = some expiry → (a.state.nowSecs : Int) < expiry →
    Reaches a.state key expiry
  inCycle : a.state.phase.reply ≠ none → ∀ key expiry, a.queried key = some expiry →
    (a.state.nowSecs : Int) < expiry → (key, expiry) ∈ inFlight a.state ∨ Held a.state key expiry
  enforced : ∀ key expiry, a.covered key = some expiry → (a.state.nowSecs : Int) < expiry →
    ∃ n, a.state.snapshot.revoked key = some n ∧ asU64 expiry ≤ n
  singleValued : SingleValued (inFlight a.state)
  started : ∀ t, a.state.phase.now = some t → t ≤ a.state.nowSecs

/-! ## Expiries and the clock -/

theorem lt_asU64 (s : State) {expiry : Int} (h : (s.nowSecs : Int) < expiry) :
    s.nowSecs < asU64 expiry := by
  have hclock : s.nowMs.val < 2 ^ 64 := s.nowMs.isLt
  unfold asU64 State.nowSecs at *
  omega

theorem asU64_mono {a b : Int} (h : a ≤ b) : asU64 a ≤ asU64 b := by
  unfold asU64
  omega

/-- An enforced revocation revokes the tokens it names. -/
theorem noneLost_of_inv {a : Audit} (h : Inv a) : NoneLost a := by
  intro key expiry hcovered hfuture jti tokenHashHex hnames
  rcases h.enforced key expiry hcovered hfuture with ⟨n, hn, hle⟩
  have hlisted : a.state.snapshot.listed a.state.nowSecs key = true := by
    have hlt : a.state.nowSecs < n := lt_of_lt_of_le (lt_asU64 a.state hfuture) hle
    simpa [RevocationSnapshot.listed, hn] using hlt
  exact isRevoked_iff.2 ⟨key, hnames, hlisted⟩

/-! ## The steps of the sync thread -/

section Steps

variable {env : EnvVars} {s : State} {key : String} {expiry : Int}

theorem inFlight_of_none (h : s.phase.reply = none) : inFlight s = [] := by
  simp [inFlight, h]

/-- Moving on within a cycle, or giving it up, leaves every revocation on its way. -/
theorem Held.enter {phase : Phase} (hmove : Moves s phase) (h : Held s key expiry) :
    Held (s.enter phase) key expiry := by
  refine ⟨h.1, fun score hscore => ?_⟩
  rcases hmove.reply with hnone | hsame
  · rw [inFlight_of_none hnone] at hscore
    simp at hscore
  · exact h.2 score (by simpa [inFlight, State.enter, hsame] using hscore)

theorem Reaches.enter {phase : Phase} (hmove : Moves s phase) (h : Reaches s key expiry) :
    Reaches (s.enter phase) key expiry := by
  rcases hmove.reply with hnone | hsame
  · -- The reply is dropped: the watermark is back where the cycle found it, so what it would have
    -- raised the bar for can be asked for again.
    have hback : highWater (s.enter phase) = s.lastRevScore := by
      simp [highWater, inFlight, State.enter, hnone, Watermark.raise]
    rcases h with hask | hpull | hheld
    · refine Or.inl ?_
      unfold Askable
      rw [hback]
      exact Watermark.atLeast_queryFrom.2
        (Watermark.atLeast_of_raise (Watermark.atLeast_queryFrom.1 hask))
    · refine Or.inl ?_
      unfold Askable
      rw [hback]
      exact hpull.2
    · exact Or.inr (Or.inr (hheld.enter hmove))
  · have hin : inFlight (s.enter phase) = inFlight s := by
      simp [inFlight, State.enter, hsame]
    rcases h with hask | hpull | hheld
    · refine Or.inl ?_
      unfold Askable highWater at *
      rw [hin]
      exact hask
    · refine Or.inr (Or.inl ?_)
      unfold Pulled at *
      rw [hin]
      exact hpull
    · exact Or.inr (Or.inr (hheld.enter hmove))

/-- The watermark after a successful cycle is the high water before. -/
theorem commitScore_raise (top : Option Int) (reply : List (String × Int)) :
    commitScore top (Watermark.raise top reply) = Watermark.raise top reply := by
  cases hraised : Watermark.raise top reply with
  | some score => rfl
  | none => exact Watermark.raise_eq_none hraised

/-- With the fallback off, a pulled revocation is in the new snapshot. -/
theorem rebuildRevoked_of_mem {now : Nat} {prev : String → Option Nat}
    {revDelta : List (String × Int)} (hsingle : SingleValued revDelta)
    (h : (key, expiry) ∈ revDelta) :
    rebuildRevoked env now prev revDelta none key = some (asU64 expiry) :=
  overwrite_of_mem hsingle h _

theorem rebuildRevoked_of_not_mem {now n : Nat} {prev : String → Option Nat}
    {revDelta : List (String × Int)} (h : ∀ score, (key, score) ∉ revDelta)
    (hprev : prev key = some n) (hnow : now < n) :
    rebuildRevoked env now prev revDelta none key = some n := by
  have hkept : (prev key).filter (fun expiry => decide (now < expiry)) = some n := by
    simp [hprev, hnow]
  exact (overwrite_of_not_mem h _).trans hkept

/-- What the cycle holds or has pulled, the snapshot it publishes has. -/
theorem enforced_publish (hoff : scanFallbackEnabled env = false) {c : Cycle}
    (hphase : s.phase = .fetching c) (hsingle : SingleValued (inFlight s))
    (hstarted : c.now ≤ s.nowSecs) (hfuture : (s.nowSecs : Int) < expiry)
    (h : (key, expiry) ∈ inFlight s ∨ Held s key expiry) (scannedKeys : Option (List String)) :
    ∃ n, (s.publish env c scannedKeys).snapshot.revoked key = some n ∧ asU64 expiry ≤ n := by
  have hdelta : inFlight s = c.revDelta := by
    simp [inFlight, hphase, Phase.reply]
  have hsnap : (s.publish env c scannedKeys).snapshot.revoked =
      rebuildRevoked env c.now s.snapshot.revoked c.revDelta none := by
    simp [State.publish, hoff]
  rw [hdelta] at hsingle
  rw [hsnap]
  -- The delta overwrites what the last snapshot had, so a key in both has the expiry pulled.
  by_cases hmem : ∃ score, (key, score) ∈ c.revDelta
  · rcases hmem with ⟨score, hscore⟩
    refine ⟨_, rebuildRevoked_of_mem hsingle hscore, asU64_mono ?_⟩
    rcases h with hpulled | hheld
    · exact le_of_eq (hsingle key _ _ (hdelta ▸ hpulled) hscore)
    · exact hheld.2 (key, score) (hdelta ▸ hscore) rfl
  · have habsent : ∀ score, (key, score) ∉ c.revDelta := fun score hscore => hmem ⟨score, hscore⟩
    rcases h with hpulled | ⟨⟨n, hn, hle⟩, -⟩
    · exact absurd (hdelta ▸ hpulled) (habsent expiry)
    · have hnow : c.now < n := by
        have := lt_asU64 s hfuture
        omega
      exact ⟨n, rebuildRevoked_of_not_mem habsent hn hnow, hle⟩

end Steps

/-! ## The invariant is kept -/

section Kept

variable {env : EnvVars} {a : Audit}

theorem inv_start (nowMs : Millis) (redis : Redis) : Inv (start nowMs redis) where
  indexed := fun _ _ h _ => h
  reaches := fun _ _ _ _ => Or.inl (Watermark.atLeast_none _)
  inCycle := fun h => absurd rfl h
  enforced := fun _ _ h => by simp [start] at h
  singleValued := fun _ _ _ h => by simp [start, boot, inFlight, Phase.reply] at h
  started := fun _ h => by simp [start, boot, Phase.now] at h

/-- As time passes there are only fewer unexpired revocations. -/
theorem inv_tick {nowMs : Millis} (h : Inv a) (hle : a.state.nowMs ≤ nowMs) :
    Inv { a with state := { a.state with nowMs := nowMs } } := by
  have hsecs : a.state.nowSecs ≤ nowMs.val / 1000 := Nat.div_le_div_right hle
  have hearlier : ∀ {expiry : Int}, ((nowMs.val / 1000 : Nat) : Int) < expiry →
      (a.state.nowSecs : Int) < expiry := by
    intro expiry hlt
    omega
  exact
    { indexed := fun key expiry hp hlt => h.indexed key expiry hp (hearlier hlt)
      reaches := fun key expiry hp hlt => h.reaches key expiry hp (hearlier hlt)
      inCycle := fun hr key expiry hq hlt => h.inCycle hr key expiry hq (hearlier hlt)
      enforced := fun key expiry hc hlt => h.enforced key expiry hc (hearlier hlt)
      singleValued := h.singleValued
      started := fun t ht => le_trans (h.started t ht) hsecs }

theorem inv_revoke {key : String} {expiry : Int} (h : Inv a)
    (hwithin : WithinOverlap a (.publication (.revoke key expiry))) :
    Inv
      { a with
        state := { a.state with
          redis := { a.state.redis with revIndex := a.state.redis.revIndex.insert key expiry } }
        published := Function.update a.published key (some expiry) } := by
  refine
    { indexed := fun key' expiry' hp hlt => ?_
      reaches := fun key' expiry' hp hlt => ?_
      inCycle := h.inCycle
      enforced := h.enforced
      singleValued := h.singleValued
      started := h.started }
  · by_cases hkey : key' = key
    · subst hkey
      have hexpiry : expiry = expiry' := by simpa using hp
      subst hexpiry
      exact AList.lookup_insert _
    · have hold : a.published key' = some expiry' := by simpa [hkey] using hp
      exact (AList.lookup_insert_ne hkey).trans (h.indexed key' expiry' hold hlt)
  · by_cases hkey : key' = key
    · subst hkey
      have hexpiry : expiry = expiry' := by simpa using hp
      subst hexpiry
      -- The only place where the condition on publishers is used.
      exact (hwithin hlt).imp_right Or.inr
    · have hold : a.published key' = some expiry' := by simpa [hkey] using hp
      exact h.reaches key' expiry' hold hlt

/-- Removing members that have expired takes no unexpired one. -/
theorem inv_drop {redis : Redis} (h : Inv a)
    (hkeep : ∀ key expiry, a.state.redis.revIndex.lookup key = some expiry →
      (a.state.nowSecs : Int) < expiry → redis.revIndex.lookup key = some expiry) :
    Inv { a with state := { a.state with redis := redis } } where
  indexed := fun key expiry hp hlt => hkeep key expiry (h.indexed key expiry hp hlt) hlt
  reaches := h.reaches
  inCycle := h.inCycle
  enforced := h.enforced
  singleValued := h.singleValued
  started := h.started

theorem inv_moves {phase : Phase} (h : Inv a) (hmove : Moves a.state phase) :
    Inv { a with state := a.state.enter phase } := by
  refine
    { indexed := h.indexed
      reaches := fun key expiry hp hlt => (h.reaches key expiry hp hlt).enter hmove
      inCycle := fun hr key expiry hq hlt => ?_
      enforced := h.enforced
      singleValued := ?_
      started := fun t ht => ?_ }
  · have hsame : phase.reply = a.state.phase.reply := hmove.reply.resolve_left hr
    rcases h.inCycle (hsame ▸ hr) key expiry hq hlt with hpulled | hheld
    · exact Or.inl (by simpa [inFlight, State.enter, hsame] using hpulled)
    · exact Or.inr (hheld.enter hmove)
  · rcases hmove.reply with hnone | hsame
    · intro key v w hv
      rw [inFlight_of_none hnone] at hv
      simp at hv
    · simpa [inFlight, State.enter, hsame] using h.singleValued
  · rcases hmove.now t ht with hnow | hold
    · exact le_of_eq hnow
    · exact h.started t hold

/-- The query returns every unexpired revocation that the snapshot does not hold. -/
theorem inv_pullRevocations {now : Nat} (h : Inv a) (hphase : a.state.phase = .connected now) :
    Inv
      { a with
        state := a.state.enter (.revocationsPulled now (SortedSet.rangeFrom
          (Watermark.queryFrom skewOverlapSecs a.state.lastRevScore) a.state.redis.revIndex))
        queried := a.published } := by
  have hempty : inFlight a.state = [] := inFlight_of_none (by rw [hphase]; rfl)
  have hwater : highWater a.state = a.state.lastRevScore := by
    simp [highWater, hempty, Watermark.raise]
  generalize hreply : SortedSet.rangeFrom
    (Watermark.queryFrom skewOverlapSecs a.state.lastRevScore) a.state.redis.revIndex = reply
  -- A member the reply has for an unexpired revocation is that revocation.
  have honly : ∀ key expiry score, a.state.redis.revIndex.lookup key = some expiry →
      (key, score) ∈ reply → expiry ≤ score := by
    intro key expiry score hlookup hscore
    have hscore' := (SortedSet.mem_rangeFrom.1 (hreply ▸ hscore)).1
    exact le_of_eq (Option.some.inj (hlookup.symm.trans hscore'))
  have hreach : ∀ key expiry, a.published key = some expiry → (a.state.nowSecs : Int) < expiry →
      Pulled (a.state.enter (.revocationsPulled now reply)) key expiry ∨
        Held (a.state.enter (.revocationsPulled now reply)) key expiry := by
    intro key expiry hp hlt
    have hindexed := h.indexed key expiry hp hlt
    rcases h.reaches key expiry hp hlt with hask | hpull | hheld
    · unfold Askable at hask
      rw [hwater] at hask
      exact Or.inl ⟨hreply ▸ SortedSet.mem_rangeFrom.2 ⟨hindexed, hask⟩, hask⟩
    · have hmem := hpull.1
      rw [hempty] at hmem
      simp at hmem
    · exact Or.inr ⟨hheld.1, fun m hm hkey => honly key expiry m.2 hindexed (hkey ▸ hm)⟩
  exact
    { indexed := h.indexed
      reaches := fun key expiry hp hlt => Or.inr (hreach key expiry hp hlt)
      inCycle := fun _ key expiry hq hlt => (hreach key expiry hq hlt).imp_left And.left
      enforced := h.enforced
      singleValued := hreply ▸ SortedSet.rangeFrom_singleValued _ _
      started := fun t ht => h.started t (by rw [hphase]; exact ht) }

theorem inv_publish (hoff : scanFallbackEnabled env = false) {c : Cycle} (h : Inv a)
    (hphase : a.state.phase = .fetching c) (scannedKeys : Option (List String)) :
    Inv { a with state := a.state.publish env c scannedKeys, covered := a.queried } := by
  have hstarted : c.now ≤ a.state.nowSecs := h.started c.now (by rw [hphase]; rfl)
  have hdelta : inFlight a.state = c.revDelta := by
    simp [inFlight, hphase, Phase.reply]
  have hwater : highWater (a.state.publish env c scannedKeys) = highWater a.state := by
    calc
      highWater (a.state.publish env c scannedKeys)
          = commitScore a.state.lastRevScore (Watermark.raise a.state.lastRevScore c.revDelta) := rfl
      _ = Watermark.raise a.state.lastRevScore c.revDelta := commitScore_raise _ _
      _ = highWater a.state := by rw [highWater, hdelta]
  have henforced : ∀ key expiry, (a.state.nowSecs : Int) < expiry →
      ((key, expiry) ∈ inFlight a.state ∨ Held a.state key expiry) →
      ∃ n, (a.state.publish env c scannedKeys).snapshot.revoked key = some n ∧ asU64 expiry ≤ n :=
    fun key expiry hfuture hmem =>
      enforced_publish hoff hphase h.singleValued hstarted hfuture hmem scannedKeys
  have hnothing : inFlight (a.state.publish env c scannedKeys) = [] := rfl
  refine
    { indexed := h.indexed
      reaches := fun key expiry hp hlt => ?_
      inCycle := fun hr => absurd rfl hr
      enforced := fun key expiry hc hlt => henforced key expiry hlt
        (h.inCycle (by rw [hphase]; simp [Phase.reply]) key expiry hc hlt)
      singleValued := fun _ _ _ hv => by rw [hnothing] at hv; simp at hv
      started := fun t ht => ?_ }
  · have hheld : (key, expiry) ∈ inFlight a.state ∨ Held a.state key expiry →
        Held (a.state.publish env c scannedKeys) key expiry := fun hmem =>
      ⟨henforced key expiry hlt hmem, fun _ hscore => by rw [hnothing] at hscore; simp at hscore⟩
    rcases h.reaches key expiry hp hlt with hask | hpull | hold
    · refine Or.inl ?_
      unfold Askable
      rw [hwater]
      exact hask
    · exact Or.inr (Or.inr (hheld (Or.inl hpull.1)))
    · exact Or.inr (Or.inr (hheld (Or.inr hold)))
  · have ht' : c.now = t := Option.some.inj ht
    exact ht' ▸ hstarted

theorem inv_collect {now : Nat} (h : Inv a) (hphase : a.state.phase = .published now) :
    Inv { a with state := a.state.collect now } := by
  have hstarted : now ≤ a.state.nowSecs := h.started now (by rw [hphase]; rfl)
  have hidle := inv_moves h (moves_idle a.state)
  -- The cycle's clock reading is in the past, so the cut is below everything unexpired.
  refine inv_drop hidle fun key expiry hlookup hlt => ?_
  refine SortedSet.lookup_removeUpTo.2 ⟨hlookup, ?_⟩
  have hnow : (a.state.nowSecs : Int) < expiry := hlt
  omega

theorem inv_syncStep (hoff : scanFallbackEnabled env = false) {x : SyncStep} {s : State}
    (h : Inv a) (hs : syncStep env a.state x = some s) : Inv (record a s (.sync x)) := by
  rcases syncStep_cases hs with ⟨rfl, now, hphase, rfl⟩ | ⟨scannedKeys, c, rfl, hphase, rfl⟩ |
    ⟨now, rfl, hphase, rfl⟩ | ⟨hpull, hpublish, phase, hmove, rfl⟩
  · exact inv_pullRevocations h hphase
  · exact inv_publish hoff h hphase scannedKeys
  · exact inv_collect h hphase
  · have hrecord : record a (a.state.enter phase) (.sync x) =
        { a with state := a.state.enter phase } := by
      cases x with
      | pullRevocations ok =>
          cases ok with
          | true => exact absurd rfl hpull
          | false => rfl
      | publish scannedKeys => exact absurd rfl (hpublish scannedKeys)
      | _ => rfl
    rw [hrecord]
    exact inv_moves h hmove

theorem inv_publication {e : Publication} {redis : Redis} (h : Inv a)
    (hwithin : WithinOverlap a (.publication e))
    (haccept : a.state.redis.accept a.state.nowSecs e = some redis) :
    Inv (record a { a.state with redis := redis } (.publication e)) := by
  cases e with
  | revoke key expiry =>
      cases haccept
      exact inv_revoke h hwithin
  | prune key =>
      rcases accept_prune haccept with ⟨expired, hlookup, hexpired, rfl⟩
      refine inv_drop h fun key' expiry hlive hfuture => ?_
      have hother : key' ≠ key := by
        rintro rfl
        have hsame : expired = expiry := Option.some.inj (hlookup.symm.trans hlive)
        omega
      exact (AList.lookup_erase_ne hother).trans hlive
  | setVersion user value score =>
      cases haccept
      exact inv_drop h fun _ _ hlive _ => hlive

theorem inv_auditStep (hoff : scanFallbackEnabled env = false) {e : Event} {a' : Audit} (h : Inv a)
    (hwithin : WithinOverlap a e) (hstep : auditStep env a e = some a') : Inv a' := by
  rcases Option.map_eq_some_iff.1 hstep with ⟨s, hs, rfl⟩
  cases e with
  | tick nowMs =>
      rcases step_tick hs with ⟨hle, rfl⟩
      exact inv_tick h hle
  | publication e =>
      rcases Option.map_eq_some_iff.1 hs with ⟨redis, haccept, rfl⟩
      exact inv_publication h hwithin haccept
  | sync x => exact inv_syncStep hoff h hs

end Kept

/-! ## The delta sync loses nothing published within the overlap -/

/-- In every run in which publishers stay within the overlap, whatever the order of exchanges,
failures and expiries, no revocation is lost. -/
theorem none_lost_along_run (env : EnvVars) (hoff : scanFallbackEnabled env = false) (nowMs : Millis)
    (redis : Redis) {es : List Event} {a : Audit}
    (hwithin : Along (auditStep env) WithinOverlap (start nowMs redis) es)
    (hrun : run (auditStep env) (start nowMs redis) es = some a) : NoneLost a :=
  noneLost_of_inv
    (invariant_run_along (fun _ _ _ h hw hs => inv_auditStep hoff h hw hs) (inv_start nowMs redis)
      hwithin hrun)

/-- A successful cycle on an index of a few members. -/
def cycle : List Event :=
  [.sync (.connect true), .sync (.pullRevocations true), .sync (.pullVersions true),
    .sync (.publish none), .sync (.collect true)]

def emptyRedis : Redis := { revIndex := ∅, tvIndex := ∅, strings := fun _ => none }

/-- At second 1000 a token that expires at 10000 is revoked and synced, and after it one that expires
at `expiry`. -/
def twoRevocations (expiry : Int) : List Event :=
  .publication (.revoke (jtiKey "long") 10000) :: cycle ++
    .publication (.revoke (jtiKey "short") expiry) :: cycle

/-- Expiring 60 seconds before the first, the second revocation is synced too. -/
theorem overlap_none_lost :
    ∃ a, run (auditStep fun _ => none) (start 1000000 emptyRedis) (twoRevocations 9940) = some a ∧
      a.covered (jtiKey "short") = some 9940 ∧ NoneLost a := by
  have hcovered : (run (auditStep fun _ => none) (start 1000000 emptyRedis)
      (twoRevocations 9940)).map (fun a => a.covered (jtiKey "short")) = some (some 9940) := by
    decide
  have hwithin : Along (auditStep fun _ => none) WithinOverlap (start 1000000 emptyRedis)
      (twoRevocations 9940) := by
    decide
  rcases Option.map_eq_some_iff.1 hcovered with ⟨a, hrun, hshort⟩
  exact ⟨a, hrun, hshort, none_lost_along_run _ rfl _ _ hwithin hrun⟩

/-- Expiring earlier, it is never fetched: its token stays valid after a successful cycle. -/
theorem shorter_lived_revocation_lost :
    ∃ a, run (auditStep fun _ => none) (start 1000000 emptyRedis) (twoRevocations 5000) = some a ∧
      ¬ NoneLost a := by
  have hvalues : (run (auditStep fun _ => none) (start 1000000 emptyRedis)
      (twoRevocations 5000)).map (fun a => (a.covered (jtiKey "short"), a.state.nowSecs,
        isRevoked a.state.snapshot a.state.nowSecs (some "short") "")) =
          some (some 5000, 1000, false) := by
    decide
  rcases Option.map_eq_some_iff.1 hvalues with ⟨a, hrun, hvalue⟩
  refine ⟨a, hrun, fun hlaw => ?_⟩
  rcases Prod.mk.inj hvalue with ⟨hcovered, hrest⟩
  rcases Prod.mk.inj hrest with ⟨hnow, hvalid⟩
  have hnames : Names (some "short") "" (jtiKey "short") := Or.inl ⟨"short", rfl, by decide, rfl⟩
  have hrevoked := hlaw (jtiKey "short") 5000 hcovered (by rw [hnow]; decide) (some "short") "" hnames
  rw [hvalid] at hrevoked
  cases hrevoked

end DeltaSync
end Revocation
end GatewayEdge
