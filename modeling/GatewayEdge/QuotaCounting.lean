import GatewayEdge.Foundation.Run
import GatewayEdge.Quota
import Mathlib.Data.Int.Order.Basic

/-!
# QuotaCounting — how often a check counts

A check sends its `INCR` once more when the reply to the first one is lost, and a lost reply does not
tell whether the command took effect.  The checks of one user on one service within one UTC day are
followed through any pattern of failures, on any workers of the fleet; a run keeps the number of
checks made so far beside the counters.
-/

namespace GatewayEdge
namespace Quota

open Foundation

/-! ## What one check does to the counter -/

/-- How many `INCR`s of these attempts take effect. -/
def increments : Bool → List Attempt → ℕ
  | _, [] => 0
  | connected, a :: rest =>
    if !connected && !a.opens then 0
    else
      match a.fate with
      | .replied => 1
      | .lostBefore => increments false rest
      | .lostAfter => increments false rest + 1

/-- The first command took effect, its reply was lost, and so did the one sent for it again. -/
def resends (connected : Bool) : List Attempt → Bool
  | a :: b :: _ =>
    (connected || a.opens) && a.fate == .lostAfter && (b.opens && b.fate != .lostBefore)
  | _ => false

/-- The attempts move one counter, by what takes effect, and an answer is its new value. -/
theorem attempts_spec (key : String) (io : List Attempt) (s : State) :
    (attempts key io s).1.counters =
        Function.update s.counters key (s.counters key + increments s.connected io) ∧
      ∀ count, (attempts key io s).2 = some count → count = (attempts key io s).1.counters key := by
  induction io generalizing s with
  | nil =>
      refine ⟨?_, fun count h => by cases h⟩
      simp [attempts, increments]
  | cons a rest ih =>
      unfold attempts increments
      by_cases hclosed : (!s.connected && !a.opens) = true
      · rw [if_pos hclosed, if_pos hclosed]
        refine ⟨?_, fun count h => by cases h⟩
        simp
      · rw [if_neg hclosed, if_neg hclosed]
        cases a.fate with
        | replied =>
            refine ⟨by simp [incr], fun count h => ?_⟩
            exact (Option.some.inj h).symm
        | lostBefore => exact ih { s with connected := false }
        | lostAfter =>
            rcases ih { incr key s with connected := false } with ⟨hcounters, hanswer⟩
            refine ⟨?_, hanswer⟩
            dsimp only
            rw [hcounters]
            funext other
            by_cases hother : other = key
            · subst hother
              simp [incr]
              omega
            · simp [incr, hother]

/-- Two attempts count twice exactly when a command that took effect is sent again. -/
theorem increments_le_one_iff (connected : Bool) (io : List Attempt) :
    increments connected (io.take 2) ≤ 1 ↔ resends connected io = false := by
  rcases io with _ | ⟨⟨opens, fate⟩, _ | ⟨⟨opens', fate'⟩, rest⟩⟩
  · simp [increments, resends]
  · cases connected <;> cases opens <;> cases fate <;> simp [increments, resends]
  · cases connected <;> cases opens <;> cases fate <;> cases opens' <;> cases fate' <;>
      simp [increments, resends]

/-- A rejected count is above the daily limit. -/
theorem quotaDecision_rejected {count limit borrowPercent : ℕ}
    (h : quotaDecision count limit borrowPercent = .rejected) : limit < count := by
  unfold quotaDecision at h
  split at h
  · cases h
  · split at h
    · cases h
    · rename_i hover
      exact Nat.lt_of_not_le hover

section OneCheck

variable (sha256 : Bytes → Bytes) (secs : ℕ) (service userId : String) (policy : QuotaPolicy)
  (io : List Attempt) (s : State)

/-- A check moves one counter, by at most two. -/
theorem checkQuota_counters :
    (checkQuota sha256 secs service userId policy io s).1.counters =
      Function.update s.counters (counterKey sha256 secs service userId)
        (s.counters (counterKey sha256 secs service userId) +
          increments s.connected (io.take 2)) := by
  unfold checkQuota
  rw [← (attempts_spec (counterKey sha256 secs service userId) (io.take 2) s).1]
  rcases attempts (counterKey sha256 secs service userId) (io.take 2) s with ⟨t, _ | count⟩
  · rfl
  · dsimp only
    split <;> rfl

/-- A check rejects only a counter above the limit. -/
theorem checkQuota_rejects (hcounter : 0 ≤ s.counters (counterKey sha256 secs service userId))
    (h : (checkQuota sha256 secs service userId policy io s).2 = false) :
    (policy.dailyLimit : Int) < (checkQuota sha256 secs service userId policy io s).1.counters
      (counterKey sha256 secs service userId) := by
  have hmoved := checkQuota_counters sha256 secs service userId policy io s
  rcases attempts_spec (counterKey sha256 secs service userId) (io.take 2) s with ⟨hspec, hanswer⟩
  rw [hmoved, Function.update_self]
  unfold checkQuota at h
  rcases hrun : attempts (counterKey sha256 secs service userId) (io.take 2) s with ⟨t, _ | count⟩
  · rw [hrun] at h
    cases h
  · rw [hrun] at h hanswer hspec
    have hcount : count = s.counters (counterKey sha256 secs service userId) +
        increments s.connected (io.take 2) := by
      have hnew := hanswer count rfl
      dsimp only at hnew hspec
      rw [hnew, hspec, Function.update_self]
    rw [← hcount]
    dsimp only at h
    -- The count is compared as a `u64`, which is never more than the count itself.
    have hrejected : quotaDecision (count % 2 ^ 64).toNat policy.dailyLimit policy.borrowPercent =
        .rejected := by
      cases hdecision : quotaDecision (count % 2 ^ 64).toNat policy.dailyLimit
          policy.borrowPercent with
      | allow =>
          rw [hdecision] at h
          cases h
      | borrowed =>
          rw [hdecision] at h
          cases h
      | rejected => rfl
    have hover : policy.dailyLimit < (count % 2 ^ 64).toNat := quotaDecision_rejected hrejected
    omega

end OneCheck

/-! ## The checks of one day -/

/-- Whose checks are followed, and on which day. -/
structure Account where
  sha256 : Bytes → Bytes
  service : String
  userId : String
  /-- Days since 1970-01-01. -/
  day : ℕ

/-- The counters of the fleet, the connection of each worker, and the checks made so far. -/
structure Ledger where
  counters : String → Int
  connected : ℕ → Bool
  calls : ℕ

/-- A check on one of the workers, at an instant and under the policy then in force. -/
structure Call where
  worker : ℕ
  secs : ℕ
  policy : QuotaPolicy
  io : List Attempt

namespace Account

variable (acc : Account)

/-- The counter of the day. -/
def key : String := counterKey acc.sha256 (acc.day * 86400) acc.service acc.userId

def check (l : Ledger) (c : Call) : State × Bool :=
  checkQuota acc.sha256 c.secs acc.service acc.userId c.policy c.io
    { counters := l.counters, connected := l.connected c.worker }

/-- Only the calls of the day are followed. -/
def step (l : Ledger) (c : Call) : Option Ledger :=
  if c.secs / 86400 = acc.day then
    some
      { counters := (acc.check l c).1.counters
        connected := Function.update l.connected c.worker (acc.check l c).1.connected
        calls := l.calls + 1 }
  else none

/-- The beginning of the day: nothing is counted yet, whatever else Redis holds. -/
def morning (counters : String → Int) (connected : ℕ → Bool) : Ledger where
  counters := Function.update counters acc.key 0
  connected := connected
  calls := 0

/-- The call counts at most once, and is not rejected before more than the daily limit of calls,
this one included, have been made. -/
def ExactlyCounted (l : Ledger) (c : Call) : Prop :=
  c.secs / 86400 = acc.day →
    (acc.check l c).1.counters acc.key ≤ l.counters acc.key + 1 ∧
      ((acc.check l c).2 = false → c.policy.dailyLimit < l.calls + 1)

instance (l : Ledger) (c : Call) : Decidable (acc.ExactlyCounted l c) :=
  inferInstanceAs (Decidable (_ → _))

/-- No command of this call that took effect is sent again and takes effect again. -/
def NotResent (l : Ledger) (c : Call) : Prop :=
  c.secs / 86400 = acc.day → resends (l.connected c.worker) c.io = false

/-- No check has counted more than once. -/
def Counted (l : Ledger) : Prop := 0 ≤ l.counters acc.key ∧ l.counters acc.key ≤ l.calls

end Account

section Day

variable {acc : Account} {l l' : Ledger} {c : Call}

/-- All calls of the day count in one place. -/
theorem key_of_day (h : c.secs / 86400 = acc.day) :
    counterKey acc.sha256 c.secs acc.service acc.userId = acc.key := by
  unfold Account.key counterKey utcDayKey
  rw [h, Nat.mul_div_cancel _ (by decide)]

/-- What a call of the day does to the day's counter. -/
theorem check_counter (h : c.secs / 86400 = acc.day) :
    (acc.check l c).1.counters acc.key =
      l.counters acc.key + increments (l.connected c.worker) (c.io.take 2) := by
  unfold Account.check
  rw [checkQuota_counters, key_of_day h, Function.update_self]

theorem step_eq_some (h : acc.step l c = some l') :
    c.secs / 86400 = acc.day ∧ l'.counters = (acc.check l c).1.counters ∧ l'.calls = l.calls + 1 := by
  unfold Account.step at h
  split at h
  · rename_i hday
    rcases Option.some.inj h with rfl
    exact ⟨hday, rfl, rfl⟩
  · cases h

theorem counted_morning (counters : String → Int) (connected : ℕ → Bool) :
    acc.Counted (acc.morning counters connected) := by
  unfold Account.Counted Account.morning
  simp

theorem counted_step (hcounted : acc.Counted l) (honce : acc.NotResent l c)
    (hstep : acc.step l c = some l') : acc.Counted l' := by
  rcases step_eq_some hstep with ⟨hday, hcounters, hcalls⟩
  have hmoved := check_counter (l := l) hday
  have hone := (increments_le_one_iff (l.connected c.worker) c.io).2 (honce hday)
  rcases hcounted with ⟨hnonneg, hle⟩
  unfold Account.Counted
  rw [hcounters, hcalls, hmoved]
  omega

/-- A call that counts once is rejected only past the limit. -/
theorem exactlyCounted_of_notResent (hcounted : acc.Counted l) (honce : acc.NotResent l c) :
    acc.ExactlyCounted l c := by
  intro hday
  have hmoved := check_counter (l := l) hday
  have hone := (increments_le_one_iff (l.connected c.worker) c.io).2 (honce hday)
  rcases hcounted with ⟨hnonneg, hle⟩
  refine ⟨by omega, fun hrejected => ?_⟩
  have hover := checkQuota_rejects acc.sha256 c.secs acc.service acc.userId c.policy c.io _
    (by rw [key_of_day hday]; exact hnonneg) hrejected
  rw [key_of_day hday] at hover
  change (c.policy.dailyLimit : Int) < (acc.check l c).1.counters acc.key at hover
  omega

theorem notResent_of_exactlyCounted (h : acc.ExactlyCounted l c) : acc.NotResent l c := by
  intro hday
  have hmoved := check_counter (l := l) hday
  have honce := (h hday).1
  exact (increments_le_one_iff (l.connected c.worker) c.io).1 (by omega)

end Day

/-- Whatever fails in which order: every call of the day counts at most once and none is rejected too
early, exactly when no call sends a command again that has taken effect. -/
theorem exactly_counted_iff (acc : Account) (counters : String → Int) (connected : ℕ → Bool)
    (es : List Call) :
    Along acc.step acc.ExactlyCounted (acc.morning counters connected) es ↔
      Along acc.step acc.NotResent (acc.morning counters connected) es := by
  constructor
  · exact along_mono (I := fun _ => True) (fun _ _ _ _ _ _ => trivial)
      (fun _ _ _ h => notResent_of_exactlyCounted h) trivial
  · exact along_mono (fun _ _ _ hcounted honce hstep => counted_step hcounted honce hstep)
      (fun _ _ hcounted honce => exactlyCounted_of_notResent hcounted honce)
      (counted_morning counters connected)

/-- Alice on one service, on the first day. -/
def sampleAccount : Account where
  sha256 := fun _ => []
  service := "s"
  userId := "alice"
  day := 0

/-- The reply to the first `INCR` is lost, the second one is answered. -/
def lostReply : Call where
  worker := 0
  secs := 0
  policy := { dailyLimit := 1 }
  io := [{ fate := .lostAfter }, {}]

/-- The first call of the day counts twice and is rejected under a limit of one. -/
theorem first_call_rejected :
    ¬ Along sampleAccount.step sampleAccount.ExactlyCounted
      (sampleAccount.morning (fun _ => 0) fun _ => true) [lostReply] := by
  decide

end Quota
end GatewayEdge
