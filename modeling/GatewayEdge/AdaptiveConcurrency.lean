import GatewayEdge.Foundation.Run
import Mathlib.Algebra.Order.Ring.Int
import Mathlib.Data.List.Perm.Basic

/-!
# AdaptiveConcurrency — the gradient limiter and its permits

An admitted request gives its place back twice: `complete` takes one off the unsigned gauge and so does the
drop of its permit.  So the gauge is the number of requests that have done neither less the number of those
that have done both, and right exactly as long as that is not negative.
-/

namespace GatewayEdge
namespace AdaptiveConcurrency

open Foundation

/-! ## The code -/

def minLimit : ℕ := 1
def maxLimit : ℕ := 10000

/-- How aggressively to grow when there's headroom. -/
def alphaGrow : Float := 1.0
/-- How aggressively to shrink when the queue is building. -/
def betaShrink : Float := 0.75
/-- Smoothing factor for the running minimum RTT estimate. -/
def rttDecay : Float := 0.99

/-- The atomics of one limiter. -/
structure GradientLimiter where
  limit : ℕ
  inFlight : ℕ
  minRttUs : ℕ
  totalAdmitted : ℕ
  totalSheds : ℕ

def clampLimit (limit : ℕ) : ℕ := min (max limit minLimit) maxLimit

/-- `fetch_add(1)` and `fetch_sub(1)` of a 64-bit word: both wrap around. -/
def fetchAdd (word : ℕ) : ℕ := (word + 1) % 2 ^ 64
def fetchSub (word : ℕ) : ℕ := if word = 0 then 2 ^ 64 - 1 else word - 1

def GradientLimiter.new (initialLimit : ℕ) : GradientLimiter where
  limit := clampLimit initialLimit
  inFlight := 0
  minRttUs := 2 ^ 64 - 1
  totalAdmitted := 0
  totalSheds := 0

/-- The limiter, and whether there is a permit. -/
def tryAcquire (l : GradientLimiter) : GradientLimiter × Bool :=
  let limit := l.limit
  let inflight := l.inFlight
  let l := { l with inFlight := fetchAdd l.inFlight }
  if inflight ≥ limit then
    -- Over limit: the increment is undone.
    ({ l with inFlight := fetchSub l.inFlight, totalSheds := fetchAdd l.totalSheds }, false)
  else ({ l with totalAdmitted := fetchAdd l.totalAdmitted }, true)

/-- A saturating cast: NaN and negative numbers give 0. -/
def asU64 (x : Float) : ℕ := x.toUInt64.toNat

/-- The running minimum, decayed toward the current RTT so that the floor rises again. -/
def nextMinRtt (oldMin rttUs : ℕ) : ℕ :=
  if rttUs < oldMin then rttUs
  else asU64 (oldMin.toFloat * rttDecay + rttUs.toFloat * (1.0 - rttDecay))

/-- The limit before it is clamped: grown where there is headroom, shrunk where a queue is building. -/
def gradientLimit (limit inFlight newMin rttUs : ℕ) : ℕ :=
  let expected := limit.toFloat * (newMin.toFloat / (max rttUs 1).toFloat)
  if inFlight.toFloat < expected then asU64 (limit.toFloat + alphaGrow)
  else asU64 (limit.toFloat * betaShrink)

/-- Adjusts the limit; the gauge is only read. -/
def updateGradient (rttUs : ℕ) (l : GradientLimiter) : GradientLimiter :=
  let oldMin := l.minRttUs
  let newMin := nextMinRtt oldMin rttUs
  let l := { l with minRttUs := max (min newMin oldMin) newMin }
  if newMin = 0 ∨ newMin = 2 ^ 64 - 1 then l
  else
    let clamped := clampLimit (gradientLimit l.limit l.inFlight newMin rttUs)
    if clamped ≠ l.limit then { l with limit := clamped } else l

def complete (rttUs : ℕ) (l : GradientLimiter) : GradientLimiter :=
  updateGradient rttUs { l with inFlight := fetchSub l.inFlight }

/-- `Permit::drop`. -/
def dropPermit (l : GradientLimiter) : GradientLimiter := { l with inFlight := fetchSub l.inFlight }

/-! ## Requests -/

/-- What an admitted request has done. -/
structure Request where
  completed : Bool
  dropped : Bool
  deriving DecidableEq

/-- A request just admitted. -/
def Request.new : Request := { completed := false, dropped := false }

def Request.untouched (r : Request) : Bool := !r.completed && !r.dropped

def Request.finished (r : Request) : Bool := r.completed && r.dropped

/-- The limiter and the requests it has admitted so far. -/
structure Session where
  limiter : GradientLimiter
  requests : List Request

inductive Event
  | acquire
  | complete (i rttUs : ℕ)
  | drop (i : ℕ)

/-- Each admitted request completes at most once and drops its permit at most once, in either order. -/
def step (s : Session) : Event → Option Session
  | .acquire =>
    match tryAcquire s.limiter with
    | (l, true) => some { limiter := l, requests := s.requests ++ [Request.new] }
    | (l, false) => some { s with limiter := l }
  | .complete i rttUs =>
    match s.requests[i]? with
    | some r =>
      if r.completed then none
      else some
        { limiter := complete rttUs s.limiter, requests := s.requests.set i { r with completed := true } }
    | none => none
  | .drop i =>
    match s.requests[i]? with
    | some r =>
      if r.dropped then none
      else some
        { limiter := dropPermit s.limiter, requests := s.requests.set i { r with dropped := true } }
    | none => none

def start (initialLimit : ℕ) : Session where
  limiter := GradientLimiter.new initialLimit
  requests := []

/-! ## The law and its condition -/

/-- The requests admitted, less one for each completion and one for each drop. -/
def balance (rs : List Request) : ℤ :=
  rs.length - rs.countP Request.completed - rs.countP Request.dropped

/-- The gauge has not wrapped around, counts no more than the live permits, and is 0 once every request has
done both steps, so that the next one is admitted. -/
structure Accounted (s : Session) : Prop where
  exact : (s.limiter.inFlight : ℤ) = balance s.requests
  live : s.limiter.inFlight ≤ s.requests.countP (fun r => !r.dropped)
  idle : (∀ r ∈ s.requests, r.finished = true) →
    s.limiter.inFlight = 0 ∧ (tryAcquire s.limiter).2 = true

/-- No more requests have done both steps than have done neither. -/
def Balanced (s : Session) : Prop :=
  s.requests.countP Request.finished ≤ s.requests.countP Request.untouched

/-! ## Counting -/

/-- A request that has taken one of the two steps counts for nothing. -/
theorem balance_eq (rs : List Request) :
    balance rs = rs.countP Request.untouched - rs.countP Request.finished := by
  unfold balance
  induction rs with
  | nil => rfl
  | cons r rs ih =>
      -- By what the request has done: neither, one of the two, or both.
      rcases r with ⟨_ | _, _ | _⟩
      all_goals
        simp [Request.untouched, Request.finished] at ih ⊢
        omega

theorem balance_append (rs : List Request) : balance (rs ++ [Request.new]) = balance rs + 1 := by
  have hcompleted : (rs ++ [Request.new]).countP Request.completed = rs.countP Request.completed := by
    simp [Request.new]
  have hdropped : (rs ++ [Request.new]).countP Request.dropped = rs.countP Request.dropped := by
    simp [Request.new]
  unfold balance
  rw [hcompleted, hdropped, List.length_append, List.length_singleton]
  push_cast
  omega

section Set

variable {rs : List Request} {i : ℕ} {r r' : Request} {p : Request → Bool}

theorem countP_set_of_new (h : rs[i]? = some r) (hold : p r = false) (hnew : p r' = true) :
    (rs.set i r').countP p = rs.countP p + 1 := by
  rcases List.getElem?_eq_some_iff.1 h with ⟨hi, hget⟩
  rw [List.countP_set hi, hget, hold, hnew]
  simp

theorem countP_set_of_same (h : rs[i]? = some r) (hsame : p r' = p r) :
    (rs.set i r').countP p = rs.countP p := by
  rcases List.getElem?_eq_some_iff.1 h with ⟨hi, hget⟩
  rw [List.countP_set hi, hget, hsame]
  cases hr : p r with
  | false => simp
  | true =>
      have hpos : 0 < rs.countP p := List.countP_pos_iff.2 ⟨r, hget ▸ List.getElem_mem hi, hr⟩
      simp only [if_true]
      exact Nat.sub_add_cancel hpos

theorem balance_complete (h : rs[i]? = some r) (hnot : r.completed = false) :
    balance (rs.set i { r with completed := true }) = balance rs - 1 := by
  have hcompleted : (rs.set i { r with completed := true }).countP Request.completed =
      rs.countP Request.completed + 1 := countP_set_of_new h hnot rfl
  have hdropped : (rs.set i { r with completed := true }).countP Request.dropped =
      rs.countP Request.dropped := countP_set_of_same h rfl
  unfold balance
  rw [hcompleted, hdropped, List.length_set]
  push_cast
  omega

theorem balance_drop (h : rs[i]? = some r) (hnot : r.dropped = false) :
    balance (rs.set i { r with dropped := true }) = balance rs - 1 := by
  have hdropped : (rs.set i { r with dropped := true }).countP Request.dropped =
      rs.countP Request.dropped + 1 := countP_set_of_new h hnot rfl
  have hcompleted : (rs.set i { r with dropped := true }).countP Request.completed =
      rs.countP Request.completed := countP_set_of_same h rfl
  unfold balance
  rw [hcompleted, hdropped, List.length_set]
  push_cast
  omega

end Set

/-! ## What the operations do to the gauge -/

theorem cast_fetchAdd (word : ℕ) : (fetchAdd word : ℤ) = (word + 1) % 2 ^ 64 := by
  unfold fetchAdd
  push_cast
  rfl

theorem cast_fetchSub {word : ℕ} (h : word < 2 ^ 64) : (fetchSub word : ℤ) = (word - 1) % 2 ^ 64 := by
  unfold fetchSub
  by_cases hzero : word = 0
  · rw [if_pos hzero, hzero]
    rfl
  · rw [if_neg hzero]
    omega

/-- What is added and taken off again leaves the word as it was, also over its end. -/
theorem fetchSub_fetchAdd {word : ℕ} (h : word < 2 ^ 64) : fetchSub (fetchAdd word) = word := by
  unfold fetchSub fetchAdd
  by_cases hzero : (word + 1) % 2 ^ 64 = 0
  · rw [if_pos hzero]
    omega
  · rw [if_neg hzero]
    omega

theorem tryAcquire_shed {l : GradientLimiter} (h : l.limit ≤ l.inFlight) :
    tryAcquire l =
      ({ l with
          inFlight := fetchSub (fetchAdd l.inFlight)
          totalSheds := fetchAdd l.totalSheds }, false) := by
  unfold tryAcquire
  dsimp only
  rw [if_pos h]

theorem tryAcquire_admitted {l : GradientLimiter} (h : l.inFlight < l.limit) :
    tryAcquire l =
      ({ l with
          inFlight := fetchAdd l.inFlight
          totalAdmitted := fetchAdd l.totalAdmitted }, true) := by
  unfold tryAcquire
  dsimp only
  rw [if_neg (Nat.not_le_of_lt h)]

/-- A limit within the bounds. -/
def Bounded (limit : ℕ) : Prop := minLimit ≤ limit ∧ limit ≤ maxLimit

theorem bounded_clampLimit (limit : ℕ) : Bounded (clampLimit limit) :=
  ⟨le_min (le_max_right _ _) (by decide), min_le_right _ _⟩

/-- Whatever the floating-point arithmetic gives: the gauge stays and the limit is within its bounds. -/
theorem updateGradient_spec (rttUs : ℕ) (l : GradientLimiter) :
    (updateGradient rttUs l).inFlight = l.inFlight ∧
      (Bounded l.limit → Bounded (updateGradient rttUs l).limit) := by
  unfold updateGradient
  dsimp only
  generalize nextMinRtt l.minRttUs rttUs = newMin
  generalize gradientLimit l.limit l.inFlight newMin rttUs = newLimit
  split
  · exact ⟨rfl, id⟩
  · split
    · exact ⟨rfl, fun _ => bounded_clampLimit newLimit⟩
    · exact ⟨rfl, id⟩

/-! ## Every sequence of operations -/

/-- The gauge is the balance as a word, and the balance is never above the limit. -/
structure Counted (s : Session) : Prop where
  word : (s.limiter.inFlight : ℤ) = balance s.requests % 2 ^ 64
  bound : balance s.requests ≤ maxLimit
  limit : Bounded s.limiter.limit

namespace Counted

variable {s : Session}

theorem inFlight_lt (h : Counted s) : s.limiter.inFlight < 2 ^ 64 := by
  have hlt : (s.limiter.inFlight : ℤ) < 2 ^ 64 := by
    rw [h.word]
    exact Int.emod_lt_of_pos _ (by decide)
  exact_mod_cast hlt

/-- One of the two steps of a request. -/
theorem release (h : Counted s) {l : GradientLimiter} {rs : List Request}
    (hword : l.inFlight = fetchSub s.limiter.inFlight) (hlimit : Bounded l.limit)
    (hbalance : balance rs = balance s.requests - 1) : Counted { limiter := l, requests := rs } where
  word := by
    calc
      (l.inFlight : ℤ) = (s.limiter.inFlight - 1) % 2 ^ 64 := by
        rw [hword, cast_fetchSub h.inFlight_lt]
      _ = (balance s.requests % 2 ^ 64 - 1) % 2 ^ 64 := by rw [h.word]
      _ = (balance s.requests - 1) % 2 ^ 64 := Int.emod_sub_emod _ _ _
      _ = balance rs % 2 ^ 64 := by rw [hbalance]
  bound := by
    have hbound := h.bound
    dsimp only
    omega
  limit := hlimit

/-- An admission: the gauge was below the limit, and so was the balance. -/
theorem admission (h : Counted s) (hroom : s.limiter.inFlight < s.limiter.limit) {l : GradientLimiter}
    (hword : l.inFlight = fetchAdd s.limiter.inFlight) (hlimit : Bounded l.limit) :
    Counted { limiter := l, requests := s.requests ++ [Request.new] } where
  word := by
    calc
      (l.inFlight : ℤ) = (s.limiter.inFlight + 1) % 2 ^ 64 := by rw [hword, cast_fetchAdd]
      _ = (balance s.requests % 2 ^ 64 + 1) % 2 ^ 64 := by rw [h.word]
      _ = (balance s.requests + 1) % 2 ^ 64 := Int.emod_add_emod _ _ _
      _ = balance (s.requests ++ [Request.new]) % 2 ^ 64 := by rw [balance_append]
  bound := by
    rw [balance_append]
    have hword' := h.word
    have hbound := h.bound
    have hlt : s.limiter.inFlight < maxLimit := lt_of_lt_of_le hroom h.limit.2
    unfold maxLimit at *
    omega
  limit := hlimit

/-- The accounts are right exactly while the balance is not negative. -/
theorem accounted_iff (h : Counted s) : Accounted s ↔ Balanced s := by
  have hbalance := balance_eq s.requests
  constructor
  · intro haccounted
    have hnonneg : 0 ≤ balance s.requests := haccounted.exact ▸ Int.natCast_nonneg _
    unfold Balanced
    omega
  · intro hbalanced
    have hnonneg : 0 ≤ balance s.requests := by
      unfold Balanced at hbalanced
      omega
    have hsmall : balance s.requests < 2 ^ 64 :=
      lt_of_le_of_lt h.bound (by decide)
    -- A balance in range is its own word.
    have hexact : (s.limiter.inFlight : ℤ) = balance s.requests :=
      h.word.trans (Int.emod_eq_of_lt hnonneg hsmall)
    refine { exact := hexact, live := ?_, idle := ?_ }
    · -- Who has done neither still has its permit.
      have huntouched : s.requests.countP Request.untouched ≤
          s.requests.countP (fun r => !r.dropped) := by
        refine List.countP_mono_left fun r _ hr => ?_
        unfold Request.untouched at hr
        rw [Bool.and_eq_true] at hr
        exact hr.2
      omega
    · intro hall
      -- Nobody is left who has done neither.
      have hnone : s.requests.countP Request.untouched = 0 := by
        refine List.countP_eq_zero.2 fun r hr huntouched => ?_
        have hfinished := hall r hr
        rcases r with ⟨_ | _, _ | _⟩ <;> simp [Request.untouched, Request.finished] at *
      have hzero : s.limiter.inFlight = 0 := by omega
      have hroom : s.limiter.inFlight < s.limiter.limit := by
        rw [hzero]
        exact h.limit.1
      exact ⟨hzero, by rw [tryAcquire_admitted hroom]⟩

end Counted

theorem counted_start (initialLimit : ℕ) : Counted (start initialLimit) where
  word := by simp [start, GradientLimiter.new, balance]
  bound := by simp [start, balance]
  limit := bounded_clampLimit initialLimit

theorem counted_step (s : Session) (e : Event) (s' : Session) :
    Counted s → step s e = some s' → Counted s' := by
  intro h hs
  cases e with
  | acquire =>
      rcases Nat.lt_or_ge s.limiter.inFlight s.limiter.limit with hroom | hfull
      · unfold step at hs
        dsimp only at hs
        rw [tryAcquire_admitted hroom] at hs
        cases hs
        exact h.admission hroom rfl h.limit
      · -- A shed request has taken its increment back.
        unfold step at hs
        dsimp only at hs
        rw [tryAcquire_shed hfull, fetchSub_fetchAdd h.inFlight_lt] at hs
        cases hs
        exact { word := h.word, bound := h.bound, limit := h.limit }
  | complete i rttUs =>
      unfold step at hs
      dsimp only at hs
      split at hs
      · rename_i r hr
        split at hs
        · cases hs
        · rename_i hnot
          cases hs
          rcases updateGradient_spec rttUs (dropPermit s.limiter) with ⟨hword, hlimit⟩
          have hnew := balance_complete hr (Bool.eq_false_of_not_eq_true hnot)
          exact h.release (l := complete rttUs s.limiter) hword (hlimit h.limit) hnew
      · cases hs
  | drop i =>
      unfold step at hs
      dsimp only at hs
      split at hs
      · rename_i r hr
        split at hs
        · cases hs
        · rename_i hnot
          cases hs
          have hnew := balance_drop hr (Bool.eq_false_of_not_eq_true hnot)
          exact h.release (l := dropPermit s.limiter) rfl h.limit hnew
      · cases hs

/-- Whatever is admitted, completed and dropped, in any order: in every state reached the accounts are right
exactly if the requests that have done both steps are no more than those that have done neither. -/
theorem accounted_iff_balanced (initialLimit : ℕ) (es : List Event) :
    Throughout step (fun s => Accounted s ↔ Balanced s) (start initialLimit) es :=
  fun _ _ _ _ hrun =>
    (invariant_run counted_step (counted_start initialLimit) hrun).accounted_iff

/-- Where the limiter admits one request, that request can complete and drop its permit. -/
theorem run_one_request {initialLimit : ℕ} (rttUs : ℕ) :
    ∃ s, run step (start initialLimit) [.acquire, .complete 0 rttUs, .drop 0] = some s ∧
      s.requests = [{ completed := true, dropped := true }] := by
  have hroom : (start initialLimit).limiter.inFlight < (start initialLimit).limiter.limit :=
    (bounded_clampLimit initialLimit).1
  have hacquire : ∃ l, step (start initialLimit) .acquire =
      some { limiter := l, requests := [Request.new] } := by
    unfold step
    dsimp only
    rw [tryAcquire_admitted hroom]
    exact ⟨_, rfl⟩
  have hcomplete : ∀ l : GradientLimiter,
      step { limiter := l, requests := [Request.new] } (.complete 0 rttUs) =
        some { limiter := complete rttUs l, requests := [{ completed := true, dropped := false }] } :=
    fun _ => rfl
  have hdrop : ∀ l : GradientLimiter,
      step { limiter := l, requests := [{ completed := true, dropped := false }] } (.drop 0) =
        some { limiter := dropPermit l, requests := [{ completed := true, dropped := true }] } :=
    fun _ => rfl
  rcases hacquire with ⟨l, hl⟩
  refine ⟨{ limiter := dropPermit (complete rttUs l), requests := _ }, ?_, rfl⟩
  exact run_cons_eq_some.2 ⟨_, hl, run_cons_eq_some.2 ⟨_, hcomplete l,
    run_cons_eq_some.2 ⟨_, hdrop (complete rttUs l), rfl⟩⟩⟩

/-- One request, from its admission to the drop of its permit, leaves the gauge one below zero: no later
request is ever admitted. -/
theorem one_request_wraps : ∃ s,
    run step (start 5) [.acquire, .complete 0 100, .drop 0] = some s ∧
      (∀ r ∈ s.requests, r.finished = true) ∧ s.limiter.inFlight = 2 ^ 64 - 1 ∧
      (tryAcquire s.limiter).2 = false := by
  rcases run_one_request 100 with ⟨s, hrun, hrequests⟩
  have hcounted : Counted s := invariant_run counted_step (counted_start 5) hrun
  have hgauge : s.limiter.inFlight = 2 ^ 64 - 1 := by
    have hword := hcounted.word
    -- One admitted, one completion and one drop.
    have hbalance : balance s.requests = -1 := by
      rw [hrequests]
      rfl
    rw [hbalance] at hword
    omega
  have hfull : s.limiter.limit ≤ s.limiter.inFlight := by
    have hlimit := hcounted.limit.2
    unfold maxLimit at hlimit
    omega
  refine ⟨s, hrun, ?_, hgauge, by rw [tryAcquire_shed hfull]⟩
  intro r hr
  rw [hrequests] at hr
  rw [List.mem_singleton.1 hr]
  rfl

end AdaptiveConcurrency
end GatewayEdge
