import GatewayEdge.Foundation.TimeRing
import GatewayEdge.RedisCb.CircuitBreaker
import Mathlib.Data.List.GetD
import Mathlib.Data.Nat.ModEq

/-!
# RedisCb.WindowContents — which calls a reading of the window counts

A window of `w` one-second buckets is to count the calls of the last `w` seconds.  Its buckets are a ring
indexed by the second, and the age test of a reading lets `w + 1` seconds pass.  So a call of the second
just before the window is counted as long as its bucket has not been taken over, which only a call of the
current second does.
-/

namespace GatewayEdge
namespace RedisCb

open Foundation
open Foundation.TimeRing (Scheme Reading)

/-! ## Records -/

/-- One completed call: its second, what came of it, and how long it took. -/
structure Completed where
  ts : Nat
  outcome : RedisCallOutcome
  latencyUs : UInt64
  deriving DecidableEq, Repr

/-- The window after these calls. -/
def RollingWindow.recorded (size : Nat) (rs : List Completed) : RollingWindow :=
  rs.foldl (fun w r => w.record r.outcome r.latencyUs.toNat r.ts) (RollingWindow.new size)

attribute [ext] WindowStats

/-- What a reading is to say of these calls. -/
def WindowStats.tally (rs : List Completed) : WindowStats where
  total := rs.length
  errors := rs.countP fun r => r.outcome = .redisError
  timeouts := rs.countP fun r => r.outcome = .timeout
  hist := (List.range histBands).map fun band => rs.countP fun r => latencyBand r.latencyUs.toNat = band

/-- The call was made in one of the `windowSecs` seconds that end with `nowTs`. -/
def Completed.Within (windowSecs nowTs : Nat) (r : Completed) : Prop :=
  nowTs < r.ts + windowSecs ∧ r.ts ≤ nowTs

instance (windowSecs nowTs : Nat) (r : Completed) : Decidable (r.Within windowSecs nowTs) :=
  inferInstanceAs (Decidable (_ ∧ _))

/-- The buckets of a breaker's window are as many as its seconds. -/
theorem CircuitBreaker.new_window {cfg : CbConfig} (hcfg : cfg.Valid) :
    (CircuitBreaker.new cfg).window = RollingWindow.new cfg.windowSecs := by
  have hrange := hcfg.windowSecs
  have hclamp : clamp 1 maxWindowBuckets cfg.windowSecs = cfg.windowSecs := by
    unfold clamp maxWindowBuckets
    rw [if_neg (by omega), if_neg (by omega)]
  unfold CircuitBreaker.new
  rw [hclamp]

/-! ## The ring of buckets -/

theorem latencyBand_lt (latencyUs : Nat) : latencyBand latencyUs < histBands :=
  Nat.lt_succ_of_le (List.takeWhile_sublist _).length_le

theorem length_hist_forSecond (ts : Nat) {b : TimeBucket} (h : b.hist.length = histBands) :
    (b.forSecond ts).hist.length = histBands := by
  unfold TimeBucket.forSecond
  split
  · exact List.length_replicate
  · exact h

def windowScheme : Scheme TimeBucket Completed where
  time := Completed.ts
  stamp := TimeBucket.ts
  put r b := (b.forSecond r.ts).count r.outcome r.latencyUs.toNat
  Valid b := b.hist.length = histBands
  valid_put r b h := by simpa [TimeBucket.count] using length_hist_forSecond r.ts h
  stamp_put r b := forSecond_ts r.ts b

theorem put_of_ne {r : Completed} {b : TimeBucket} (h : windowScheme.stamp b ≠ windowScheme.time r) :
    windowScheme.put r b = TimeBucket.count r.outcome r.latencyUs.toNat { ts := r.ts } :=
  congrArg (TimeBucket.count r.outcome r.latencyUs.toNat) (if_pos h)

theorem put_of_eq {r : Completed} {b : TimeBucket} (h : windowScheme.stamp b = windowScheme.time r) :
    windowScheme.put r b = b.count r.outcome r.latencyUs.toNat :=
  congrArg (TimeBucket.count r.outcome r.latencyUs.toNat) (if_neg (not_not.2 h))

def totalReading : Reading windowScheme where
  value := TimeBucket.total
  weight _ := 1
  value_fresh r b h := by
    rw [put_of_ne h]
    rfl
  value_again r b _ h := by
    rw [put_of_eq h]
    rfl

def errorsReading : Reading windowScheme where
  value := TimeBucket.errors
  weight r := if r.outcome = .redisError then 1 else 0
  value_fresh r b h := by
    rw [put_of_ne h]
    rfl
  value_again r b _ h := by
    rw [put_of_eq h]
    by_cases herror : r.outcome = .redisError
    · simp [TimeBucket.count, herror]
    · simp [TimeBucket.count, herror]

def timeoutsReading : Reading windowScheme where
  value := TimeBucket.timeouts
  weight r := if r.outcome = .timeout then 1 else 0
  value_fresh r b h := by
    rw [put_of_ne h]
    rfl
  value_again r b _ h := by
    rw [put_of_eq h]
    by_cases htimeout : r.outcome = .timeout
    · simp [TimeBucket.count, htimeout]
    · simp [TimeBucket.count, htimeout]

/-- The count of one band. -/
def bandReading (band : Nat) : Reading windowScheme where
  value b := b.hist.getD band 0
  weight r := if latencyBand r.latencyUs.toNat = band then 1 else 0
  value_fresh r b h := by
    have hlt := latencyBand_lt r.latencyUs.toNat
    rw [put_of_ne h]
    by_cases hband : latencyBand r.latencyUs.toNat = band
    · subst hband
      simp [TimeBucket.count, hlt]
    · simp [TimeBucket.count, hband]
  value_again r b hvalid h := by
    have hlt := latencyBand_lt r.latencyUs.toNat
    have hlength : b.hist.length = histBands := hvalid
    rw [put_of_eq h]
    by_cases hband : latencyBand r.latencyUs.toNat = band
    · subst hband
      simp [TimeBucket.count, hlength, hlt]
    · simp [TimeBucket.count, hband]

theorem recorded_eq_fill (size : Nat) (rs : List Completed) :
    RollingWindow.recorded size rs = windowScheme.fill size {} rs := rfl

/-! ## A reading -/

/-- The seconds that the age test lets pass: one more than the window has. -/
def Fresh (windowSecs nowTs ts : Nat) : Prop := nowTs - windowSecs ≤ ts ∧ ts ≤ nowTs

instance (windowSecs nowTs : Nat) : DecidablePred (Fresh windowSecs nowTs) :=
  fun _ => inferInstanceAs (Decidable (_ ∧ _))

theorem stale_iff_not_fresh {windowSecs nowTs : Nat} {b : TimeBucket} :
    b.Stale windowSecs nowTs ↔ ¬ Fresh windowSecs nowTs b.ts := by
  unfold TimeBucket.Stale Fresh
  rw [not_and_or, not_le, not_le]

/-- The calls that a reading counts. -/
def countedCalls (size windowSecs nowTs : Nat) (rs : List Completed) : List Completed :=
  rs.filter fun r => Fresh windowSecs nowTs r.ts ∧ windowScheme.Newest size rs r

section Reading

variable {size : Nat} {rs : List Completed}

theorem liveSum_recorded (R : Reading windowScheme) (hzero : R.value {} = 0) (hsize : 0 < size)
    (hsorted : rs.Pairwise fun r r' => r.ts ≤ r'.ts) (windowSecs nowTs : Nat) :
    (RollingWindow.recorded size rs).liveSum R.value windowSecs nowTs =
      R.weigh (countedCalls size windowSecs nowTs rs) := by
  have hblank : windowScheme.Valid {} := List.length_replicate
  have hsum := R.sum_fill hsize hblank hzero hsorted (Fresh windowSecs nowTs)
  rw [recorded_eq_fill, countedCalls]
  refine Eq.trans ?_ hsum
  unfold RollingWindow.liveSum
  refine congrArg List.sum (List.map_congr_left fun b _ => ?_)
  by_cases hfresh : Fresh windowSecs nowTs b.ts
  · have hlive : ¬ b.Stale windowSecs nowTs := fun hstale => stale_iff_not_fresh.1 hstale hfresh
    rw [if_neg hlive]
    exact (if_pos hfresh).symm
  · rw [if_pos (stale_iff_not_fresh.2 hfresh)]
    exact (if_neg hfresh).symm

/-- The bands of a reading are the sums of the buckets' bands. -/
theorem aggregate_hist (windowSecs nowTs : Nat) (bs : RollingWindow) (hvalid : ∀ b ∈ bs, b.hist.length = histBands) :
    (bs.aggregate windowSecs nowTs).hist.length = histBands ∧
      ∀ band, (bs.aggregate windowSecs nowTs).hist.getD band 0 =
        bs.liveSum (bandReading band).value windowSecs nowTs := by
  have hfold : ∀ (bs : RollingWindow) (acc : WindowStats), acc.hist.length = histBands →
      (∀ b ∈ bs, b.hist.length = histBands) →
      (bs.foldl (WindowStats.add windowSecs nowTs) acc).hist.length = histBands ∧
        ∀ band, (bs.foldl (WindowStats.add windowSecs nowTs) acc).hist.getD band 0 =
          acc.hist.getD band 0 + bs.liveSum (bandReading band).value windowSecs nowTs := by
    intro bs
    induction bs with
    | nil =>
        intro acc hacc _
        exact ⟨hacc, fun _ => rfl⟩
    | cons b bs ih =>
        intro acc hacc hvalid
        have hb : b.hist.length = histBands := hvalid b List.mem_cons_self
        have hrest : ∀ b ∈ bs, b.hist.length = histBands :=
          fun b hb => hvalid b (List.mem_cons_of_mem _ hb)
        by_cases hstale : b.Stale windowSecs nowTs
        · have hadd : acc.add windowSecs nowTs b = acc := if_pos hstale
          rcases ih acc hacc hrest with ⟨hlength, hbands⟩
          rw [List.foldl_cons, hadd]
          refine ⟨hlength, fun band => ?_⟩
          rw [hbands, liveSum_cons, if_pos hstale, Nat.zero_add]
        · have hadd : (acc.add windowSecs nowTs b).hist = List.zipWith (· + ·) acc.hist b.hist := by
            simp [WindowStats.add, hstale]
          have hacc' : (acc.add windowSecs nowTs b).hist.length = histBands := by
            rw [hadd, List.length_zipWith, hacc, hb, Nat.min_self]
          rcases ih _ hacc' hrest with ⟨hlength, hbands⟩
          refine ⟨hlength, fun band => ?_⟩
          have hone : (acc.add windowSecs nowTs b).hist.getD band 0 =
              acc.hist.getD band 0 + b.hist.getD band 0 := by
            rw [hadd]
            by_cases hband : band < histBands
            · simp [hacc, hb, hband]
            · simp [hacc, hb, hband]
          rw [List.foldl_cons, hbands, hone, liveSum_cons, if_neg hstale, Nat.add_assoc]
          rfl
  rcases hfold bs {} List.length_replicate hvalid with ⟨hlength, hbands⟩
  refine ⟨hlength, fun band => ?_⟩
  have hzero : ({} : WindowStats).hist.getD band 0 = 0 := by simp
  exact (hbands band).trans (by rw [hzero, Nat.zero_add])

theorem length_hist_of_mem_recorded {b : TimeBucket} (hb : b ∈ RollingWindow.recorded size rs) :
    b.hist.length = histBands := by
  rw [recorded_eq_fill] at hb
  have hblank : windowScheme.Valid {} := List.length_replicate
  exact TimeRing.valid_of_mem_fill hblank hb

/-- A reading is the tally of the calls it counts. -/
theorem aggregate_recorded (hsize : 0 < size) (hsorted : rs.Pairwise fun r r' => r.ts ≤ r'.ts)
    (windowSecs nowTs : Nat) :
    (RollingWindow.recorded size rs).aggregate windowSecs nowTs =
      WindowStats.tally (countedCalls size windowSecs nowTs rs) := by
  rcases aggregate_counts windowSecs nowTs (RollingWindow.recorded size rs) with
    ⟨htotal, herrors, htimeouts⟩
  rcases aggregate_hist windowSecs nowTs (RollingWindow.recorded size rs)
    fun b hb => length_hist_of_mem_recorded hb with ⟨hlength, hbands⟩
  have hsum : ∀ R : Reading windowScheme, R.value {} = 0 →
      (RollingWindow.recorded size rs).liveSum R.value windowSecs nowTs =
        R.weigh (countedCalls size windowSecs nowTs rs) :=
    fun R hzero => liveSum_recorded R hzero hsize hsorted windowSecs nowTs
  apply WindowStats.ext
  · have hcalls : totalReading.weigh (countedCalls size windowSecs nowTs rs) =
        (countedCalls size windowSecs nowTs rs).length := by
      simp [Reading.weigh, totalReading]
    exact htotal.trans ((hsum totalReading rfl).trans hcalls)
  · have hcalls := errorsReading.weigh_eq_countP (p := fun r => r.outcome = .redisError)
      (by simp [errorsReading]) (countedCalls size windowSecs nowTs rs)
    exact herrors.trans ((hsum errorsReading rfl).trans hcalls)
  · have hcalls := timeoutsReading.weigh_eq_countP (p := fun r => r.outcome = .timeout)
      (by simp [timeoutsReading]) (countedCalls size windowSecs nowTs rs)
    exact htimeouts.trans ((hsum timeoutsReading rfl).trans hcalls)
  · apply List.ext_getElem
    · simpa [WindowStats.tally] using hlength
    · intro band hband _
      have hzero : (bandReading band).value {} = 0 := by simp [bandReading]
      have hcalls := (bandReading band).weigh_eq_countP
        (p := fun r => latencyBand r.latencyUs.toNat = band) (by simp [bandReading])
        (countedCalls size windowSecs nowTs rs)
      have hget := (hbands band).trans ((hsum _ hzero).trans hcalls)
      rw [List.getD_eq_getElem?_getD, List.getElem?_eq_getElem hband, Option.getD_some] at hget
      simpa [WindowStats.tally] using hget

/-! ## The seconds of the window -/

variable {windowSecs nowTs : Nat}

/-- The calls that are counted: those of the window, and those of the second before it unless a call of
the current second has taken over their bucket. -/
theorem counted_iff (hsize : 1 ≤ windowSecs) (hpast : ∀ r ∈ rs, r.ts ≤ nowTs) (r : Completed) :
    Fresh windowSecs nowTs r.ts ∧ windowScheme.Newest windowSecs rs r ↔
      r.Within windowSecs nowTs ∨ r.ts + windowSecs = nowTs ∧ ∀ r' ∈ rs, r'.ts ≠ nowTs := by
  -- Within a slot the seconds are whole turns of the ring apart.
  have hturn : ∀ r' : Completed, r'.ts % windowSecs = r.ts % windowSecs → r.ts < r'.ts →
      r.ts + windowSecs ≤ r'.ts :=
    fun r' hslot hlt => Nat.ModEq.add_le_of_lt hslot.symm hlt
  constructor
  · rintro ⟨⟨hold, hnow⟩, hnewest⟩
    by_cases hwithin : nowTs < r.ts + windowSecs
    · exact Or.inl ⟨hwithin, hnow⟩
    · have hedge : r.ts + windowSecs = nowTs := by omega
      refine Or.inr ⟨hedge, fun r' hr' hcurrent => ?_⟩
      have hslot : r'.ts % windowSecs = r.ts % windowSecs := by
        rw [hcurrent, ← hedge, Nat.add_mod_right]
      have hle : r'.ts ≤ r.ts := hnewest r' hr' hslot
      omega
  · rintro (⟨hwithin, hnow⟩ | ⟨hedge, hidle⟩)
    · refine ⟨⟨by omega, hnow⟩, fun r' hr' hslot => not_lt.1 fun hlt => ?_⟩
      have hturned := hturn r' hslot hlt
      have hbefore := hpast r' hr'
      omega
    · refine ⟨⟨by omega, by omega⟩, fun r' hr' hslot => not_lt.1 fun hlt => ?_⟩
      have hturned := hturn r' hslot hlt
      exact hidle r' hr' (le_antisymm (hpast r' hr') (hedge ▸ hturned))

/-- If the second just before the window has calls, so has the current one. -/
def TakenOver (windowSecs nowTs : Nat) (rs : List Completed) : Prop :=
  (∃ r ∈ rs, r.ts + windowSecs = nowTs) → ∃ r ∈ rs, r.ts = nowTs

theorem countedCalls_of_takenOver (hsize : 1 ≤ windowSecs) (hpast : ∀ r ∈ rs, r.ts ≤ nowTs)
    (htaken : TakenOver windowSecs nowTs rs) :
    countedCalls windowSecs windowSecs nowTs rs = rs.filter fun r => r.Within windowSecs nowTs := by
  apply List.filter_congr
  intro r hr
  rw [decide_eq_decide, counted_iff hsize hpast r]
  constructor
  · rintro (hwithin | ⟨hedge, hidle⟩)
    · exact hwithin
    · rcases htaken ⟨r, hr, hedge⟩ with ⟨r', hr', hcurrent⟩
      exact absurd hcurrent (hidle r' hr')
  · exact Or.inl

/-- A reading counts exactly the calls of the window if and only if the bucket of the second before it,
should it hold any, has been taken over. -/
theorem window_exact_iff (hsize : 1 ≤ windowSecs) (hsorted : rs.Pairwise fun r r' => r.ts ≤ r'.ts)
    (hpast : ∀ r ∈ rs, r.ts ≤ nowTs) :
    (RollingWindow.recorded windowSecs rs).aggregate windowSecs nowTs =
        WindowStats.tally (rs.filter fun r => r.Within windowSecs nowTs) ↔
      TakenOver windowSecs nowTs rs := by
  rw [aggregate_recorded hsize hsorted]
  constructor
  · rintro hexact ⟨r, hr, hedge⟩
    by_contra hnone
    have hidle : ∀ r' ∈ rs, r'.ts ≠ nowTs := fun r' hr' hcurrent => hnone ⟨r', hr', hcurrent⟩
    have hcounted : r ∈ countedCalls windowSecs windowSecs nowTs rs :=
      List.mem_filter.2 ⟨hr, decide_eq_true ((counted_iff hsize hpast r).2 (Or.inr ⟨hedge, hidle⟩))⟩
    -- The calls of the window are among those counted, and as many.
    have hwithin : (countedCalls windowSecs windowSecs nowTs rs).filter
        (fun r => r.Within windowSecs nowTs) = rs.filter fun r => r.Within windowSecs nowTs := by
      unfold countedCalls
      rw [List.filter_filter]
      apply List.filter_congr
      intro r hr
      rw [← Bool.decide_and, decide_eq_decide]
      exact ⟨fun h => h.1, fun h => ⟨h, (counted_iff hsize hpast r).2 (Or.inl h)⟩⟩
    have htotal : (countedCalls windowSecs windowSecs nowTs rs).length =
        (rs.filter fun r => r.Within windowSecs nowTs).length := congrArg WindowStats.total hexact
    rw [← hwithin] at htotal
    have hall := List.length_filter_eq_length_iff.1 htotal.symm r hcounted
    have hlate : nowTs < r.ts + windowSecs := (of_decide_eq_true hall).1
    exact hlate.ne hedge.symm
  · intro htaken
    rw [countedCalls_of_takenOver hsize hpast htaken]

/-- A call that failed in second 100. -/
def failedCall : Completed where
  ts := 100
  outcome := .redisError
  latencyUs := 700

/-- Ten seconds on it is still counted, though it lies before the window. -/
theorem window_reaches_back :
    (RollingWindow.recorded 10 [failedCall]).aggregate 10 110 ≠
      WindowStats.tally ([failedCall].filter fun r => r.Within 10 110) := by
  decide

/-- Nine seconds on it belongs there. -/
theorem window_exact_within :
    (RollingWindow.recorded 10 [failedCall]).aggregate 10 109 =
      WindowStats.tally ([failedCall].filter fun r => r.Within 10 109) :=
  (window_exact_iff (by decide) (by simp) (by decide)).2 (by
    rintro ⟨r, hr, hedge⟩
    rw [List.mem_singleton.1 hr] at hedge
    cases hedge)

end Reading

end RedisCb
end GatewayEdge
