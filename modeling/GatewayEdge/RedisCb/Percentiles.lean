import GatewayEdge.Foundation.OrderStatistic
import GatewayEdge.RedisCb.WindowContents

/-!
# RedisCb.Percentiles — what a percentile of the window says about the latencies

Recording sorts a latency into a band, and a percentile is read off the bands: the bound of the band in
which the running count reaches the rank.  Both sides of every band edge agree, so this is the smallest
bound that the percentile of the latencies themselves does not exceed.
-/

namespace GatewayEdge
namespace RedisCb

open Foundation
open Foundation.OrderStatistic (nearestRank rank exists_nearestRank nearestRank_iff nearestRank_mono)
open WindowStats (u64Max percentileBand)

/-! ## Bounds -/

/-- The smallest bound that is at least `v`, or `u64::MAX`. -/
def tightBound (v : Nat) : Nat := (histBoundsUs.filter fun bound => v ≤ bound).min?.getD u64Max

/-- Either a bound, the smallest that will do, or none would. -/
theorem tightBound_cases (v : Nat) :
    (tightBound v ∈ histBoundsUs ∧ v ≤ tightBound v ∧
        ∀ bound ∈ histBoundsUs, v ≤ bound → tightBound v ≤ bound) ∨
      (tightBound v = u64Max ∧ ∀ bound ∈ histBoundsUs, bound < v) := by
  unfold tightBound
  cases hmin : (histBoundsUs.filter fun bound => v ≤ bound).min? with
  | none =>
      refine Or.inr ⟨rfl, fun bound hbound => not_le.1 fun hle => ?_⟩
      have hmem : bound ∈ histBoundsUs.filter fun bound => v ≤ bound :=
        List.mem_filter.2 ⟨hbound, decide_eq_true hle⟩
      rw [List.min?_eq_none_iff.1 hmin] at hmem
      cases hmem
  | some least =>
      rcases List.min?_eq_some_iff.1 hmin with ⟨hmem, hleast⟩
      rcases List.mem_filter.1 hmem with ⟨hbound, hle⟩
      refine Or.inl ⟨hbound, of_decide_eq_true hle, fun bound hother hv => ?_⟩
      exact hleast bound (List.mem_filter.2 ⟨hother, decide_eq_true hv⟩)

theorem bound_le_u64Max : ∀ bound ∈ histBoundsUs, bound ≤ u64Max := by decide

theorem tightBound_le_u64Max (v : Nat) : tightBound v ≤ u64Max := by
  rcases tightBound_cases v with ⟨hmem, -, -⟩ | ⟨hmax, -⟩
  · exact bound_le_u64Max _ hmem
  · exact hmax.le

theorem le_tightBound {v : Nat} (hv : v ≤ u64Max) : v ≤ tightBound v := by
  rcases tightBound_cases v with ⟨-, hle, -⟩ | ⟨hmax, -⟩
  · exact hle
  · exact hmax ▸ hv

theorem tightBound_mono {v v' : Nat} (h : v ≤ v') : tightBound v ≤ tightBound v' := by
  rcases tightBound_cases v' with ⟨hmem', hle', -⟩ | ⟨hmax', -⟩
  · rcases tightBound_cases v with ⟨-, -, hleast⟩ | ⟨-, hnone⟩
    · exact hleast _ hmem' (h.trans hle')
    · exact absurd (h.trans hle') (not_le.2 (hnone _ hmem'))
  · exact hmax' ▸ tightBound_le_u64Max v

/-! ## Bands -/

theorem latencyBand_mono {l l' : Nat} (h : l ≤ l') : latencyBand l ≤ latencyBand l' := by
  have hbounds : ∀ bounds : List Nat,
      (bounds.takeWhile (· < l)).length ≤ (bounds.takeWhile (· < l')).length := by
    intro bounds
    induction bounds with
    | nil => exact le_rfl
    | cons bound bounds ih =>
        by_cases hlt : bound < l
        · have hlt' : bound < l' := hlt.trans_le h
          simpa [List.takeWhile_cons, hlt, hlt'] using ih
        · simp [List.takeWhile_cons, hlt]
  exact hbounds histBoundsUs

/-- The bound of a latency's band is the smallest that will do. -/
theorem bound_of_band (v : Nat) : histBoundsUs[latencyBand v]? =
    (histBoundsUs.filter fun bound => v ≤ bound).min? := by
  have hbounds : ∀ bounds : List Nat, bounds.Pairwise (· ≤ ·) →
      bounds[(bounds.takeWhile (· < v)).length]? = (bounds.filter fun bound => v ≤ bound).min? := by
    intro bounds hsorted
    -- Both sides pass over the bounds below `v` and stop at the first that is not.
    induction bounds with
    | nil => rfl
    | cons bound bounds ih =>
        rcases List.pairwise_cons.1 hsorted with ⟨hfirst, hrest⟩
        by_cases hlt : bound < v
        · have hnot : ¬ v ≤ bound := not_le.2 hlt
          simpa [List.takeWhile_cons, hlt, hnot] using ih hrest
        · have hle : v ≤ bound := not_lt.1 hlt
          have hleast : ((bound :: bounds).filter fun bound => v ≤ bound).min? = some bound := by
            apply List.min?_eq_some_iff.2
            refine ⟨List.mem_filter.2 ⟨List.mem_cons_self, decide_eq_true hle⟩, fun other hother => ?_⟩
            rcases List.mem_cons.1 (List.mem_filter.1 hother).1 with rfl | hmem
            · exact le_rfl
            · exact hfirst other hmem
          rw [hleast]
          simp [hlt]
  exact hbounds histBoundsUs (by decide)

/-! ## The scan -/

/-- The scan stops in the band in which the running count reaches the target. -/
theorem percentileBand_eq {target : Nat} (hist : List Nat) (bounds : List Nat) (c band : Nat)
    (hband : band < hist.length) (hbelow : c + (hist.take band).sum < target)
    (hreach : target ≤ c + (hist.take (band + 1)).sum) :
    percentileBand target c bounds hist = bounds[band]?.getD u64Max := by
  -- The running count takes over what the bands passed so far have held.
  induction hist generalizing bounds c band with
  | nil => cases hband
  | cons count hist ih =>
      cases band with
      | zero =>
          have hhere : target ≤ c + count := by simpa using hreach
          simp [percentileBand, hhere, List.head?_eq_getElem?]
      | succ band =>
          rw [List.take_succ_cons, List.sum_cons] at hbelow hreach
          have hnot : ¬ target ≤ c + count := by omega
          have hrest := ih bounds.tail (c + count) band (Nat.lt_of_succ_lt_succ hband) (by omega)
            (by omega)
          simpa [percentileBand, hnot] using hrest

/-- Counting by key, and the keys below a limit taken together. -/
theorem sum_countP_key (key : Completed → Nat) (rs : List Completed) (limit : Nat) :
    ((List.range limit).map fun k => rs.countP fun r => key r = k).sum =
      rs.countP fun r => key r < limit := by
  induction limit with
  | zero => simp
  | succ limit ih =>
      have hsplit : (rs.countP fun r => key r < limit) + (rs.countP fun r => key r = limit) =
          rs.countP fun r => key r < limit + 1 := by
        clear ih
        induction rs with
        | nil => rfl
        | cons r rs ih =>
            simp only [List.countP_cons, decide_eq_true_eq]
            rcases lt_trichotomy (key r) limit with hlt | heq | hgt
            · rw [if_pos hlt, if_neg hlt.ne, if_pos (Nat.lt_succ_of_lt hlt)]
              omega
            · rw [if_neg heq.not_lt, if_pos heq, if_pos (by omega)]
              omega
            · rw [if_neg hgt.not_gt, if_neg hgt.ne', if_neg (by omega)]
              omega
      rw [List.range_succ, List.map_append, List.sum_append, ih, ← hsplit]
      simp

/-- The first bands of a tally, taken together. -/
theorem sum_take_hist (rs : List Completed) {band : Nat} (hband : band ≤ histBands) :
    ((WindowStats.tally rs).hist.take band).sum =
      (rs.map fun r => r.latencyUs.toNat).countP fun l => latencyBand l < band := by
  have htake : (WindowStats.tally rs).hist.take band =
      (List.range band).map fun k => rs.countP fun r => latencyBand r.latencyUs.toNat = k := by
    unfold WindowStats.tally
    rw [← List.map_take, List.take_range, Nat.min_eq_left hband]
  rw [htake, sum_countP_key, List.countP_map]
  rfl

/-! ## Percentiles -/

/-- What the percentiles of a reading are worth. -/
structure Tight (stats : WindowStats) (latencies : List Nat) : Prop where
  /-- Each is the smallest bound that the percentile of the latencies does not exceed. -/
  exact : ∀ pct, 0 < pct → pct ≤ 100 →
    ∃ v, nearestRank pct latencies = some v ∧ stats.percentileUs pct = tightBound v ∧
      v ≤ stats.percentileUs pct
  mono : ∀ pct pct', 0 < pct → pct ≤ pct' → pct' ≤ 100 →
    stats.percentileUs pct ≤ stats.percentileUs pct'

theorem percentileUs_tally {rs : List Completed} {pct : ℚ} {v : Nat} (hpos : 0 < pct)
    (hv : nearestRank pct (rs.map fun r => r.latencyUs.toNat) = some v) (hsome : rs ≠ []) :
    (WindowStats.tally rs).percentileUs pct = tightBound v := by
  have htotal : (WindowStats.tally rs).total ≠ 0 := by simpa [WindowStats.tally] using hsome
  -- What the bands below one limit hold, and whether the percentile is among it.
  have hbelow : ∀ band ≤ histBands, latencyBand v < band ↔
      rank pct rs.length ≤ ((WindowStats.tally rs).hist.take band).sum := by
    intro band hband
    have hdown : ∀ a b, a ≤ b → decide (latencyBand b < band) = true →
        decide (latencyBand a < band) = true := by
      intro a b hab hb
      exact decide_eq_true ((latencyBand_mono hab).trans_lt (of_decide_eq_true hb))
    have hiff := nearestRank_iff hpos hv hdown
    rw [decide_eq_true_eq, List.length_map] at hiff
    rw [sum_take_hist rs hband]
    exact hiff
  have hband := latencyBand_lt v
  have hlow : ((WindowStats.tally rs).hist.take (latencyBand v)).sum < rank pct rs.length :=
    not_le.1 fun hle => lt_irrefl _ ((hbelow _ hband.le).2 hle)
  have hhigh : rank pct rs.length ≤ ((WindowStats.tally rs).hist.take (latencyBand v + 1)).sum :=
    (hbelow _ hband).1 (Nat.lt_succ_self _)
  have hlength : latencyBand v < (WindowStats.tally rs).hist.length := by
    simpa [WindowStats.tally] using hband
  -- So the scan reaches the rank in the band of the percentile.
  have hscan := percentileBand_eq (WindowStats.tally rs).hist histBoundsUs 0 (latencyBand v) hlength
    (by simpa using hlow) (by simpa using hhigh)
  unfold WindowStats.percentileUs
  rw [if_neg htotal]
  refine hscan.trans ?_
  rw [bound_of_band]
  rfl

theorem tight_tally {rs : List Completed} (hsome : rs ≠ []) :
    Tight (WindowStats.tally rs) (rs.map fun r => r.latencyUs.toNat) := by
  have hmap : (rs.map fun r => r.latencyUs.toNat) ≠ [] := by simpa using hsome
  refine ⟨?_, ?_⟩
  · intro pct hpos hle
    rcases exists_nearestRank hmap hpos hle with ⟨v, hmem, hv⟩
    have hpercentile := percentileUs_tally hpos hv hsome
    refine ⟨v, hv, hpercentile, ?_⟩
    rcases List.mem_map.1 hmem with ⟨r, -, rfl⟩
    rw [hpercentile]
    exact le_tightBound (Nat.le_pred_of_lt r.latencyUs.toNat_lt)
  · intro pct pct' hpos h hle
    rcases exists_nearestRank hmap hpos (h.trans hle) with ⟨v, -, hv⟩
    rcases exists_nearestRank hmap (hpos.trans_le h) hle with ⟨v', -, hv'⟩
    rw [percentileUs_tally hpos hv hsome, percentileUs_tally (hpos.trans_le h) hv' hsome]
    exact tightBound_mono (nearestRank_mono hpos h hv hv')

/-- The percentiles of a reading are tight for the calls it counts, and these are the calls of the window
unless those of the second before it are still there. -/
theorem percentiles_tight {windowSecs nowTs : Nat} {rs : List Completed} (hsize : 1 ≤ windowSecs)
    (hsorted : rs.Pairwise fun r r' => r.ts ≤ r'.ts) (hpast : ∀ r ∈ rs, r.ts ≤ nowTs)
    (hsome : countedCalls windowSecs windowSecs nowTs rs ≠ []) :
    Tight ((RollingWindow.recorded windowSecs rs).aggregate windowSecs nowTs)
        ((countedCalls windowSecs windowSecs nowTs rs).map fun r => r.latencyUs.toNat) ∧
      (TakenOver windowSecs nowTs rs →
        countedCalls windowSecs windowSecs nowTs rs = rs.filter fun r => r.Within windowSecs nowTs) := by
  rw [aggregate_recorded hsize hsorted]
  exact ⟨tight_tally hsome, countedCalls_of_takenOver hsize hpast⟩

/-- Two quick calls and one that took longer than any bound. -/
def slowCalls : List Completed := [
  { ts := 100, outcome := .success, latencyUs := 400 },
  { ts := 103, outcome := .success, latencyUs := 90000 },
  { ts := 104, outcome := .timeout, latencyUs := 5000000 }]

theorem slow_calls_tight :
    Tight ((RollingWindow.recorded 10 slowCalls).aggregate 10 104)
        ((countedCalls 10 10 104 slowCalls).map fun r => r.latencyUs.toNat) ∧
      (TakenOver 10 104 slowCalls →
        countedCalls 10 10 104 slowCalls = slowCalls.filter fun r => r.Within 10 104) :=
  percentiles_tight (by decide) (by decide) (by decide) (by decide)

end RedisCb
end GatewayEdge
