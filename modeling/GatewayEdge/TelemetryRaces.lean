import GatewayEdge.Foundation.SharedCounters
import GatewayEdge.Telemetry
import Mathlib.Tactic.FinCases

/-!
# TelemetryRaces — the workers of a node count into one file

`record_request` adds to the cells of the mapped file one after the other, and the workers of the node do so
at once.  Here each addition is a step of its own.  Whatever the interleaving, no request is lost, and the
cells that a request touches first are never behind those it touches later.
-/

namespace GatewayEdge
namespace Telemetry

open Foundation
open Foundation.SharedCounters (total total_nil total_cons total_append performed finishedTotal startedTotal)

/-! ## The cells of the file -/

inductive Cell
  | requestsTotal
  | requests401
  | requests429
  | requests5xx
  | latencyUsSum
  | latencyUsCount
  | bucket (i : ℕ)
  deriving DecidableEq, Repr

def Metrics.cell (m : Metrics) : Cell → ℕ
  | .requestsTotal => m.requestsTotal
  | .requests401 => m.requests401
  | .requests429 => m.requests429
  | .requests5xx => m.requests5xx
  | .latencyUsSum => m.latencyUsSum
  | .latencyUsCount => m.latencyUsCount
  | .bucket i => m.latencyBuckets.getD i 0

/-- What `record_request` is called with. -/
structure Report where
  status : ℤ
  latencyUs : ℕ
  deriving DecidableEq, Repr

/-- The buckets of these bounds that the latency falls into. -/
def bucketAdditions (latencyUs : ℕ) (bounds : List (ℕ × ℕ)) : List (Cell × ℕ) :=
  bounds.flatMap fun b => if latencyUs ≤ b.1 then [(Cell.bucket b.2, 1)] else []

def statusAdditions (status : ℤ) : List (Cell × ℕ) :=
  if status = 401 then [(.requests401, 1)]
  else if status = 429 then [(.requests429, 1)]
  else if 500 ≤ status ∧ status ≤ 599 then [(.requests5xx, 1)]
  else []

/-- The additions of `record_request`, in the order of the source. -/
def additions (r : Report) : List (Cell × ℕ) :=
  [(.requestsTotal, 1), (.latencyUsSum, r.latencyUs), (.latencyUsCount, 1)] ++
    (bucketAdditions r.latencyUs histBucketsUs.zipIdx ++ statusAdditions r.status)

/-! ## What a request adds to each cell -/

/-- The latency is within the bound of this bucket. -/
def within (i latencyUs : ℕ) : Bool := histBucketsUs[i]?.any fun bound => latencyUs ≤ bound

theorem within_of_lt {i : ℕ} (hi : i < histBucketsUs.length) (latencyUs : ℕ) :
    within i latencyUs = decide (latencyUs ≤ histBucketsUs[i]) := by
  unfold within
  rw [List.getElem?_eq_getElem hi]
  rfl

theorem within_of_ge {i : ℕ} (hi : histBucketsUs.length ≤ i) (latencyUs : ℕ) : within i latencyUs = false := by
  unfold within
  rw [List.getElem?_eq_none_iff.2 hi]
  rfl

/-- What each cell is to count. -/
def contribution (r : Report) : Cell → ℕ
  | .requestsTotal => 1
  | .requests401 => if r.status = 401 then 1 else 0
  | .requests429 => if r.status = 429 then 1 else 0
  | .requests5xx => if 500 ≤ r.status ∧ r.status ≤ 599 then 1 else 0
  | .latencyUsSum => r.latencyUs
  | .latencyUsCount => 1
  | .bucket i => if within i r.latencyUs then 1 else 0

theorem bucketAdditions_cons (latencyUs : ℕ) (b : ℕ × ℕ) (bounds : List (ℕ × ℕ)) :
    bucketAdditions latencyUs (b :: bounds) =
      (if latencyUs ≤ b.1 then [(Cell.bucket b.2, 1)] else []) ++ bucketAdditions latencyUs bounds :=
  rfl

/-- The loop over the buckets touches no other cell. -/
theorem total_bucketAdditions_other {c : Cell} (hc : ∀ i, c ≠ .bucket i) (latencyUs : ℕ)
    (bounds : List (ℕ × ℕ)) : total c (bucketAdditions latencyUs bounds) = 0 := by
  induction bounds with
  | nil => rfl
  | cons b bounds ih =>
      rw [bucketAdditions_cons, total_append, ih, Nat.add_zero]
      split
      · rw [total_cons, if_neg (Ne.symm (hc b.2)), total_nil]
      · rfl

/-- Buckets before the first of these are not touched. -/
theorem total_bucketAdditions_before {i n : ℕ} (hi : i < n) (latencyUs : ℕ) (bounds : List ℕ) :
    total (.bucket i) (bucketAdditions latencyUs (bounds.zipIdx n)) = 0 := by
  induction bounds generalizing n with
  | nil => rfl
  | cons bound bounds ih =>
      rw [List.zipIdx_cons, bucketAdditions_cons, total_append, ih (Nat.lt_succ_of_lt hi), Nat.add_zero]
      have hne : Cell.bucket n ≠ Cell.bucket i := by
        intro h
        cases h
        exact Nat.lt_irrefl _ hi
      split
      · rw [total_cons, if_neg hne, total_nil]
      · rfl

theorem total_bucketAdditions (i latencyUs n : ℕ) (bounds : List ℕ) :
    total (.bucket (n + i)) (bucketAdditions latencyUs (bounds.zipIdx n)) =
      if bounds[i]?.any fun bound => latencyUs ≤ bound then 1 else 0 := by
  induction bounds generalizing i n with
  | nil => rfl
  | cons bound bounds ih =>
      rw [List.zipIdx_cons, bucketAdditions_cons, total_append]
      cases i with
      | zero =>
          rw [Nat.add_zero, total_bucketAdditions_before (Nat.lt_succ_self n), List.getElem?_cons_zero,
            Option.any_some, Nat.add_zero]
          by_cases hle : latencyUs ≤ bound
          · simp [hle, total_cons]
          · simp [hle]
      | succ i =>
          have hne : Cell.bucket n ≠ Cell.bucket (n + (i + 1)) := by
            intro h
            cases h
          have hrest := ih i (n + 1)
          rw [Nat.add_right_comm, Nat.add_assoc] at hrest
          rw [List.getElem?_cons_succ, hrest]
          split
          · rw [total_cons, if_neg hne, total_nil, Nat.zero_add]
          · exact Nat.zero_add _

theorem total_statusAdditions_other {c : Cell} (h401 : c ≠ .requests401) (h429 : c ≠ .requests429)
    (h5xx : c ≠ .requests5xx) (status : ℤ) : total c (statusAdditions status) = 0 := by
  unfold statusAdditions
  split
  · simp [total_cons, Ne.symm h401]
  · split
    · simp [total_cons, Ne.symm h429]
    · split
      · simp [total_cons, Ne.symm h5xx]
      · rfl

/-- The additions of `record_request` are those of its specification, cell by cell. -/
theorem total_additions (r : Report) (c : Cell) : total c (additions r) = contribution r c := by
  unfold additions
  rw [total_append, total_append]
  cases c with
  | requestsTotal =>
      rw [total_bucketAdditions_other (by simp), total_statusAdditions_other (by simp) (by simp) (by simp)]
      simp [total_cons, contribution]
  | latencyUsSum =>
      rw [total_bucketAdditions_other (by simp), total_statusAdditions_other (by simp) (by simp) (by simp)]
      simp [total_cons, contribution]
  | latencyUsCount =>
      rw [total_bucketAdditions_other (by simp), total_statusAdditions_other (by simp) (by simp) (by simp)]
      simp [total_cons, contribution]
  | requests401 =>
      rw [total_bucketAdditions_other (by simp)]
      by_cases h : r.status = 401
      · simp [total_cons, contribution, statusAdditions, h]
      · simp only [contribution, statusAdditions, if_neg h]
        split <;> [skip; split] <;> simp [total_cons]
  | requests429 =>
      rw [total_bucketAdditions_other (by simp)]
      by_cases h : r.status = 429
      · simp [total_cons, contribution, statusAdditions, h]
      · simp only [contribution, statusAdditions, if_neg h]
        split <;> [skip; split] <;> simp [total_cons]
  | requests5xx =>
      rw [total_bucketAdditions_other (by simp)]
      by_cases h : 500 ≤ r.status ∧ r.status ≤ 599
      · -- The code looks for 401 and 429 first.
        have h401 : r.status ≠ 401 := by omega
        have h429 : r.status ≠ 429 := by omega
        simp [total_cons, contribution, statusAdditions, h, h401, h429]
      · simp only [contribution, statusAdditions, if_neg h]
        split <;> [skip; split] <;> simp [total_cons]
  | bucket i =>
      have hbuckets := total_bucketAdditions i r.latencyUs 0 histBucketsUs
      rw [Nat.zero_add] at hbuckets
      rw [hbuckets, total_statusAdditions_other (by simp) (by simp) (by simp)]
      simp [total_cons, contribution]
      rfl

/-! ## One worker at a time -/

/-- The mapped file: one cell per bucket, 64-bit words. -/
structure Mapped (m : Metrics) : Prop where
  buckets : m.latencyBuckets.length = histBucketsUs.length
  words : ∀ c, m.cell c < 2 ^ 64

theorem mapped_fresh : Mapped {} where
  buckets := rfl
  words c := by
    cases c with
    | bucket i =>
        have hget : (histBucketsUs.map fun _ => (0 : ℕ)).getD i 0 = 0 := by
          rw [List.getD_eq_getElem?_getD, List.getElem?_map]
          cases histBucketsUs[i]? with
          | none => rfl
          | some bound => rfl
        exact hget.trans_lt (by decide)
    | _ => decide

/-- A counter that is counted in some requests alone. -/
theorem fetchAdd_if {word : ℕ} (hword : word % 2 ^ 64 = word) (counts : Prop) [Decidable counts] :
    (if counts then fetchAdd 1 word else word) = (word + if counts then 1 else 0) % 2 ^ 64 := by
  split
  · rfl
  · rw [Nat.add_zero, hword]

/-- Counting one request adds its contribution to every cell. -/
theorem cell_recordRequest {m : Metrics} (hm : Mapped m) (r : Report) (c : Cell) :
    (recordRequest r.status r.latencyUs m).cell c = (m.cell c + contribution r c) % 2 ^ 64 := by
  have hkeep : ∀ c, m.cell c % 2 ^ 64 = m.cell c := fun c => Nat.mod_eq_of_lt (hm.words c)
  cases c with
  | requestsTotal => rfl
  | latencyUsSum => rfl
  | latencyUsCount => rfl
  | requests401 =>
      exact fetchAdd_if (hkeep .requests401) (r.status = 401)
  | requests429 =>
      exact fetchAdd_if (hkeep .requests429) (r.status = 429)
  | requests5xx =>
      exact fetchAdd_if (hkeep .requests5xx) (500 ≤ r.status ∧ r.status ≤ 599)
  | bucket i =>
      have h := hkeep (.bucket i)
      simp only [Metrics.cell, List.getD_eq_getElem?_getD] at h
      simp only [recordRequest, Metrics.cell, contribution, List.getD_eq_getElem?_getD,
        List.getElem?_zipWith]
      -- The file has a word for each bound, and none beyond.
      rcases Nat.lt_or_ge i histBucketsUs.length with hlt | hge
      · rw [List.getElem?_eq_getElem hlt, List.getElem?_eq_getElem (hm.buckets.symm ▸ hlt)]
        rw [List.getElem?_eq_getElem (hm.buckets.symm ▸ hlt)] at h
        simp only [within_of_lt hlt, Option.getD_some, decide_eq_true_eq] at h ⊢
        exact fetchAdd_if h _
      · rw [within_of_ge hge, List.getElem?_eq_none_iff.2 hge,
          List.getElem?_eq_none_iff.2 (hm.buckets.symm ▸ hge)]
        rfl

theorem Mapped.recordRequest {m : Metrics} (hm : Mapped m) (r : Report) :
    Mapped (recordRequest r.status r.latencyUs m) where
  buckets := by
    simp [Telemetry.recordRequest, hm.buckets]
  words c := by
    rw [cell_recordRequest hm r c]
    exact Nat.mod_lt _ (by decide)

/-- The requests are counted one after the other. -/
def recordAll (reports : List Report) (m : Metrics) : Metrics :=
  reports.foldl (fun m r => recordRequest r.status r.latencyUs m) m

theorem cell_recordAll (reports : List Report) {m : Metrics} (hm : Mapped m) (c : Cell) :
    (recordAll reports m).cell c = (m.cell c + (reports.map fun r => contribution r c).sum) % 2 ^ 64 := by
  induction reports generalizing m with
  | nil => exact (Nat.mod_eq_of_lt (hm.words c)).symm
  | cons r reports ih =>
      have hstep : recordAll (r :: reports) m = recordAll reports (recordRequest r.status r.latencyUs m) :=
        rfl
      rw [hstep, ih (hm.recordRequest r), cell_recordRequest hm r c, Nat.mod_add_mod, List.map_cons,
        List.sum_cons, Nat.add_assoc]

/-! ## All workers at once -/

/-- The node's workers at their additions. -/
abbrev Workers := SharedCounters.State Report Cell

def workersStep : Workers → SharedCounters.Event Report → Option Workers :=
  SharedCounters.step (2 ^ 64) additions

/-- What the given requests are to add to a cell. -/
def counted (c : Cell) (reports : List Report) : ℕ := (reports.map fun r => contribution r c).sum

theorem finishedTotal_additions (c : Cell) (s : Workers) :
    finishedTotal additions c s = counted c s.finished := by
  simp only [finishedTotal, total_additions, counted]

theorem startedTotal_additions (c : Cell) (s : Workers) :
    startedTotal additions c s = counted c (s.finished ++ s.calls.map fun call => call.1) := by
  simp only [startedTotal, finishedTotal, total_additions, counted, List.map_append, List.sum_append,
    List.map_map, Function.comp_def]

theorem counted_perm {reports reports' : List Report} (h : reports.Perm reports') (c : Cell) :
    counted c reports = counted c reports' :=
  (h.map _).sum_eq

/-- No request is lost: in every interleaving of the workers' additions, each cell has counted all the
finished requests and no request that has not begun; and once no request is under way, the file is what one
worker would have left that counted the requests in whatever order. -/
theorem no_request_is_lost {m₀ : Metrics} (hm : Mapped m₀) {s : Workers}
    {es : List (SharedCounters.Event Report)}
    (hrun : run workersStep (SharedCounters.start m₀.cell) es = some s) :
    (∀ c, ∃ n, s.cells c = (m₀.cell c + n) % 2 ^ 64 ∧ counted c s.finished ≤ n ∧
      n ≤ counted c (s.finished ++ s.calls.map fun call => call.1)) ∧
    (s.calls = [] → ∀ reports, reports.Perm s.finished → ∀ c,
      s.cells c = (recordAll reports m₀).cell c) := by
  have hcells := SharedCounters.cells_run hm.words hrun
  constructor
  · intro c
    refine ⟨performed additions c s, hcells c, ?_, ?_⟩
    · rw [← finishedTotal_additions]
      exact SharedCounters.finishedTotal_le_performed s c
    · rw [← startedTotal_additions]
      exact SharedCounters.performed_le_startedTotal s c
  · intro hidle reports hperm c
    have hall : (reports.map fun r => contribution r c).sum = counted c s.finished := counted_perm hperm c
    rw [hcells c, SharedCounters.performed_of_idle hidle, finishedTotal_additions, cell_recordAll _ hm, hall]

/-- Two workers, the additions of the first in the midst of those of the second. -/
def twoWorkers : List (SharedCounters.Event Report) :=
  [.begin ⟨200, 300⟩, .begin ⟨401, 80⟩] ++ List.replicate 6 (.add 1 1) ++ List.replicate 4 (.add 0 0) ++
    List.replicate 5 (.add 1 0) ++ List.replicate 4 (.add 0 0) ++ [.finish 1, .finish 0]

theorem two_workers_at_once :
    ∃ s, run workersStep (SharedCounters.start (Metrics.cell {})) twoWorkers = some s ∧
    ∀ c, s.cells c = (recordAll [⟨200, 300⟩, ⟨401, 80⟩] {}).cell c :=
  ⟨_, rfl, (@no_request_is_lost {} mapped_fresh _ twoWorkers rfl).2 rfl [⟨200, 300⟩, ⟨401, 80⟩]
    (List.Perm.swap _ _ _)⟩

/-! ## What the file says at rest -/

theorem counted_eq_countP {c : Cell} {p : Report → Bool} (h : ∀ r, contribution r c = if p r then 1 else 0)
    (reports : List Report) : counted c reports = reports.countP p := by
  induction reports with
  | nil => rfl
  | cons r reports ih =>
      have hcons : counted c (r :: reports) = contribution r c + counted c reports := rfl
      rw [hcons, h, ih, List.countP_cons]
      exact Nat.add_comm _ _

/-- The bounds grow. -/
theorem within_mono {i j latencyUs : ℕ} (hij : i ≤ j) (hj : j < histBucketsUs.length)
    (h : within i latencyUs = true) : within j latencyUs = true := by
  have hsorted : histBucketsUs.Pairwise (· < ·) := by decide
  have hi : i < histBucketsUs.length := hij.trans_lt hj
  rw [within_of_lt hi] at h
  rw [within_of_lt hj]
  rcases Nat.lt_or_eq_of_le hij with hlt | rfl
  · have hbound := List.pairwise_iff_getElem.1 hsorted i j hi hj hlt
    simp only [decide_eq_true_eq] at h ⊢
    exact h.trans hbound.le
  · exact h

/-- A status is counted under one heading at most. -/
theorem contribution_statuses (r : Report) :
    contribution r .requests401 + contribution r .requests429 + contribution r .requests5xx ≤ 1 := by
  simp only [contribution]
  split <;> split <;> split <;> omega

theorem counted_statuses (reports : List Report) :
    counted .requests401 reports + counted .requests429 reports + counted .requests5xx reports ≤
      reports.length := by
  induction reports with
  | nil => exact le_rfl
  | cons r reports ih =>
      have hr := contribution_statuses r
      have hcons : ∀ c, counted c (r :: reports) = contribution r c + counted c reports := fun _ => rfl
      simp only [hcons, List.length_cons]
      omega

/-- What a request adds to the error headings is at most one, under one of them. -/
theorem headings_of_request (r : Report) :
    total .requests401 (additions r) + total .requests429 (additions r) +
      total .requests5xx (additions r) ≤ 1 := by
  rw [total_additions, total_additions, total_additions]
  exact contribution_statuses r

/-- The workers have started on a fresh file, and no request is under way any more.  Then the file is a
histogram of the finished requests: each bucket holds those within its bound, each at least what the one
before it holds, the count is the number of requests, each error heading holds those of its statuses, and no
request is under two of them. -/
theorem file_is_a_histogram {s : Workers} {es : List (SharedCounters.Event Report)}
    (hrun : run workersStep (SharedCounters.start (Metrics.cell {})) es = some s) (hidle : s.calls = [])
    (hfew : s.finished.length < 2 ^ 64) :
    s.cells .requestsTotal = s.finished.length ∧
    s.cells .latencyUsCount = s.finished.length ∧
    (∀ i, (hi : i < histBucketsUs.length) → s.cells (.bucket i) =
      s.finished.countP fun r => r.latencyUs ≤ histBucketsUs[i]) ∧
    (∀ i j, i ≤ j → j < histBucketsUs.length →
      s.cells (.bucket i) ≤ s.cells (.bucket j) ∧ s.cells (.bucket j) ≤ s.cells .latencyUsCount) ∧
    s.cells .requests401 = s.finished.countP (fun r => r.status = 401) ∧
    s.cells .requests429 = s.finished.countP (fun r => r.status = 429) ∧
    s.cells .requests5xx = s.finished.countP (fun r => 500 ≤ r.status ∧ r.status ≤ 599) ∧
    (∀ r ∈ s.finished, total .requests401 (additions r) + total .requests429 (additions r) +
      total .requests5xx (additions r) ≤ 1) ∧
    s.cells .requests401 + s.cells .requests429 + s.cells .requests5xx ≤ s.cells .requestsTotal := by
  have hzero : ∀ c, Metrics.cell {} c = 0 := by
    intro c
    cases c with
    | bucket i =>
        simp only [Metrics.cell, List.getD_eq_getElem?_getD, List.getElem?_map]
        cases histBucketsUs[i]? with
        | none => rfl
        | some bound => rfl
    | _ => rfl
  have hcells : ∀ c, s.cells c = counted c s.finished % 2 ^ 64 := by
    intro c
    rw [SharedCounters.cells_run mapped_fresh.words hrun, hzero, Nat.zero_add,
      SharedCounters.performed_of_idle hidle, finishedTotal_additions]
  -- only the sum of the latencies can be larger than the number of requests
  have hcountP : ∀ c (p : Report → Bool), (∀ r, contribution r c = if p r then 1 else 0) →
      s.cells c = s.finished.countP p := by
    intro c p hp
    rw [hcells c, counted_eq_countP hp, Nat.mod_eq_of_lt (List.countP_le_length.trans_lt hfew)]
  have htotal : s.cells .requestsTotal = s.finished.length :=
    (hcountP .requestsTotal (fun _ => true) fun _ => rfl).trans (congrFun List.countP_true _)
  have hcount : s.cells .latencyUsCount = s.finished.length :=
    (hcountP .latencyUsCount (fun _ => true) fun _ => rfl).trans (congrFun List.countP_true _)
  have hbucket : ∀ i, s.cells (.bucket i) = s.finished.countP fun r => within i r.latencyUs :=
    fun i => hcountP (.bucket i) _ fun _ => rfl
  have h401 : s.cells .requests401 = s.finished.countP fun r => r.status = 401 :=
    hcountP .requests401 _ fun r => by simp [contribution]
  have h429 : s.cells .requests429 = s.finished.countP fun r => r.status = 429 :=
    hcountP .requests429 _ fun r => by simp [contribution]
  have h5xx : s.cells .requests5xx = s.finished.countP fun r => 500 ≤ r.status ∧ r.status ≤ 599 :=
    hcountP .requests5xx _ fun r => by simp [contribution]
  refine ⟨htotal, hcount, ?_, ?_, h401, h429, h5xx, fun r _ => headings_of_request r, ?_⟩
  · intro i hi
    rw [hbucket i]
    simp only [within_of_lt hi]
  · intro i j hij hj
    rw [hbucket i, hbucket j, hcount]
    exact ⟨List.countP_mono_left fun r _ h => within_mono hij hj h, List.countP_le_length⟩
  · have hstatuses := counted_statuses s.finished
    have h401 := Nat.mod_le (counted .requests401 s.finished) (2 ^ 64)
    have h429 := Nat.mod_le (counted .requests429 s.finished) (2 ^ 64)
    have h5xx := Nat.mod_le (counted .requests5xx s.finished) (2 ^ 64)
    rw [htotal, hcells .requests401, hcells .requests429, hcells .requests5xx]
    omega

theorem two_workers_at_rest :
    ∃ s, run workersStep (SharedCounters.start (Metrics.cell {})) twoWorkers = some s ∧
    s.cells .requestsTotal = 2 ∧ s.cells .requests401 ≤ 2 :=
  ⟨_, rfl, (@file_is_a_histogram _ twoWorkers rfl rfl (by decide)).1, by decide⟩

end Telemetry
end GatewayEdge
