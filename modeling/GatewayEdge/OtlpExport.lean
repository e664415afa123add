import GatewayEdge.RedisCb.CircuitBreaker
import GatewayEdge.Telemetry

/-!
# OtlpExport — what the exporter sends every ten seconds

Each export holds the gauges and counters of one worker.  A counter is declared to be a monotonic sum with
cumulative temporality, so its points ought to share one start and carry the whole count since then.  The
exporter keeps the previous values and sends what has been added since the last export, each time with a
start ten seconds back.
-/

namespace GatewayEdge
namespace Otlp

open RedisCb

/-! ## Documents -/

inductive AggregationTemporality
  | delta
  | cumulative
  deriving DecidableEq, Repr

/-- Attribute keys with their string values; none at all where the field is absent. -/
abbrev Attributes := List (String × String)

structure GaugePoint where
  timeUnixNano : Nat
  asInt : Int
  attributes : Attributes
  deriving DecidableEq, Repr

structure DoublePoint where
  timeUnixNano : Nat
  asDouble : Foundation.F64
  deriving DecidableEq, Repr

structure SumPoint where
  startTimeUnixNano : Nat
  timeUnixNano : Nat
  asInt : Int
  attributes : Attributes
  deriving DecidableEq, Repr

inductive Data
  | gauge (dataPoints : List GaugePoint)
  | gaugeDouble (dataPoints : List DoublePoint)
  | sum (isMonotonic : Bool) (aggregationTemporality : AggregationTemporality)
      (dataPoints : List SumPoint)
  deriving DecidableEq, Repr

structure Metric where
  name : String
  data : Data
  deriving DecidableEq, Repr

structure MetricsDoc where
  resource : Attributes
  scope : String
  metrics : List Metric
  deriving DecidableEq, Repr

def resourceAttrs : Attributes := [("service.name", "gateway-edge"), ("service.namespace", "routiq")]

/-- `as i64`: the lower 64 bits, signed. -/
def asI64 (n : Nat) : Int := (n : Int).bmod (2 ^ 64)

def pushGauge (name : String) (extra : Attributes) (val : Int) (ts : Nat) : Metric where
  name := name
  data := .gauge [{ timeUnixNano := ts, asInt := val, attributes := extra }]

def pushGaugeDouble (name : String) (val : Foundation.F64) (ts : Nat) : Metric where
  name := name
  data := .gaugeDouble [{ timeUnixNano := ts, asDouble := val }]

def pushSum (name : String) (extra : Attributes) (val : Int) (start ts : Nat) : Metric where
  name := name
  data := .sum true .cumulative
    [{ startTimeUnixNano := start, timeUnixNano := ts, asInt := val, attributes := extra }]

/-! ## An export -/

/-- What an export reads: the clock, the worker's circuit breaker and the node's counters. -/
structure Reading where
  tsNs : Nat
  cb : CircuitBreaker
  snapshot : Telemetry.Metrics

abbrev Series := String × (Reading → Nat)

/-- `CB_NAMES` and `cur_cb`. -/
def cbSeries : List Series := [
  ("gateway_redis_requests_total", fun r => r.cb.redisRequestsTotal),
  ("gateway_redis_success_total", fun r => r.cb.redisSuccessTotal),
  ("gateway_redis_errors_total", fun r => r.cb.redisErrorsTotal),
  ("gateway_redis_timeouts_total", fun r => r.cb.redisTimeoutsTotal),
  ("gateway_redis_circuit_open_total", fun r => r.cb.circuitOpenTotal),
  ("gateway_redis_circuit_half_open_total", fun r => r.cb.circuitHalfOpenTotal),
  ("gateway_redis_circuit_rejected_total", fun r => r.cb.circuitRejectedTotal)]

/-- `SHM_NAMES` and `cur_shm`. -/
def shmSeries : List Series := [
  ("gateway_http_requests_total", fun r => r.snapshot.requestsTotal),
  ("gateway_http_requests_401_total", fun r => r.snapshot.requests401),
  ("gateway_http_requests_429_total", fun r => r.snapshot.requests429),
  ("gateway_http_requests_5xx_total", fun r => r.snapshot.requests5xx),
  ("gateway_latency_us_sum", fun r => r.snapshot.latencyUsSum),
  ("gateway_latency_us_count", fun r => r.snapshot.latencyUsCount)]

/-- The previous values, of the two groups of counters. -/
structure Prev where
  cb : List Nat
  shm : List Nat

/-- The exporter thread begins with zeros. -/
def Prev.zero : Prev where
  cb := List.replicate 7 0
  shm := List.replicate 6 0

/-- The values of these counters. -/
def current (series : List Series) (r : Reading) : List Nat := series.map fun s => s.2 r

/-- The loop over a group of counters. -/
def pushSums (series : List Series) (extra : Attributes) (prev : List Nat) (r : Reading) (start : Nat) :
    List Metric :=
  List.zipWith (fun s before => pushSum s.1 extra (asI64 (s.2 r - before)) start r.tsNs) series prev

def stateCode : CircuitState → Int
  | .closed => 0
  | .opened => 1
  | .halfOpen => 2

variable (cfg : CbConfig) (pid startedNs : Nat)

def pidAttr : Attributes := [("gateway.worker_pid", toString pid)]

/-- The gauges of the circuit breaker. -/
def cbGauges (r : Reading) : List Metric :=
  let stats := r.cb.window.aggregate cfg.windowSecs (currentTs (r.tsNs / 1000000))
  [pushGauge "gateway_redis_circuit_state" (pidAttr pid) (stateCode r.cb.state) r.tsNs,
    pushGauge "gateway_redis_circuit_inflight" (pidAttr pid) r.cb.inflight r.tsNs,
    pushGauge "gateway_redis_latency_p50_us" (pidAttr pid) (asI64 (stats.percentileUs 50)) r.tsNs,
    pushGauge "gateway_redis_latency_p95_us" (pidAttr pid) (asI64 (stats.percentileUs 95)) r.tsNs,
    pushGauge "gateway_redis_latency_p99_us" (pidAttr pid) (asI64 (stats.percentileUs 99)) r.tsNs,
    pushGaugeDouble "gateway_redis_error_rate" stats.errorRateF64 r.tsNs]

/-- `export_metrics`: the document that is posted, and the previous values of the next export. -/
def exportMetrics (prev : Prev) (r : Reading) : MetricsDoc × Prev :=
  let start := r.tsNs - 10000000000
  let uptime := (r.tsNs - startedNs) / 1000000000
  ({ resource := resourceAttrs
     scope := "gateway-edge"
     metrics := cbGauges cfg pid r ++ pushSums cbSeries (pidAttr pid) prev.cb r start ++
       (pushSums shmSeries [] prev.shm r start ++
         [pushGauge "gateway_uptime_seconds" [] (asI64 uptime) r.tsNs]) },
    { cb := current cbSeries r
      shm := current shmSeries r })

/-- The documents of successive exports. -/
def exports : Prev → List Reading → List MetricsDoc
  | _, [] => []
  | prev, r :: rs =>
    (exportMetrics cfg pid startedNs prev r).1 :: exports (exportMetrics cfg pid startedNs prev r).2 rs

/-! ## What the declaration means -/

/-- The points of this name, if the metric is declared to be a monotonic and cumulative sum. -/
def Metric.cumulativePoints (name : String) (m : Metric) : List SumPoint :=
  match m.data with
  | .sum true .cumulative dataPoints => if m.name = name then dataPoints else []
  | _ => []

def cumulativePoints (name : String) (doc : MetricsDoc) : List SumPoint :=
  doc.metrics.flatMap (Metric.cumulativePoints name)

/-- Points of a counter that has never been reset: a single start, and the whole count since then, which was
zero.  So the values do not go down. -/
structure Cumulative (points : List SumPoint) (counts : List Nat) : Prop where
  sameStart : ∀ p ∈ points, ∀ q ∈ points, p.startTimeUnixNano = q.startTimeUnixNano
  nondecreasing : (points.map SumPoint.asInt).Pairwise (· ≤ ·)
  increase : points.map SumPoint.asInt = counts.map Nat.cast

/-- Every exported counter means what it declares. -/
def MeansDeclared (docs : List MetricsDoc) (rs : List Reading) : Prop :=
  ∀ s ∈ cbSeries ++ shmSeries, Cumulative (docs.flatMap (cumulativePoints s.1)) (rs.map s.2)

/-! ## What is sent -/

/-- The point of a counter that stood at `before` at the previous export. -/
def point (extra : Attributes) (counter : Reading → Nat) (before : Nat) (r : Reading) : SumPoint where
  startTimeUnixNano := r.tsNs - 10000000000
  timeUnixNano := r.tsNs
  asInt := asI64 (counter r - before)
  attributes := extra

/-- The points of successive exports. -/
def increments (extra : Attributes) (counter : Reading → Nat) : Nat → List Reading → List SumPoint
  | _, [] => []
  | before, r :: rs => point extra counter before r :: increments extra counter (counter r) rs

/-- What an export leaves for the next one. -/
def Prev.after (r : Reading) : Prev where
  cb := current cbSeries r
  shm := current shmSeries r

variable {series : List Series} {s : Series} {extra : Attributes} {counter : Reading → Nat} {before : Nat}
  {rs : List Reading} {r : Reading}

theorem pushSums_current (series : List Series) (extra : Attributes) (r₀ r : Reading) (start : Nat) :
    pushSums series extra (current series r₀) r start =
      series.map fun s => pushSum s.1 extra (asI64 (s.2 r - s.2 r₀)) start r.tsNs := by
  unfold pushSums current
  rw [List.zipWith_map_right, List.zipWith_self]

/-- Among counters of different names a name finds its own. -/
theorem flatMap_name {α : Type} (hnames : (series.map Prod.fst).Nodup) (hs : s ∈ series)
    (f : Series → List α) : series.flatMap (fun t => if t.1 = s.1 then f t else []) = f s := by
  induction series with
  | nil => cases hs
  | cons t series ih =>
      rw [List.map_cons, List.nodup_cons] at hnames
      rw [List.flatMap_cons]
      rcases List.mem_cons.1 hs with rfl | hs
      · have hrest : series.flatMap (fun t => if t.1 = s.1 then f t else []) = [] := by
          refine List.flatMap_eq_nil_iff.2 fun t ht => if_neg fun heq => hnames.1 ?_
          exact heq ▸ List.mem_map_of_mem ht
        rw [if_pos rfl, hrest, List.append_nil]
      · have hne : t.1 ≠ s.1 := fun heq => hnames.1 (heq ▸ List.mem_map_of_mem hs)
        rw [if_neg hne, List.nil_append, ih hnames.2 hs]

theorem flatMap_other_name {α : Type} {name : String} (hname : name ∉ series.map Prod.fst)
    (f : Series → List α) : series.flatMap (fun t => if t.1 = name then f t else []) = [] := by
  refine List.flatMap_eq_nil_iff.2 fun t ht => if_neg fun heq => hname ?_
  exact heq ▸ List.mem_map_of_mem ht

theorem cumulativePoints_cbGauges (name : String) (r : Reading) :
    (cbGauges cfg pid r).flatMap (Metric.cumulativePoints name) = [] := by
  simp [cbGauges, pushGauge, pushGaugeDouble, Metric.cumulativePoints]

theorem cumulativePoints_pushSums (name : String) (series : List Series) (extra : Attributes)
    (r₀ r : Reading) :
    (pushSums series extra (current series r₀) r (r.tsNs - 10000000000)).flatMap
        (Metric.cumulativePoints name) =
      series.flatMap fun t => if t.1 = name then [point extra t.2 (t.2 r₀) r] else [] := by
  rw [pushSums_current, List.flatMap_map]
  rfl

/-- The points of one name in one export. -/
theorem cumulativePoints_export (name : String) (r₀ r : Reading) :
    cumulativePoints name (exportMetrics cfg pid startedNs (.after r₀) r).1 =
      cbSeries.flatMap (fun t => if t.1 = name then [point (pidAttr pid) t.2 (t.2 r₀) r] else []) ++
        shmSeries.flatMap (fun t => if t.1 = name then [point [] t.2 (t.2 r₀) r] else []) := by
  have huptime : ∀ val ts, [pushGauge "gateway_uptime_seconds" [] val ts].flatMap
      (Metric.cumulativePoints name) = [] := fun _ _ => rfl
  unfold cumulativePoints exportMetrics Prev.after
  dsimp only
  rw [List.flatMap_append, List.flatMap_append, List.flatMap_append, cumulativePoints_cbGauges,
    cumulativePoints_pushSums, cumulativePoints_pushSums, huptime, List.nil_append, List.append_nil]

/-- Each export holds one point of each counter. -/
theorem exists_point (hs : s ∈ cbSeries ++ shmSeries) : ∃ extra, ∀ r₀ r,
    cumulativePoints s.1 (exportMetrics cfg pid startedNs (.after r₀) r).1 =
      [point extra s.2 (s.2 r₀) r] := by
  have hdisjoint : ∀ name ∈ cbSeries.map Prod.fst, name ∉ shmSeries.map Prod.fst := by decide
  rcases List.mem_append.1 hs with hcb | hshm
  · refine ⟨pidAttr pid, fun r₀ r => ?_⟩
    rw [cumulativePoints_export, flatMap_name (by decide) hcb,
      flatMap_other_name (hdisjoint _ (List.mem_map_of_mem hcb)), List.append_nil]
  · refine ⟨[], fun r₀ r => ?_⟩
    have hother : s.1 ∉ cbSeries.map Prod.fst := fun hcb => hdisjoint _ hcb (List.mem_map_of_mem hshm)
    rw [cumulativePoints_export, flatMap_name (by decide) hshm, flatMap_other_name hother, List.nil_append]

/-- Of each counter a run sends what has been added from export to export. -/
theorem exists_increments (hs : s ∈ cbSeries ++ shmSeries) : ∃ extra, ∀ r₀ rs,
    (exports cfg pid startedNs (.after r₀) rs).flatMap (cumulativePoints s.1) =
      increments extra s.2 (s.2 r₀) rs := by
  rcases exists_point cfg pid startedNs hs with ⟨extra, hpoint⟩
  refine ⟨extra, fun r₀ rs => ?_⟩
  induction rs generalizing r₀ with
  | nil => rfl
  | cons r rs ih =>
      have hrest := ih r
      unfold exports increments
      rw [List.flatMap_cons, hpoint]
      exact congrArg (point extra s.2 (s.2 r₀) r :: ·) hrest

/-- Before the first export nothing has been counted. -/
theorem zero_eq_after : ∃ r₀, Prev.zero = .after r₀ ∧ ∀ s ∈ cbSeries ++ shmSeries, s.2 r₀ = 0 :=
  ⟨{ tsNs := 0, cb := { window := [] }, snapshot := {} }, rfl, by decide⟩

/-! ## When it means what it declares -/

/-- The increment is the whole count only if there was nothing before. -/
theorem asI64_sub_eq_iff {n : Nat} (h : before ≤ n) :
    asI64 (n - before) = n ↔ before = 0 ∧ n < 2 ^ 63 := by
  unfold asI64
  rw [Int.bmod_def]
  split_ifs <;> omega

theorem point_asInt (extra : Attributes) (counter : Reading → Nat) (before : Nat) (r : Reading) :
    (point extra counter before r).asInt = asI64 (counter r - before) := by
  unfold point
  dsimp only

theorem increments_cons_asInt (extra : Attributes) (counter : Reading → Nat) (before : Nat) (r : Reading)
    (rs : List Reading) : (increments extra counter before (r :: rs)).map SumPoint.asInt =
      asI64 (counter r - before) :: (increments extra counter (counter r) rs).map SumPoint.asInt := by
  rw [increments, List.map_cons, point_asInt]

theorem increments_start (extra : Attributes) (counter : Reading → Nat) (before : Nat) (rs : List Reading) :
    (increments extra counter before rs).map SumPoint.startTimeUnixNano =
      rs.map fun r => r.tsNs - 10000000000 := by
  induction rs generalizing before with
  | nil => rfl
  | cons r rs ih => exact congrArg _ (ih (counter r))

theorem increments_asInt_iff (extra : Attributes) (hmono : (before :: rs.map counter).Pairwise (· ≤ ·)) :
    (increments extra counter before rs).map SumPoint.asInt = (rs.map counter).map Nat.cast ↔
      (rs ≠ [] → before = 0) ∧ (∀ r ∈ rs.dropLast, counter r = 0) ∧ ∀ r ∈ rs, counter r < 2 ^ 63 := by
  induction rs generalizing before with
  | nil => simp [increments]
  | cons r rs ih =>
      rcases List.pairwise_cons.1 hmono with ⟨hfirst, hrest⟩
      have hle : before ≤ counter r := hfirst _ (by simp)
      have hstep := asI64_sub_eq_iff hle
      rw [increments_cons_asInt, List.map_cons, List.map_cons, List.cons.injEq, hstep, ih hrest]
      cases rs with
      | nil => simp
      | cons r' rs =>
          -- With a later export, what has been counted until now is its previous value.
          have hmore : r' :: rs ≠ [] := List.cons_ne_nil r' rs
          have hboth : r :: r' :: rs ≠ [] := List.cons_ne_nil r (r' :: rs)
          rw [List.dropLast_cons_cons]
          constructor
          · rintro ⟨⟨hbefore, hlt⟩, hzero, hzeros, hlts⟩
            exact ⟨fun _ => hbefore, List.forall_mem_cons.2 ⟨hzero hmore, hzeros⟩,
              List.forall_mem_cons.2 ⟨hlt, hlts⟩⟩
          · rintro ⟨hbefore, hzeros, hlts⟩
            rcases List.forall_mem_cons.1 hzeros with ⟨hzero, hzeros⟩
            rcases List.forall_mem_cons.1 hlts with ⟨hlt, hlts⟩
            exact ⟨⟨hbefore hboth, hlt⟩, fun _ => hzero, hzeros, hlts⟩

/-- An export has a single start only if it is the only one, or within ten seconds of the epoch. -/
theorem same_start_iff (a b : Nat) :
    a - 10000000000 = b - 10000000000 ↔ a = b ∨ a ≤ 10000000000 ∧ b ≤ 10000000000 := by
  omega

theorem increments_sameStart_iff : (∀ p ∈ increments extra counter before rs,
      ∀ q ∈ increments extra counter before rs, p.startTimeUnixNano = q.startTimeUnixNano) ↔
    ∀ r ∈ rs, ∀ r' ∈ rs, r.tsNs = r'.tsNs ∨ r.tsNs ≤ 10000000000 ∧ r'.tsNs ≤ 10000000000 := by
  calc
    (∀ p ∈ increments extra counter before rs,
        ∀ q ∈ increments extra counter before rs, p.startTimeUnixNano = q.startTimeUnixNano)
        ↔ ∀ a ∈ (increments extra counter before rs).map SumPoint.startTimeUnixNano,
            ∀ b ∈ (increments extra counter before rs).map SumPoint.startTimeUnixNano, a = b := by
          simp only [List.forall_mem_map]
    _ ↔ ∀ r ∈ rs, ∀ r' ∈ rs, r.tsNs - 10000000000 = r'.tsNs - 10000000000 := by
          simp only [increments_start, List.forall_mem_map]
    _ ↔ _ := by
          simp only [same_start_iff]

theorem cumulative_increments_iff (hmono : (rs.map counter).Pairwise (· ≤ ·)) :
    Cumulative (increments extra counter 0 rs) (rs.map counter) ↔
      (∀ r ∈ rs, ∀ r' ∈ rs, r.tsNs = r'.tsNs ∨ r.tsNs ≤ 10000000000 ∧ r'.tsNs ≤ 10000000000) ∧
        (∀ r ∈ rs.dropLast, counter r = 0) ∧ ∀ r ∈ rs, counter r < 2 ^ 63 := by
  have hzero : (0 :: rs.map counter).Pairwise (· ≤ ·) :=
    List.pairwise_cons.2 ⟨fun _ _ => Nat.zero_le _, hmono⟩
  have hvalues := increments_asInt_iff extra hzero
  rw [and_iff_right (fun _ => rfl)] at hvalues
  rw [← increments_sameStart_iff, ← hvalues]
  constructor
  · exact fun h => ⟨h.sameStart, h.increase⟩
  · rintro ⟨hstart, hcounts⟩
    refine ⟨hstart, ?_, hcounts⟩
    rw [hcounts, List.pairwise_map]
    exact hmono.imp Int.ofNat_le.2

/-- For every run of exports with counters that do not go down: the points mean what they declare exactly if
all exports share one start, no counter has moved before the last of them, and none has reached the sign
bit. -/
theorem meansDeclared_iff (rs : List Reading)
    (hmono : ∀ s ∈ cbSeries ++ shmSeries, (rs.map s.2).Pairwise (· ≤ ·)) :
    MeansDeclared (exports cfg pid startedNs .zero rs) rs ↔
      (∀ r ∈ rs, ∀ r' ∈ rs, r.tsNs = r'.tsNs ∨ r.tsNs ≤ 10000000000 ∧ r'.tsNs ≤ 10000000000) ∧
        ∀ s ∈ cbSeries ++ shmSeries, (∀ r ∈ rs.dropLast, s.2 r = 0) ∧ ∀ r ∈ rs, s.2 r < 2 ^ 63 := by
  rcases zero_eq_after with ⟨r₀, hzero, hcounts⟩
  have heach : ∀ s ∈ cbSeries ++ shmSeries,
      Cumulative ((exports cfg pid startedNs .zero rs).flatMap (cumulativePoints s.1)) (rs.map s.2) ↔
        (∀ r ∈ rs, ∀ r' ∈ rs, r.tsNs = r'.tsNs ∨ r.tsNs ≤ 10000000000 ∧ r'.tsNs ≤ 10000000000) ∧
          (∀ r ∈ rs.dropLast, s.2 r = 0) ∧ ∀ r ∈ rs, s.2 r < 2 ^ 63 := by
    intro s hs
    rcases exists_increments cfg pid startedNs hs with ⟨extra, hpoints⟩
    rw [hzero, hpoints, hcounts s hs]
    exact cumulative_increments_iff (hmono s hs)
  constructor
  · intro h
    exact ⟨((heach _ List.mem_cons_self).1 (h _ List.mem_cons_self)).1,
      fun s hs => ((heach s hs).1 (h s hs)).2⟩
  · rintro ⟨hstart, hcounters⟩ s hs
    exact (heach s hs).2 ⟨hstart, hcounters s hs⟩

/-- Five requests at the first export, and eight ten seconds later. -/
def firstReading : Reading where
  tsNs := 1000000000000
  cb := { window := [] }
  snapshot := { requestsTotal := 5 }

def secondReading : Reading where
  tsNs := 1010000000000
  cb := { window := [] }
  snapshot := { requestsTotal := 8 }

/-- A single export is the count since its start. -/
theorem meansDeclared_first :
    MeansDeclared (exports (.fromEnv fun _ => none) 1 0 .zero [firstReading]) [firstReading] := by
  refine (meansDeclared_iff (.fromEnv fun _ => none) 1 0 [firstReading] ?_).2 ⟨?_, ?_⟩
  · exact fun _ _ => List.pairwise_singleton _ _
  · intro r hr r' hr'
    rw [List.mem_singleton.1 hr, List.mem_singleton.1 hr']
    exact Or.inl rfl
  · decide

/-- The second export sends three requests after five. -/
theorem not_meansDeclared_second :
    (∀ s ∈ cbSeries ++ shmSeries, ([firstReading, secondReading].map s.2).Pairwise (· ≤ ·)) ∧
      ¬ MeansDeclared (exports (.fromEnv fun _ => none) 1 0 .zero [firstReading, secondReading])
        [firstReading, secondReading] := by
  refine ⟨by decide, fun h => ?_⟩
  have hs : ("gateway_http_requests_total", fun r : Reading => r.snapshot.requestsTotal) ∈
      cbSeries ++ shmSeries := List.mem_append_right _ List.mem_cons_self
  rcases zero_eq_after with ⟨r₀, hzero, hcounts⟩
  rcases exists_increments (.fromEnv fun _ => none) 1 0 hs with ⟨extra, hpoints⟩
  have hvalues := (h _ hs).nondecreasing
  rw [hzero, hpoints, hcounts _ hs] at hvalues
  rw [increments_cons_asInt, increments_cons_asInt] at hvalues
  have hdown : ¬ asI64 (firstReading.snapshot.requestsTotal - 0) ≤
      asI64 (secondReading.snapshot.requestsTotal - firstReading.snapshot.requestsTotal) := by decide
  exact hdown ((List.pairwise_cons.1 hvalues).1 _ List.mem_cons_self)

/-! ## What they mean -/

theorem asI64_of_lt {n : Nat} (h : n < 2 ^ 63) : asI64 n = n := by
  have hsub := (asI64_sub_eq_iff (Nat.zero_le n)).2 ⟨rfl, h⟩
  rwa [Nat.sub_zero] at hsub

/-- The values are increments: up to each export they add up to the whole count. -/
theorem sum_increments (extra : Attributes) (hmono : (before :: (rs ++ [r]).map counter).Pairwise (· ≤ ·))
    (hlt : counter r < 2 ^ 63) :
    ((increments extra counter before (rs ++ [r])).map SumPoint.asInt).sum = counter r - before := by
  induction rs generalizing before with
  | nil =>
      have hle : before ≤ counter r := (List.pairwise_cons.1 hmono).1 _ (by simp)
      rw [List.nil_append, increments_cons_asInt, List.sum_cons, increments, List.map_nil, List.sum_nil,
        asI64_of_lt (by omega)]
      omega
  | cons r' rs ih =>
      rw [List.cons_append] at hmono
      rcases List.pairwise_cons.1 hmono with ⟨hfirst, hrest⟩
      have hle : before ≤ counter r' := hfirst _ (by simp)
      have hlast : counter r' ≤ counter r := (List.pairwise_cons.1 hrest).1 _ (by simp)
      rw [List.cons_append, increments_cons_asInt, List.sum_cons, ih hrest, asI64_of_lt (by omega)]
      omega

/-- A receiver that adds up what it is sent for a counter has the counter. -/
theorem sum_exports (hs : s ∈ cbSeries ++ shmSeries)
    (hmono : ((rs ++ [r]).map s.2).Pairwise (· ≤ ·)) (hlt : s.2 r < 2 ^ 63) :
    (((exports cfg pid startedNs .zero (rs ++ [r])).flatMap (cumulativePoints s.1)).map
      SumPoint.asInt).sum = s.2 r := by
  rcases zero_eq_after with ⟨r₀, hzero, hcounts⟩
  rcases exists_increments cfg pid startedNs hs with ⟨extra, hpoints⟩
  rw [hzero, hpoints, hcounts s hs]
  have hfromZero : (0 :: (rs ++ [r]).map s.2).Pairwise (· ≤ ·) :=
    List.pairwise_cons.2 ⟨fun _ _ => Nat.zero_le _, hmono⟩
  rw [sum_increments extra hfromZero hlt]
  exact Int.sub_zero _

end Otlp
end GatewayEdge
