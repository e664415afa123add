import GatewayEdge.Foundation.Exposition
import GatewayEdge.Foundation.Numeral
import GatewayEdge.OtlpExport
import GatewayEdge.ProbeLoop

/-!
# MetricsPage — what the node shows to Prometheus

`prometheusText` is the page as the source composes it, from the values that it has loaded.  Nearly all of it
is one metric with one sample; besides there are the latency histogram and the flags of the upstreams, whose
addresses stand in labels.  The page is the rendering of well-formed families, so a scraper that reads the
format gets back every value, whatever the addresses are.
-/

namespace GatewayEdge
namespace MetricsPage

open Foundation
open Foundation.Exposition (Kind Series Sample Family Line IsName IsText IsValue)

/-! ## What the page is made of -/

/-- The values loaded for one page. -/
structure Readings where
  telemetry : Telemetry.Metrics
  inFlight : Int
  globalState : Nat
  wafBlocksTotal : Nat
  cacheHits : Nat
  cacheMisses : Nat
  rlRedisSyncsOk : Nat
  rlRedisSyncsErr : Nat
  rlSyncThreadRestarts : Nat
  rlRedisEnabled : Bool
  cbConfig : RedisCb.CbConfig
  cb : RedisCb.CircuitBreaker
  nowMs : Nat
  snapshotSyncOk : Nat
  snapshotSyncErr : Nat
  snapshotGeneration : Nat
  snapshotAgeSecs : Nat
  snapshotRevoked : Nat
  snapshotTvFloors : Nat
  /-- The config in force, the registry of addresses, their slots and the two counters of probes. -/
  prober : Health.Prober
  sentinelLevel : Nat
  sentinelTransitions : Nat
  quotaChecks : Nat
  quotaRejected : Nat
  quotaBorrowed : Nat

/-- `is_config_ready`. -/
def isConfigReady (cfg : GatewayConfig) : Bool := cfg.version != "v0" && !cfg.routes.isEmpty

/-- `{:.4}` of a float. -/
def fixed4 : F64 → String
  | .nan => "NaN"
  | .inf negative => if negative then "-inf" else "inf"
  | .num q =>
    let n := F64.nearestNat (q.num.natAbs * 10000) q.den
    (if q < 0 then "-" else "") ++ toString (n / 10000) ++ "." ++
      String.ofList (numeral Nat.digitChar 10 4 (n % 10000))

/-- A metric without labels. -/
structure Scalar where
  metric : String
  help : String
  kind : Kind
  value : String
  deriving DecidableEq, Repr

/-- The two comment lines in front of the samples. -/
def headingText (metric help : String) (kind : Kind) : String :=
  "# HELP " ++ metric ++ " " ++ help ++ "\n# TYPE " ++ metric ++ " " ++ kind.text ++ "\n"

def sampleText (metric value : String) : String := metric ++ " " ++ value ++ "\n"

def labelledText (metric label labelValue value : String) : String :=
  metric ++ "\x7b" ++ label ++ "=\"" ++ labelValue ++ "\"\x7d " ++ value ++ "\n"

def Scalar.text (s : Scalar) : String := headingText s.metric s.help s.kind ++ sampleText s.metric s.value

def scalarsText (scalars : List Scalar) : String := String.join (scalars.map Scalar.text)

def bit (b : Bool) : Nat := if b then 1 else 0

variable (r : Readings)

def requestScalars : List Scalar := [
  ⟨"gateway_requests_total", "Total requests processed", .counter, toString r.telemetry.requestsTotal⟩,
  ⟨"gateway_requests_401_total", "Unauthorized requests", .counter, toString r.telemetry.requests401⟩,
  ⟨"gateway_requests_429_total", "Rate-limited requests", .counter, toString r.telemetry.requests429⟩,
  ⟨"gateway_requests_5xx_total", "Server error responses", .counter, toString r.telemetry.requests5xx⟩]

/-- The bounds of the buckets with the counts. -/
def latencyBuckets : List (Nat × Nat) :=
  Telemetry.histBucketsUs.zipIdx.map fun b => (b.1, r.telemetry.latencyBuckets.getD b.2 0)

def latencyText : String :=
  headingText "gateway_latency_us" "Latency histogram in microseconds" .histogram ++
    String.join ((latencyBuckets r).map fun b =>
      labelledText "gateway_latency_us_bucket" "le" (toString b.1) (toString b.2)) ++
    labelledText "gateway_latency_us_bucket" "le" "+Inf" (toString r.telemetry.latencyUsCount) ++
    sampleText "gateway_latency_us_sum" (toString r.telemetry.latencyUsSum) ++
    sampleText "gateway_latency_us_count" (toString r.telemetry.latencyUsCount)

/-- What the window of the Redis breaker holds now. -/
def cbStats : RedisCb.WindowStats := r.cb.window.aggregate r.cbConfig.windowSecs (RedisCb.currentTs r.nowMs)

def nodeScalars : List Scalar := [
  ⟨"gateway_in_flight", "Current in-flight requests", .gauge, toString r.inFlight⟩,
  ⟨"gateway_max_concurrency", "Configured concurrency ceiling", .gauge,
    toString (Otlp.asI64 r.prober.config.globalMaxConcurrency)⟩,
  ⟨"gateway_waf_blocks_total", "Requests blocked by the WAF", .counter, toString r.wafBlocksTotal⟩,
  ⟨"gateway_config_ready", "1 when a non-default config snapshot is loaded", .gauge,
    toString (bit (isConfigReady r.prober.config))⟩,
  ⟨"gateway_cache_hits_total", "L1 cache hits", .counter, toString r.cacheHits⟩,
  ⟨"gateway_cache_misses_total", "L1 cache misses", .counter, toString r.cacheMisses⟩,
  ⟨"gateway_circuit_breaker_state", "Global CB state (0=closed,1=open,2=half-open)", .gauge,
    toString r.globalState⟩,
  ⟨"gateway_up", "Gateway process is up", .gauge, "1"⟩,
  ⟨"gateway_rate_limit_redis_syncs_total", "Successful fleet-wide RL Redis syncs", .counter,
    toString r.rlRedisSyncsOk⟩,
  ⟨"gateway_rate_limit_redis_sync_errors_total", "Failed RL Redis syncs (fail-open)", .counter,
    toString r.rlRedisSyncsErr⟩,
  ⟨"gateway_rate_limit_sync_thread_restarts_total", "Times RL sync thread restarted", .counter,
    toString r.rlSyncThreadRestarts⟩,
  ⟨"gateway_rate_limit_redis_enabled", "1 if Redis fleet sync is active", .gauge,
    toString (bit r.rlRedisEnabled)⟩,
  ⟨"redis_requests_total", "Total Redis operations attempted", .counter, toString r.cb.redisRequestsTotal⟩,
  ⟨"redis_success_total", "Successful Redis operations", .counter, toString r.cb.redisSuccessTotal⟩,
  ⟨"redis_errors_total", "Redis operation errors (excludes timeouts)", .counter,
    toString r.cb.redisErrorsTotal⟩,
  ⟨"redis_timeouts_total", "Redis operation timeouts", .counter, toString r.cb.redisTimeoutsTotal⟩,
  ⟨"redis_circuit_state", "Circuit breaker state (0=CLOSED,1=OPEN,2=HALF_OPEN)", .gauge,
    toString (Otlp.stateCode r.cb.state)⟩,
  ⟨"redis_circuit_open_total", "Times circuit transitioned to OPEN", .counter,
    toString r.cb.circuitOpenTotal⟩,
  ⟨"redis_circuit_half_open_total", "Times circuit transitioned to HALF_OPEN", .counter,
    toString r.cb.circuitHalfOpenTotal⟩,
  ⟨"redis_circuit_rejected_total",
    "Requests rejected because circuit was OPEN or concurrency limit hit", .counter,
    toString r.cb.circuitRejectedTotal⟩,
  ⟨"redis_inflight_current", "Current Redis operations in flight", .gauge, toString r.cb.inflight⟩,
  ⟨"redis_latency_p50_us", "Rolling p50 Redis latency in microseconds", .gauge,
    toString ((cbStats r).percentileUs 50)⟩,
  ⟨"redis_latency_p95_us", "Rolling p95 Redis latency in microseconds", .gauge,
    toString ((cbStats r).percentileUs 95)⟩,
  ⟨"redis_latency_p99_us", "Rolling p99 Redis latency in microseconds", .gauge,
    toString ((cbStats r).percentileUs 99)⟩,
  ⟨"redis_error_rate_rolling", "Rolling error rate (0.0-1.0)", .gauge, fixed4 (cbStats r).errorRateF64⟩]

def snapshotScalars : List Scalar := [
  ⟨"gateway_auth_snapshot_syncs_total", "Successful revocation-snapshot syncs from Redis", .counter,
    toString r.snapshotSyncOk⟩,
  ⟨"gateway_auth_snapshot_sync_errors_total", "Failed snapshot sync cycles", .counter,
    toString r.snapshotSyncErr⟩,
  ⟨"gateway_auth_snapshot_generation", "Snapshot publish generation", .gauge,
    toString r.snapshotGeneration⟩,
  ⟨"gateway_auth_snapshot_age_seconds", "Age of the local auth snapshot", .gauge,
    toString r.snapshotAgeSecs⟩,
  ⟨"gateway_auth_snapshot_revoked_entries", "Locally cached revoked-token keys", .gauge,
    toString r.snapshotRevoked⟩,
  ⟨"gateway_auth_snapshot_tv_floors", "Locally synced token-version floors", .gauge,
    toString r.snapshotTvFloors⟩]

/-- `str::replace` of one character. -/
def replaceChar (c : Char) (by' : String) (s : String) : String :=
  String.ofList (s.toList.flatMap fun d => if d = c then by'.toList else [d])

/-- `escape_label`. -/
def escapeLabel (v : String) : String :=
  replaceChar '\n' "\\n" (replaceChar '"' "\\\"" (replaceChar '\\' "\\\\" v))

/-- The loop of `prometheus_fragment`: each slot is touched, then read. -/
def upstreamsText (fxHash : String → Nat) : List String → Health.Shm → Health.Shm × String
  | [], shm => (shm, "")
  | addr :: registry, shm =>
    let h := Health.touch (shm (Health.slotOf fxHash addr))
    match upstreamsText fxHash registry (Function.update shm (Health.slotOf fxHash addr) h) with
    | (shm, rest) =>
      (shm, labelledText "gateway_active_health_up" "upstream" (escapeLabel addr) (toString h.healthy) ++ rest)

/-- `health::prometheus_fragment`. -/
def prometheusFragment (fxHash : String → Nat) (registry : List String) (shm : Health.Shm) : String :=
  headingText "gateway_active_health_up" "1 when active probes consider the upstream up" .gauge ++
    (upstreamsText fxHash registry shm).2

def probeScalars : List Scalar := [
  ⟨"gateway_active_health_checks_total", "Active health probes sent", .counter,
    toString r.prober.checksTotal⟩,
  ⟨"gateway_active_health_failures_total", "Failed active probes", .counter,
    toString r.prober.checkFailuresTotal⟩,
  ⟨"gateway_sentinel_level",
    "Adaptive defense posture (0 normal, 2 elevated, 3 guarded, 4 lockdown)", .gauge,
    toString r.sentinelLevel⟩,
  ⟨"gateway_sentinel_transitions_total", "Posture transitions since boot", .counter,
    toString r.sentinelTransitions⟩,
  ⟨"gateway_quota_checks_total", "Quota pipeline checks executed", .counter, toString r.quotaChecks⟩,
  ⟨"gateway_quota_rejected_total", "Requests rejected for daily quota", .counter,
    toString r.quotaRejected⟩,
  ⟨"gateway_quota_borrowed_total", "Requests admitted via grace borrowing (ADR-0073)", .counter,
    toString r.quotaBorrowed⟩]

/-- `prometheus_text`. -/
def prometheusText (fxHash : String → Nat) : String :=
  scalarsText (requestScalars r) ++ latencyText r ++ scalarsText (nodeScalars r) ++
    scalarsText (snapshotScalars r) ++ prometheusFragment fxHash r.prober.registry r.prober.shm ++
    scalarsText (probeScalars r)

/-- `get_metrics_string`: no C string if there is a NUL in the page. -/
def getMetricsString (fxHash : String → Nat) : Option String :=
  if '\x00' ∈ (prometheusText r fxHash).toList then none else some (prometheusText r fxHash)

/-- `M.metrics`. -/
def metricsBody (fxHash : String → Nat) : String :=
  match getMetricsString r fxHash with
  | some text => text
  | none => "gateway_up 1\n"

/-! ## The families of the page -/

def Scalar.family (s : Scalar) : Family where
  metric := s.metric
  help := s.help
  kind := s.kind
  samples := [{ series := { metric := s.metric }, value := s.value }]

def bucketSample (le : String) (count : Nat) : Sample where
  series := { metric := "gateway_latency_us_bucket", labels := [("le", le)] }
  value := toString count

def latencyFamily : Family where
  metric := "gateway_latency_us"
  help := "Latency histogram in microseconds"
  kind := .histogram
  samples := (latencyBuckets r).map (fun b => bucketSample (toString b.1) b.2) ++
    [bucketSample "+Inf" r.telemetry.latencyUsCount,
      { series := { metric := "gateway_latency_us_sum" }, value := toString r.telemetry.latencyUsSum },
      { series := { metric := "gateway_latency_us_count" }, value := toString r.telemetry.latencyUsCount }]

/-- The flag of an address, its slot being seeded if need be. -/
def upFlag (fxHash : String → Nat) (shm : Health.Shm) (addr : String) : Int :=
  (Health.touch (shm (Health.slotOf fxHash addr))).healthy

def upSample (fxHash : String → Nat) (shm : Health.Shm) (addr : String) : Sample where
  series := { metric := "gateway_active_health_up", labels := [("upstream", addr)] }
  value := toString (upFlag fxHash shm addr)

def upFamily (fxHash : String → Nat) (registry : List String) (shm : Health.Shm) : Family where
  metric := "gateway_active_health_up"
  help := "1 when active probes consider the upstream up"
  kind := .gauge
  samples := registry.map (upSample fxHash shm)

def families (fxHash : String → Nat) : List Family :=
  (requestScalars r).map Scalar.family ++ [latencyFamily r] ++ (nodeScalars r).map Scalar.family ++
    (snapshotScalars r).map Scalar.family ++ [upFamily fxHash r.prober.registry r.prober.shm] ++
    (probeScalars r).map Scalar.family

/-! ## The text is their rendering -/

theorem headingText_toList (metric help : String) (kind : Kind) :
    (headingText metric help kind).toList =
      Exposition.render [.help metric help, .type metric kind] := by
  have htype : "\n# TYPE ".toList = '\n' :: "# TYPE ".toList := by decide
  have hblank : " ".toList = [' '] := by decide
  have hline : "\n".toList = ['\n'] := by decide
  unfold headingText Exposition.render
  simp [-String.reduceToList, htype, hblank, hline, Exposition.text_help, Exposition.text_type]

theorem sampleText_toList (metric value : String) :
    (sampleText metric value).toList =
      Exposition.render [.sample { series := { metric := metric }, value := value }] := by
  simp [sampleText, Exposition.render, Exposition.text_sample, Exposition.labelsText]

/-- The label is to be escaped already. -/
theorem labelledText_toList {labelText labelValue : String}
    (hlabel : labelText.toList = Exposition.escape labelValue.toList) (metric label value : String) :
    (labelledText metric label labelText value).toList =
      Exposition.render
        [.sample { series := { metric := metric, labels := [(label, labelValue)] }, value := value }] := by
  simp [labelledText, Exposition.render, Exposition.text_sample, Exposition.labelsText,
    Exposition.labelText, hlabel]

theorem Scalar.text_toList (s : Scalar) : s.text.toList = Exposition.render s.family.lines := by
  unfold Scalar.text
  rw [String.toList_append, headingText_toList, sampleText_toList, ← Exposition.render_append]
  rfl

theorem scalarsText_toList (scalars : List Scalar) :
    (scalarsText scalars).toList = Exposition.render ((scalars.map Scalar.family).flatMap Family.lines) := by
  unfold scalarsText
  induction scalars with
  | nil => rfl
  | cons s scalars ih =>
      rw [List.map_cons, List.map_cons, List.flatMap_cons, Exposition.render_append, ← ih,
        ← s.text_toList, String.join_cons, String.toList_append]

theorem bucketLines_toList (buckets : List (Nat × Nat)) :
    (String.join (buckets.map fun b =>
      labelledText "gateway_latency_us_bucket" "le" (toString b.1) (toString b.2))).toList =
      Exposition.render (buckets.map fun b => .sample (bucketSample (toString b.1) b.2)) := by
  induction buckets with
  | nil => rfl
  | cons b buckets ih =>
      rw [List.map_cons, List.map_cons, String.join_cons, String.toList_append, ih,
        labelledText_toList (Exposition.escape_digits b.1).symm, ← Exposition.render_append]
      rfl

theorem latencyText_toList : (latencyText r).toList = Exposition.render (latencyFamily r).lines := by
  have hinf : "+Inf".toList = Exposition.escape "+Inf".toList := by decide
  unfold latencyText
  rw [String.toList_append, String.toList_append, String.toList_append, String.toList_append,
    headingText_toList, bucketLines_toList, labelledText_toList hinf, sampleText_toList, sampleText_toList,
    ← Exposition.render_append, ← Exposition.render_append, ← Exposition.render_append,
    ← Exposition.render_append]
  congr 1

/-- Replacing one character after the other escapes them all. -/
theorem escapeLabel_toList (v : String) : (escapeLabel v).toList = Exposition.escape v.toList := by
  unfold escapeLabel replaceChar Exposition.escape
  simp only [String.toList_ofList, List.flatMap_assoc]
  refine List.flatMap_congr fun c _ => ?_
  unfold Exposition.escapeChar
  by_cases hslash : c = '\\'
  · subst hslash
    decide
  · by_cases hquote : c = '"'
    · subst hquote
      decide
    · by_cases hline : c = '\n'
      · subst hline
        decide
      · simp [hslash, hquote, hline]

/-- Touching one slot changes what no slot shows. -/
theorem upFlag_touched (fxHash : String → Nat) (shm : Health.Shm) (addr a : String) :
    upFlag fxHash (Function.update shm (Health.slotOf fxHash addr)
      (Health.touch (shm (Health.slotOf fxHash addr)))) a = upFlag fxHash shm a := by
  unfold upFlag
  by_cases hslot : Health.slotOf fxHash a = Health.slotOf fxHash addr
  · rw [hslot, Function.update_self, Health.touch_touch]
  · rw [Function.update_of_ne hslot]

theorem upstreamsText_toList (fxHash : String → Nat) (registry : List String) (shm : Health.Shm) :
    (upstreamsText fxHash registry shm).2.toList =
      Exposition.render (registry.map fun a => .sample (upSample fxHash shm a)) := by
  induction registry generalizing shm with
  | nil => rfl
  | cons addr registry ih =>
      have hrest := ih (Function.update shm (Health.slotOf fxHash addr)
        (Health.touch (shm (Health.slotOf fxHash addr))))
      have hsamples : ∀ a, upSample fxHash (Function.update shm (Health.slotOf fxHash addr)
          (Health.touch (shm (Health.slotOf fxHash addr)))) a = upSample fxHash shm a := by
        intro a
        unfold upSample
        rw [upFlag_touched]
      simp only [hsamples] at hrest
      unfold upstreamsText
      dsimp only
      rw [String.toList_append, hrest, labelledText_toList (escapeLabel_toList addr),
        ← Exposition.render_append]
      rfl

theorem prometheusFragment_toList (fxHash : String → Nat) (registry : List String) (shm : Health.Shm) :
    (prometheusFragment fxHash registry shm).toList =
      Exposition.render (upFamily fxHash registry shm).lines := by
  unfold prometheusFragment
  rw [String.toList_append, headingText_toList, upstreamsText_toList, ← Exposition.render_append]
  congr 1
  simp [upFamily, Family.lines, Function.comp_def]

theorem prometheusText_toList (fxHash : String → Nat) :
    (prometheusText r fxHash).toList = Exposition.render ((families r fxHash).flatMap Family.lines) := by
  unfold prometheusText families
  simp only [String.toList_append, List.flatMap_append, Exposition.render_append, scalarsText_toList,
    latencyText_toList, prometheusFragment_toList, List.flatMap_singleton]

/-! ## The families are well formed -/

theorem isDigit_digitChar : ∀ d < 10, (Nat.digitChar d).isDigit = true := by
  decide

theorem isValue_fixed4 (x : F64) : IsValue (fixed4 x) := by
  have hdot : IsValue "." := by decide
  have hdigits : ∀ n, IsValue (String.ofList (numeral Nat.digitChar 10 4 n)) := by
    intro n
    have hchars : ∀ c ∈ numeral Nat.digitChar 10 4 n, c.isDigit = true := by
      intro c hc
      rcases exists_digit_of_mem_numeral (by decide) hc with ⟨d, hd, rfl⟩
      exact isDigit_digitChar d hd
    unfold IsValue
    rw [String.toList_ofList]
    refine ⟨?_, fun c hc => Exposition.lt_toNat_of_isDigit (hchars c hc)⟩
    intro hnil
    have hlen := congrArg List.length hnil
    simp at hlen
  cases x with
  | nan => decide
  | inf negative => cases negative <;> decide
  | num q =>
      unfold fixed4
      dsimp only
      split_ifs
      · exact ((IsValue.append (by decide) (Exposition.isValue_toString _)).append hdot).append (hdigits _)
      · rw [String.empty_append]
        exact ((Exposition.isValue_toString _).append hdot).append (hdigits _)

/-- What a scalar has besides its value. -/
def Scalar.heading (s : Scalar) : String × String × Kind := (s.metric, s.help, s.kind)

def HeadingOk (h : String × String × Kind) : Prop :=
  IsName h.1 ∧ IsText h.2.1 ∧ h.2.2 ≠ .histogram

instance (h : String × String × Kind) : Decidable (HeadingOk h) :=
  inferInstanceAs (Decidable (_ ∧ _ ∧ _))

theorem Scalar.names_family {s : Scalar} (hheading : HeadingOk s.heading) : s.family.names = [s.metric] :=
  if_neg hheading.2.2

theorem Scalar.family_wellFormed {s : Scalar} (hheading : HeadingOk s.heading) (hvalue : IsValue s.value) :
    s.family.WellFormed where
  metric := hheading.1
  help := hheading.2.1
  samples := by
    intro t ht
    rw [List.mem_singleton.1 ht]
    exact ⟨hheading.1, fun l hl => absurd hl List.not_mem_nil, hvalue⟩
  named := by
    intro t ht
    rw [List.mem_singleton.1 ht, names_family hheading]
    exact List.mem_singleton_self _
  distinct := List.nodup_singleton _

/-- All the scalars of the page. -/
def allScalars : List Scalar :=
  requestScalars r ++ nodeScalars r ++ snapshotScalars r ++ probeScalars r

/-- A node that has just started. -/
def freshReadings : Readings where
  telemetry := {}
  inFlight := 0
  globalState := 0
  wafBlocksTotal := 0
  cacheHits := 0
  cacheMisses := 0
  rlRedisSyncsOk := 0
  rlRedisSyncsErr := 0
  rlSyncThreadRestarts := 0
  rlRedisEnabled := true
  cbConfig := RedisCb.CbConfig.fromEnv fun _ => none
  cb := { window := [] }
  nowMs := 0
  snapshotSyncOk := 0
  snapshotSyncErr := 0
  snapshotGeneration := 0
  snapshotAgeSecs := 0
  snapshotRevoked := 0
  snapshotTvFloors := 0
  prober := { shm := fun _ => {} }
  sentinelLevel := 0
  sentinelTransitions := 0
  quotaChecks := 0
  quotaRejected := 0
  quotaBorrowed := 0

/-- Only the values depend on what has been loaded. -/
theorem allScalars_heading :
    (allScalars r).map Scalar.heading = (allScalars freshReadings).map Scalar.heading := by
  simp only [allScalars, requestScalars, nodeScalars, snapshotScalars, probeScalars, List.map_append,
    List.map_cons, List.map_nil, Scalar.heading]

theorem headingOk_fresh : ∀ h ∈ (allScalars freshReadings).map Scalar.heading, HeadingOk h := by
  decide +kernel

theorem headingOk_of_mem {s : Scalar} (hs : s ∈ allScalars r) : HeadingOk s.heading :=
  headingOk_fresh _ (allScalars_heading r ▸ List.mem_map.2 ⟨s, hs, rfl⟩)

theorem isValue_of_mem : ∀ s ∈ allScalars r, IsValue s.value := by
  have hup : IsValue "1" := by decide
  simp only [allScalars, requestScalars, nodeScalars, snapshotScalars, probeScalars, List.cons_append,
    List.nil_append, List.forall_mem_cons, Exposition.isValue_toString, Exposition.isValue_toString_int, isValue_fixed4, hup,
    true_and]
  exact fun s hs => absurd hs List.not_mem_nil

theorem names_nodup (fxHash : String → Nat) : ((families r fxHash).flatMap Family.names).Nodup := by
  simp [families, requestScalars, nodeScalars, snapshotScalars, probeScalars, Scalar.family,
    latencyFamily, upFamily, Family.names]

/-- The series of the histogram do not depend on the counts. -/
def latencySeries : List Series :=
  Telemetry.histBucketsUs.map (fun bound => ⟨"gateway_latency_us_bucket", [("le", toString bound)]⟩) ++
    [⟨"gateway_latency_us_bucket", [("le", "+Inf")]⟩, ⟨"gateway_latency_us_sum", []⟩,
      ⟨"gateway_latency_us_count", []⟩]

theorem latencyFamily_series : (latencyFamily r).samples.map Sample.series = latencySeries := by
  have hbounds : (latencyBuckets r).map Prod.fst = Telemetry.histBucketsUs := by
    unfold latencyBuckets
    rw [List.map_map]
    exact List.zipIdx_map_fst 0 _
  unfold latencyFamily latencySeries
  rw [List.map_append, List.map_map, ← hbounds, List.map_map]
  rfl

theorem latencySeries_ok : latencySeries.Nodup ∧ ∀ series ∈ latencySeries,
    series.metric ∈ ["gateway_latency_us_bucket", "gateway_latency_us_sum", "gateway_latency_us_count"] ∧
      IsName series.metric ∧ ∀ l ∈ series.labels, IsName l.1 := by
  decide +kernel

theorem latencyFamily_wellFormed : (latencyFamily r).WellFormed := by
  have hseries : ∀ s ∈ (latencyFamily r).samples, s.series ∈ latencySeries := fun s hs =>
    latencyFamily_series r ▸ List.mem_map.2 ⟨s, hs, rfl⟩
  have hmetric : IsName "gateway_latency_us" := by decide +kernel
  have hhelp : IsText "Latency histogram in microseconds" := by decide +kernel
  refine ⟨hmetric, hhelp, ?_, ?_, ?_⟩
  · intro s hs
    refine ⟨(latencySeries_ok.2 _ (hseries s hs)).2.1, (latencySeries_ok.2 _ (hseries s hs)).2.2, ?_⟩
    rcases List.mem_append.1 hs with hs | hs
    · rcases List.mem_map.1 hs with ⟨b, -, rfl⟩
      exact Exposition.isValue_toString _
    · simp only [List.mem_cons, List.not_mem_nil, or_false] at hs
      rcases hs with rfl | rfl | rfl <;> exact Exposition.isValue_toString _
  · intro s hs
    exact (latencySeries_ok.2 _ (hseries s hs)).1
  · rw [latencyFamily_series]
    exact latencySeries_ok.1

theorem upFamily_wellFormed (fxHash : String → Nat) {registry : List String} (hregistry : registry.Nodup)
    (shm : Health.Shm) : (upFamily fxHash registry shm).WellFormed := by
  have hmetric : IsName "gateway_active_health_up" := by decide +kernel
  have hhelp : IsText "1 when active probes consider the upstream up" := by decide +kernel
  have hlabel : IsName "upstream" := by decide
  refine ⟨hmetric, hhelp, ?_, ?_, ?_⟩
  · intro s hs
    rcases List.mem_map.1 hs with ⟨a, -, rfl⟩
    refine ⟨hmetric, ?_, Exposition.isValue_toString_int _⟩
    intro l hl
    rw [List.mem_singleton.1 hl]
    exact hlabel
  · intro s hs
    rcases List.mem_map.1 hs with ⟨a, -, rfl⟩
    exact List.mem_singleton_self _
  · show ((registry.map (upSample fxHash shm)).map Sample.series).Nodup
    rw [List.map_map]
    refine hregistry.map fun a b hab => ?_
    simpa [upSample] using hab

theorem families_wellFormed (fxHash : String → Nat) (hregistry : r.prober.registry.Nodup) :
    Exposition.WellFormed (families r fxHash) where
  names := names_nodup r fxHash
  families := by
    have hscalar : ∀ s ∈ allScalars r, s.family.WellFormed := fun s hs =>
      Scalar.family_wellFormed (headingOk_of_mem r hs) (isValue_of_mem r s hs)
    intro f hf
    simp only [families, List.mem_append, List.mem_map, List.mem_singleton] at hf
    rcases hf with ((((⟨s, hs, rfl⟩ | rfl) | ⟨s, hs, rfl⟩) | ⟨s, hs, rfl⟩) | rfl) | ⟨s, hs, rfl⟩
    · exact hscalar s (by simp [allScalars, hs])
    · exact latencyFamily_wellFormed r
    · exact hscalar s (by simp [allScalars, hs])
    · exact hscalar s (by simp [allScalars, hs])
    · exact upFamily_wellFormed fxHash hregistry _
    · exact hscalar s (by simp [allScalars, hs])

/-! ## What a scraper reads -/

/-! ## What a scraper reads -/

/-- The lines a scraper reads. -/
def page (fxHash : String → Nat) : List Line := (families r fxHash).flatMap Family.lines

/-- Every value that has been loaded is on the page. -/
structure Shows (fxHash : String → Nat) (lines : List Line) : Prop where
  scalars : ∀ s ∈ allScalars r, Exposition.valueOf lines ⟨s.metric, []⟩ = some s.value
  buckets : ∀ b ∈ latencyBuckets r,
    Exposition.valueOf lines ⟨"gateway_latency_us_bucket", [("le", toString b.1)]⟩ = some (toString b.2)
  infinite : Exposition.valueOf lines ⟨"gateway_latency_us_bucket", [("le", "+Inf")]⟩ =
    some (toString r.telemetry.latencyUsCount)
  sum : Exposition.valueOf lines ⟨"gateway_latency_us_sum", []⟩ = some (toString r.telemetry.latencyUsSum)
  count : Exposition.valueOf lines ⟨"gateway_latency_us_count", []⟩ =
    some (toString r.telemetry.latencyUsCount)
  upstreams : ∀ addr ∈ r.prober.registry,
    Exposition.valueOf lines ⟨"gateway_active_health_up", [("upstream", addr)]⟩ =
      some (toString (upFlag fxHash r.prober.shm addr))

theorem mem_families_samples_of_scalar (fxHash : String → Nat) {s : Scalar} (hs : s ∈ allScalars r) :
    (⟨⟨s.metric, []⟩, s.value⟩ : Sample) ∈ (families r fxHash).flatMap Family.samples := by
  refine List.mem_flatMap.2 ⟨s.family, ?_, List.mem_singleton_self _⟩
  simp only [allScalars, List.mem_append] at hs
  simp only [families, List.mem_append, List.mem_map]
  rcases hs with ((hs | hs) | hs) | hs
  · exact Or.inl (Or.inl (Or.inl (Or.inl (Or.inl ⟨s, hs, rfl⟩))))
  · exact Or.inl (Or.inl (Or.inl (Or.inr ⟨s, hs, rfl⟩)))
  · exact Or.inl (Or.inl (Or.inr ⟨s, hs, rfl⟩))
  · exact Or.inr ⟨s, hs, rfl⟩

theorem upSample_mem_families_samples (fxHash : String → Nat) {addr : String}
    (haddr : addr ∈ r.prober.registry) :
    upSample fxHash r.prober.shm addr ∈ (families r fxHash).flatMap Family.samples := by
  have hfamily : upFamily fxHash r.prober.registry r.prober.shm ∈ families r fxHash := by simp [families]
  exact List.mem_flatMap.2 ⟨_, hfamily, List.mem_map.2 ⟨addr, haddr, rfl⟩⟩

theorem shows_page (fxHash : String → Nat) (h : Exposition.WellFormed (families r fxHash)) :
    Shows r fxHash (page r fxHash) := by
  have hlatency : ∀ s ∈ (latencyFamily r).samples, Exposition.valueOf (page r fxHash) s.series = some s.value :=
    fun s hs => h.valueOf (List.mem_flatMap.2 ⟨latencyFamily r, by simp [families], hs⟩)
  refine ⟨?_, ?_, ?_, ?_, ?_, ?_⟩
  · exact fun s hs => h.valueOf (mem_families_samples_of_scalar r fxHash hs)
  · exact fun b hb => hlatency _ (List.mem_append.2 (Or.inl (List.mem_map.2 ⟨b, hb, rfl⟩)))
  · exact hlatency (bucketSample "+Inf" _) (List.mem_append.2 (Or.inr List.mem_cons_self))
  · exact hlatency ⟨⟨"gateway_latency_us_sum", []⟩, _⟩ (by simp [latencyFamily])
  · exact hlatency ⟨⟨"gateway_latency_us_count", []⟩, _⟩ (by simp [latencyFamily])
  · exact fun addr haddr => h.valueOf (upSample_mem_families_samples r fxHash haddr)

/-- A NUL on the page comes from an address. -/
theorem nul_mem_prometheusText (fxHash : String → Nat) (h : Exposition.WellFormed (families r fxHash)) :
    '\x00' ∈ (prometheusText r fxHash).toList ↔ ∃ addr ∈ r.prober.registry, '\x00' ∈ addr.toList := by
  have hlabels : ∀ s ∈ (latencyFamily r).samples, ∀ p ∈ s.series.labels, '\x00' ∉ p.2.toList := by
    have hall : ∀ series ∈ latencySeries, ∀ p ∈ series.labels, '\x00' ∉ p.2.toList := by decide +kernel
    exact fun s hs => hall _ (latencyFamily_series r ▸ List.mem_map.2 ⟨s, hs, rfl⟩)
  rw [prometheusText_toList, h.mem_render_iff (by decide) (by decide)]
  constructor
  · rintro ⟨s, hs, p, hp, hnul⟩
    rcases List.mem_flatMap.1 hs with ⟨f, hf, hs⟩
    simp only [families, List.mem_append, List.mem_map, List.mem_singleton] at hf
    have hscalar : ∀ t : Scalar, s ∈ t.family.samples → False := by
      intro t ht
      rw [List.mem_singleton.1 ht] at hp
      exact absurd hp List.not_mem_nil
    rcases hf with ((((⟨t, -, rfl⟩ | rfl) | ⟨t, -, rfl⟩) | ⟨t, -, rfl⟩) | rfl) | ⟨t, -, rfl⟩
    · exact (hscalar t hs).elim
    · exact absurd hnul (hlabels s hs p hp)
    · exact (hscalar t hs).elim
    · exact (hscalar t hs).elim
    · rcases List.mem_map.1 hs with ⟨addr, haddr, rfl⟩
      rw [List.mem_singleton.1 hp] at hnul
      exact ⟨addr, haddr, hnul⟩
    · exact (hscalar t hs).elim
  · rintro ⟨addr, haddr, hnul⟩
    exact ⟨_, upSample_mem_families_samples r fxHash haddr, ("upstream", addr),
      List.mem_singleton_self _, hnul⟩

/-- In every state the prober reaches, by any reloads and cycles, the page is well formed and a scraper reads
back every value that was loaded, and the flag of every registered address under the address itself, whatever
characters it has.  Lua hands the page out exactly if no registered address has a NUL in it; otherwise all it
shows is `gateway_up`. -/
theorem page_reads_back (fxHash : String → Nat) (shm : Health.Shm) (es : List Health.ProbeEvent) (r : Readings)
    (hrun : run (Health.proberStep fxHash) { shm := shm } es = some r.prober) :
    Exposition.WellFormed (families r fxHash) ∧
      Exposition.read (prometheusText r fxHash).toList = some (page r fxHash) ∧
      Shows r fxHash (page r fxHash) ∧
      ((∀ addr ∈ r.prober.registry, '\x00' ∉ addr.toList) →
        metricsBody r fxHash = prometheusText r fxHash) ∧
      ((∃ addr ∈ r.prober.registry, '\x00' ∈ addr.toList) →
        Exposition.read (metricsBody r fxHash).toList = some [.sample ⟨⟨"gateway_up", []⟩, "1"⟩]) := by
  have hregistry : r.prober.registry.Nodup :=
    invariant_run (I := fun p : Health.Prober => p.registry.Nodup) Health.nodup_step List.nodup_nil hrun
  have hwell := families_wellFormed r fxHash hregistry
  have hnul := nul_mem_prometheusText r fxHash hwell
  refine ⟨hwell, ?_, shows_page r fxHash hwell, ?_, ?_⟩
  · rw [prometheusText_toList]
    exact hwell.read_render
  · intro hclean
    have hfree : '\x00' ∉ (prometheusText r fxHash).toList := by
      rw [hnul]
      rintro ⟨addr, haddr, hmem⟩
      exact hclean addr haddr hmem
    unfold metricsBody getMetricsString
    rw [if_neg hfree]
  · intro hdirty
    unfold metricsBody getMetricsString
    rw [if_pos (hnul.2 hdirty)]
    decide +kernel

/-- After one failed probe of an address with a quote in it. -/
def quotedReadings : Readings :=
  { freshReadings with
    prober :=
      Health.cycle (fun _ => 0) { unhealthyThreshold := 1 }
        { fetch := fun _ => .failed, clockMs := fun _ => 1000 }
        { config := Health.soleUpstream "a\"b:80", shm := fun _ => {} } }

theorem quoted_upstream_down :
    Exposition.valueOf (page quotedReadings fun _ => 0)
      ⟨"gateway_active_health_up", [("upstream", "a\"b:80")]⟩ = some "0" := by
  have hpage := page_reads_back (fun _ => 0) (fun _ => {})
    [.reload (Health.soleUpstream "a\"b:80"), .cycle { fetch := fun _ => .failed, clockMs := fun _ => 1000 }]
    quotedReadings rfl
  exact hpage.2.2.1.upstreams "a\"b:80" (by decide +kernel)

end MetricsPage
end GatewayEdge
