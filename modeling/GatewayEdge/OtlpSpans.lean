import GatewayEdge.Foundation.Numeral
import GatewayEdge.OtlpTraces
import Mathlib.Data.LawfulXor.Basic

/-!
# OtlpSpans — the ids of the spans

A worker numbers its spans, and the number is in the trace id behind the process id.  The span id has both in
its sixteen digits, one laid over the other.
-/

namespace GatewayEdge
namespace Otlp

open Foundation
open RedisCb (CircuitState CbConfig)

variable {cfg : CbConfig} {pid : UInt32} {startedNs : ℕ} {lastState : CircuitState} {tsNs : ℕ} {s : Exporter}
  {es : List Event}

/-! ## Ids -/

/-- All the spans that have been made. -/
def Exporter.made (s : Exporter) : List Span := s.traceDocs.flatten ++ s.spans

/-- The spans of a run are numbered from zero. -/
theorem made_of_run
    (hrun : run (Exporter.step cfg pid startedNs) (Exporter.start pid lastState tsNs) es = some s) :
    ∃ taken : List SpanEvent, (∀ ev ∈ taken, ev ∈ recorded es) ∧ s.made = taken.mapIdx (makeSpan pid) ∧
      s.localCounter = taken.length := by
  rcases simulate_level hrun with ⟨fs, c, hchannel, hc, hoffered, -⟩
  have hordered := LossyQueue.ordered_run hchannel
  refine ⟨c.accepted.take c.taken, ?_, ?_, ?_⟩
  · intro ev hev
    rw [← hoffered]
    exact hordered.accepted.subset (List.mem_of_mem_take hev)
  · unfold Exporter.made
    rw [← hc.sent, ← hc.batch, hordered.taken]
  · rw [← hc.taken, List.length_take, Nat.min_eq_left hordered.inRange]

theorem traceId_inj {pid pid' : UInt32} {m n : ℕ} (hm : m < 2 ^ 64) (hn : n < 2 ^ 64)
    (h : traceId pid m = traceId pid' n) : pid = pid' ∧ m = n := by
  have htext := String.ofList_injective h
  rcases List.append_inj htext (by simp) with ⟨hpid, hrest⟩
  rcases List.append_inj hrest (by simp) with ⟨hcounter, -⟩
  exact ⟨UInt32.toNat_inj.1 (toHex_inj pid.toNat_lt pid'.toNat_lt hpid), toHex_inj hm hn hcounter⟩

theorem spanNumber_lt (pid : UInt32) {n : ℕ} (hn : n < 2 ^ 64) : (pid.toNat <<< 16) ^^^ n < 16 ^ 16 := by
  refine Nat.xor_lt_two_pow (n := 64) ?_ hn
  rw [Nat.shiftLeft_eq]
  have hpid := pid.toNat_lt
  omega

theorem spanId_inj {pid pid' : UInt32} {m n : ℕ} (hm : m < 2 ^ 64) (hn : n < 2 ^ 64)
    (h : spanId pid m = spanId pid' n) : (pid.toNat <<< 16) ^^^ m = (pid'.toNat <<< 16) ^^^ n :=
  toHex_inj (spanNumber_lt pid hm) (spanNumber_lt pid' hn) (String.ofList_injective h)

/-- Below 2^16 the number does not reach the bits of the process id. -/
theorem pid_of_spanNumber (pid : UInt32) {n : ℕ} (hn : n < 2 ^ 16) :
    ((pid.toNat <<< 16) ^^^ n) / 2 ^ 16 = pid.toNat := by
  rw [Nat.xor_div_two_pow, Nat.div_eq_of_lt hn, Nat.xor_zero, Nat.shiftLeft_eq,
    Nat.mul_div_cancel _ (by decide)]

/-- A list numbered from zero repeats nothing that tells its numbers apart. -/
theorem nodup_mapIdx {α β γ : Type*} {f : ℕ → α → β} {g : β → γ} {as : List α}
    (h : ∀ i j a b, i < as.length → j < as.length → g (f i a) = g (f j b) → i = j) :
    ((as.mapIdx f).map g).Nodup := by
  refine List.pairwise_iff_getElem.2 fun i j hi hj hij heq => ?_
  simp only [List.length_map, List.length_mapIdx] at hi hj
  simp only [List.getElem_map, List.getElem_mapIdx] at heq
  exact Nat.ne_of_lt hij (h i j _ _ hi hj heq)

theorem makeSpan_ids {count : ℕ} (hcount : count < 2 ^ 64) (pid : UInt32) (ev : SpanEvent) :
    (makeSpan pid count ev).traceId = traceId pid count ∧ (makeSpan pid count ev).spanId = spanId pid count := by
  unfold makeSpan
  rw [Nat.mod_eq_of_lt hcount]
  exact ⟨rfl, rfl⟩

theorem mem_mapIdx {α β : Type*} {f : ℕ → α → β} {as : List α} {b : β} (h : b ∈ as.mapIdx f) :
    ∃ i a, i < as.length ∧ a ∈ as ∧ b = f i a := by
  rcases List.mem_mapIdx.1 h with ⟨i, hi, rfl⟩
  exact ⟨i, as[i], hi, List.getElem_mem hi, rfl⟩

/-- The spans that a worker makes have ids of their own.  So have those of two workers, the trace ids without
end and the span ids as long as neither has made more than 65536 spans. -/
theorem ids_are_unique {pid' : UInt32} {cfg' : CbConfig} {startedNs' tsNs' : ℕ} {lastState' : CircuitState}
    {s' : Exporter} {es' : List Event}
    (hrun : run (Exporter.step cfg pid startedNs) (Exporter.start pid lastState tsNs) es = some s)
    (hrun' : run (Exporter.step cfg' pid' startedNs') (Exporter.start pid' lastState' tsNs') es' = some s')
    (hfew : s.localCounter ≤ 2 ^ 64) (hfew' : s'.localCounter ≤ 2 ^ 64) :
    (s.made.map Span.traceId).Nodup ∧ (s.made.map Span.spanId).Nodup ∧
    (pid ≠ pid' → ∀ a ∈ s.made, ∀ b ∈ s'.made, a.traceId ≠ b.traceId ∧
      (s.localCounter ≤ 2 ^ 16 → s'.localCounter ≤ 2 ^ 16 → a.spanId ≠ b.spanId)) := by
  rcases made_of_run hrun with ⟨taken, -, hmade, hcount⟩
  rcases made_of_run hrun' with ⟨taken', -, hmade', hcount'⟩
  rw [hmade, hmade', hcount, hcount']
  rw [hcount] at hfew
  rw [hcount'] at hfew'
  refine ⟨nodup_mapIdx ?_, nodup_mapIdx ?_, ?_⟩
  · intro i j a b hi hj h
    have hi' := hi.trans_le hfew
    have hj' := hj.trans_le hfew
    rw [(makeSpan_ids hi' pid a).1, (makeSpan_ids hj' pid b).1] at h
    exact (traceId_inj hi' hj' h).2
  · -- Within a process the numbers are masked by one constant.
    intro i j a b hi hj h
    have hi' := hi.trans_le hfew
    have hj' := hj.trans_le hfew
    rw [(makeSpan_ids hi' pid a).2, (makeSpan_ids hj' pid b).2] at h
    exact (xor_right_involutive (pid.toNat <<< 16)).injective (spanId_inj hi' hj' h)
  · intro hpid a ha b hb
    rcases mem_mapIdx ha with ⟨i, ev, hi, -, rfl⟩
    rcases mem_mapIdx hb with ⟨j, ev', hj, -, rfl⟩
    have hi' := hi.trans_le hfew
    have hj' := hj.trans_le hfew'
    rw [(makeSpan_ids hi' pid ev).1, (makeSpan_ids hj' pid' ev').1, (makeSpan_ids hi' pid ev).2,
      (makeSpan_ids hj' pid' ev').2]
    refine ⟨fun h => hpid (traceId_inj hi' hj' h).1, fun hlow hlow' h => hpid ?_⟩
    -- A number below 65536 leaves the process id above it as it is.
    have hquotient := congrArg (· / 2 ^ 16) (spanId_inj hi' hj' h)
    rw [pid_of_spanNumber pid (hi.trans_le hlow), pid_of_spanNumber pid' (hj.trans_le hlow')] at hquotient
    exact UInt32.toNat_inj.1 hquotient

theorem ids_of_two_workers : ∃ s s',
    run (Exporter.step (.fromEnv fun _ => none) 7 0) (Exporter.start 7 .closed 0) oneRound = some s ∧
    run (Exporter.step (.fromEnv fun _ => none) 8 0) (Exporter.start 8 .closed 0) oneRound = some s' ∧
    (s.made.map Span.traceId).Nodup ∧ ∀ a ∈ s.made, ∀ b ∈ s'.made, a.traceId ≠ b.traceId := by
  refine ⟨_, _, rfl, rfl, ?_⟩
  have h := @ids_are_unique (.fromEnv fun _ => none) 7 0 .closed 0 _ oneRound 8 (.fromEnv fun _ => none)
    0 0 .closed _ oneRound rfl rfl (by decide) (by decide)
  exact ⟨h.1, fun a ha b hb => (h.2.2 (by decide) a ha b hb).1⟩

/-! ## Well-formed spans -/

def isLowerHex (c : Char) : Bool := ('0' ≤ c ∧ c ≤ '9') ∨ ('a' ≤ c ∧ c ≤ 'f')

theorem isLowerHex_hexDigit : ∀ d < 16, isLowerHex (hexDigit d) = true := by
  decide

theorem isLowerHex_of_mem_toHex {width n : ℕ} {c : Char} (h : c ∈ toHex width n) : isLowerHex c = true := by
  rw [toHex_eq_numeral] at h
  rcases exists_digit_of_mem_numeral (by decide) h with ⟨d, hd, rfl⟩
  exact isLowerHex_hexDigit d hd

theorem toHex_zero (width : ℕ) : toHex width 0 = List.replicate width '0' := by
  rw [toHex_eq_numeral, numeral_zero]
  rfl

/-- A numeral of zeros only is that of zero. -/
theorem toHex_zeros_iff {width n : ℕ} (hn : n < 16 ^ width) : (∀ c ∈ toHex width n, c = '0') ↔ n = 0 := by
  constructor
  · intro hzeros
    have htext : toHex width n = toHex width 0 := by
      rw [toHex_zero]
      exact List.eq_replicate_iff.2 ⟨length_toHex width n, hzeros⟩
    exact toHex_inj hn (Nat.pow_pos (by decide)) htext
  · rintro rfl c hc
    rw [toHex_zero] at hc
    exact List.eq_of_mem_replicate hc

theorem traceId_well_formed (pid : UInt32) (n : ℕ) :
    (traceId pid n).toList.length = 32 ∧ (∀ c ∈ (traceId pid n).toList, isLowerHex c = true) ∧
      ((∀ c ∈ (traceId pid n).toList, c = '0') → pid = 0) := by
  unfold traceId
  rw [String.toList_ofList]
  refine ⟨by simp, ?_, ?_⟩
  · intro c hc
    rcases List.mem_append.1 hc with hpid | hrest
    · exact isLowerHex_of_mem_toHex hpid
    · rcases List.mem_append.1 hrest with hcounter | hlow
      · exact isLowerHex_of_mem_toHex hcounter
      · exact isLowerHex_of_mem_toHex hlow
  · intro hzeros
    have hpid := (toHex_zeros_iff pid.toNat_lt).1 fun c hc => hzeros c (List.mem_append_left _ hc)
    exact UInt32.toNat_inj.1 hpid

theorem spanId_well_formed (pid : UInt32) {n : ℕ} (hn : n < 2 ^ 64) :
    (spanId pid n).toList.length = 16 ∧ (∀ c ∈ (spanId pid n).toList, isLowerHex c = true) ∧
      ((∀ c ∈ (spanId pid n).toList, c = '0') ↔ n = pid.toNat <<< 16) := by
  unfold spanId
  rw [String.toList_ofList]
  refine ⟨length_toHex _ _, fun c hc => isLowerHex_of_mem_toHex hc, ?_⟩
  rw [toHex_zeros_iff (spanNumber_lt pid hn), xor_eq_zero_iff]
  exact eq_comm

/-- Every span has a trace id and a span id of hexadecimal digits, as many as there must be.  A trace id is
never all zeros; the span id is for the one span whose number is the shifted process id.  The span ends when
its request was recorded, and lasts as long as the request did. -/
theorem spans_well_formed
    (hrun : run (Exporter.step cfg pid startedNs) (Exporter.start pid lastState tsNs) es = some s)
    (hpid : pid ≠ 0) (hfew : s.localCounter ≤ 2 ^ 64) {i : ℕ} {span : Span} (hspan : s.made[i]? = some span) :
    (span.traceId.toList.length = 32 ∧ (∀ c ∈ span.traceId.toList, isLowerHex c = true) ∧
      ∃ c ∈ span.traceId.toList, c ≠ '0') ∧
    (span.spanId.toList.length = 16 ∧ (∀ c ∈ span.spanId.toList, isLowerHex c = true) ∧
      ((∀ c ∈ span.spanId.toList, c = '0') ↔ i = pid.toNat <<< 16)) ∧
    ∃ status latencyUs endNs, Event.record status latencyUs endNs ∈ es ∧
      span.statusCode = status ∧ span.durationUs = latencyUs ∧ span.endTimeUnixNano = endNs ∧
      span.startTimeUnixNano = endNs - latencyUs * 1000 ∧ (span.code = 2 ↔ 500 ≤ status) := by
  rcases made_of_run hrun with ⟨taken, hrecorded, hmade, hcount⟩
  rw [hmade, List.getElem?_mapIdx] at hspan
  rcases Option.map_eq_some_iff.1 hspan with ⟨ev, hev, rfl⟩
  have hi : i < 2 ^ 64 := by
    rw [hcount] at hfew
    exact (List.getElem?_eq_some_iff.1 hev).1.trans_le hfew
  rw [(makeSpan_ids hi pid ev).1, (makeSpan_ids hi pid ev).2]
  rcases traceId_well_formed pid i with ⟨hlength, hhex, hzeros⟩
  refine ⟨⟨hlength, hhex, ?_⟩, spanId_well_formed pid hi, ?_⟩
  · by_contra hnone
    refine hpid (hzeros fun c hc => ?_)
    by_contra hne
    exact hnone ⟨c, hc, hne⟩
  · rcases List.mem_flatMap.1 (hrecorded ev (List.mem_of_getElem? hev)) with ⟨e, he, hev⟩
    cases e with
    | record status latencyUs endNs =>
        cases List.mem_singleton.1 hev
        refine ⟨status, latencyUs, endNs, he, rfl, rfl, rfl, rfl, ?_⟩
        by_cases hserver : 500 ≤ status
        · simp [makeSpan, spanEvent, hserver]
        · simp [makeSpan, spanEvent, hserver]
    | wake reading curState => cases hev
    | recv => cases hev

theorem spans_of_one_round : ∃ s,
    run (Exporter.step (.fromEnv fun _ => none) 7 0) (Exporter.start 7 .closed 0) oneRound = some s ∧
    ∃ span, s.made[1]? = some span ∧ span.traceId.toList.length = 32 ∧ span.spanId.toList.length = 16 := by
  refine ⟨_, rfl, _, rfl, ?_⟩
  have h := @spans_well_formed (.fromEnv fun _ => none) 7 0 .closed 0 _ oneRound rfl (by decide) (by decide)
    1 _ rfl
  exact ⟨h.1.1, h.2.1.1⟩

end Otlp
end GatewayEdge
