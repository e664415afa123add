import GatewayEdge.Foundation.LossyQueue
import GatewayEdge.Foundation.Text
import GatewayEdge.OtlpExport

/-!
# OtlpTraces — the exporter thread of a worker

Requests push their spans into a channel of 8192 places and never wait for one.  Every ten seconds the thread
wakes up, posts the metrics, reports a change of the circuit's state, and takes at most 128 spans out of the
channel.  Requests go on pushing while it does.
-/

namespace GatewayEdge
namespace Otlp

open Foundation
open RedisCb (CircuitState CbConfig)

/-! ## Spans -/

structure SpanEvent where
  status : ℤ
  latencyUs : ℕ
  startNs : ℕ
  endNs : ℕ
  deriving DecidableEq, Repr

/-- `record_request`, at `endNs`, before the event is pushed. -/
def spanEvent (status : ℤ) (latencyUs endNs : ℕ) : SpanEvent where
  status := status
  latencyUs := latencyUs
  startNs := endNs - latencyUs * 1000
  endNs := endNs

structure Span where
  traceId : String
  spanId : String
  name : String
  kind : ℕ
  startTimeUnixNano : ℕ
  endTimeUnixNano : ℕ
  statusCode : ℤ
  durationUs : ℕ
  code : ℕ
  deriving DecidableEq, Repr

/-- `n.reverse_bits() & 0xFFFF_FFFF` of a 64-bit number. -/
def reversedLow (n : ℕ) : ℕ := (BitVec.ofNat 64 n).reverse.toNat % 2 ^ 32

def traceId (pid : UInt32) (n : ℕ) : String :=
  String.ofList (toHex 8 pid.toNat ++ (toHex 16 n ++ toHex 8 (reversedLow n)))

def spanId (pid : UInt32) (n : ℕ) : String := String.ofList (toHex 16 ((pid.toNat <<< 16) ^^^ n))

/-- `make_span`, where `LOCAL_COUNTER` has been read `count` times before. -/
def makeSpan (pid : UInt32) (count : ℕ) (ev : SpanEvent) : Span :=
  let n := count % 2 ^ 64
  { traceId := traceId pid n
    spanId := spanId pid n
    name := "gateway.request"
    kind := 2
    startTimeUnixNano := ev.startNs
    endTimeUnixNano := ev.endNs
    statusCode := ev.status
    durationUs := ev.latencyUs
    code := if 500 ≤ ev.status then 2 else 1 }

/-! ## Logs -/

def stateName : CircuitState → String
  | .closed => "CLOSED"
  | .opened => "OPEN"
  | .halfOpen => "HALF_OPEN"

structure LogRecord where
  timeUnixNano : ℕ
  severityNumber : ℕ
  severityText : String
  body : String
  attributes : Attributes
  deriving DecidableEq, Repr

/-- The record of `push_transition_log`. -/
def transitionLog (cur prev : CircuitState) (tsNs : ℕ) : LogRecord :=
  let (sevNum, sevText, msg) := match cur with
    | .closed => (9, "INFO", "[gateway-edge] redis circuit CLOSED (recovered)")
    | .opened => (13, "WARN", "[gateway-edge] redis circuit OPEN (tripped)")
    | .halfOpen => (13, "WARN", "[gateway-edge] redis circuit HALF_OPEN (probing)")
  { timeUnixNano := tsNs
    severityNumber := sevNum
    severityText := sevText
    body := msg
    attributes := [("circuit.from", stateName prev), ("circuit.to", stateName cur)] }

/-- The record of `push_startup_log`. -/
def startupLog (pid : UInt32) (tsNs : ℕ) : LogRecord where
  timeUnixNano := tsNs
  severityNumber := 9
  severityText := "INFO"
  body := "[gateway-edge] OTLP exporter started"
  attributes := pidAttr pid.toNat

/-! ## The thread and its channel -/

inductive Post
  | metrics (doc : MetricsDoc)
  | log (record : LogRecord)
  | traces (spans : List Span)
  deriving DecidableEq, Repr

structure Exporter where
  queue : List SpanEvent
  /-- Within `drain_traces`. -/
  draining : Bool
  spans : List Span
  localCounter : ℕ
  prev : Prev
  lastState : CircuitState
  posted : List Post

inductive Event
  | record (status : ℤ) (latencyUs endNs : ℕ)
  /-- The thread wakes up, and reads the circuit's state again behind the metrics. -/
  | wake (reading : Reading) (curState : CircuitState)
  /-- One turn of the loop in `drain_traces`, or what comes behind it. -/
  | recv

variable (cfg : CbConfig) (pid : UInt32) (startedNs : ℕ)

def Exporter.start (lastState : CircuitState) (tsNs : ℕ) : Exporter where
  queue := []
  draining := false
  spans := []
  localCounter := 0
  prev := .zero
  lastState := lastState
  posted := [.log (startupLog pid tsNs)]

/-- The drain is over: what has been collected is posted. -/
def Exporter.post (s : Exporter) : Exporter :=
  { s with
    draining := false
    spans := []
    posted := if s.spans = [] then s.posted else s.posted ++ [.traces s.spans] }

def Exporter.step (s : Exporter) : Event → Option Exporter
  | .record status latencyUs endNs =>
    if s.queue.length < 8192 then some { s with queue := s.queue ++ [spanEvent status latencyUs endNs] }
    else some s
  | .wake reading curState =>
    if s.draining then none
    else
      let (doc, prev) := exportMetrics cfg pid.toNat startedNs s.prev reading
      some { s with
        draining := true
        prev := prev
        lastState := curState
        posted := s.posted ++ .metrics doc ::
          if curState = s.lastState then [] else [.log (transitionLog curState s.lastState reading.tsNs)] }
  | .recv =>
    if s.draining then
      if s.spans.length < 128 then
        match s.queue with
        | ev :: rest =>
          some { s with
            queue := rest
            spans := s.spans ++ [makeSpan pid s.localCounter ev]
            localCounter := s.localCounter + 1 }
        | [] => some s.post
      else some s.post
    else none

/-! ## What has been posted -/

def Post.spans : Post → List (List Span)
  | .traces spans => [spans]
  | _ => []

def Post.logs : Post → List LogRecord
  | .log record => [record]
  | _ => []

/-- The documents of `/v1/traces`. -/
def Exporter.traceDocs (s : Exporter) : List (List Span) := s.posted.flatMap Post.spans

/-- The records of `/v1/logs`. -/
def Exporter.logs (s : Exporter) : List LogRecord := s.posted.flatMap Post.logs

def recorded (es : List Event) : List SpanEvent :=
  es.flatMap fun
    | .record status latencyUs endNs => [spanEvent status latencyUs endNs]
    | _ => []

def wakes (es : List Event) : ℕ :=
  es.countP fun
    | .wake _ _ => true
    | _ => false

/-- What is in a bucket that takes in one span a request and loses 128 whenever the thread wakes up. -/
def backlog (es : List Event) : ℕ :=
  es.foldl (fun n e => match e with
    | .record _ _ _ => n + 1
    | .wake _ _ => n - 128
    | .recv => n) 0

/-! ## The thread works the channel -/

section Simulation

variable {cfg pid startedNs} {s t : Exporter} {e : Event} {es : List Event}

/-- Everything a step can do. -/
theorem step_cases (h : s.step cfg pid startedNs e = some t) :
    (∃ status latencyUs endNs, e = .record status latencyUs endNs ∧ s.queue.length < 8192 ∧
      t = { s with queue := s.queue ++ [spanEvent status latencyUs endNs] }) ∨
    (∃ status latencyUs endNs, e = .record status latencyUs endNs ∧ 8192 ≤ s.queue.length ∧ t = s) ∨
    (∃ reading curState, e = .wake reading curState ∧ s.draining = false ∧ t = { s with
      draining := true
      prev := (exportMetrics cfg pid.toNat startedNs s.prev reading).2
      lastState := curState
      posted := s.posted ++ .metrics (exportMetrics cfg pid.toNat startedNs s.prev reading).1 ::
        if curState = s.lastState then [] else [.log (transitionLog curState s.lastState reading.tsNs)] }) ∨
    (∃ ev rest, e = .recv ∧ s.draining = true ∧ s.spans.length < 128 ∧ s.queue = ev :: rest ∧ t = { s with
      queue := rest
      spans := s.spans ++ [makeSpan pid s.localCounter ev]
      localCounter := s.localCounter + 1 }) ∨
    (e = .recv ∧ s.draining = true ∧ (128 ≤ s.spans.length ∨ s.queue = []) ∧ t = s.post) := by
  cases e with
  | record status latencyUs endNs =>
      unfold Exporter.step at h
      dsimp only at h
      split at h
      · rename_i hroom
        exact Or.inl ⟨status, latencyUs, endNs, rfl, hroom, (Option.some.inj h).symm⟩
      · rename_i hfull
        exact Or.inr (Or.inl
          ⟨status, latencyUs, endNs, rfl, Nat.le_of_not_lt hfull, (Option.some.inj h).symm⟩)
  | wake reading curState =>
      unfold Exporter.step at h
      dsimp only at h
      split at h
      · cases h
      · rename_i hidle
        exact Or.inr (Or.inr (Or.inl
          ⟨reading, curState, rfl, Bool.eq_false_iff.2 hidle, (Option.some.inj h).symm⟩))
  | recv =>
      unfold Exporter.step at h
      dsimp only at h
      split at h
      · rename_i hdraining
        split at h
        · rename_i hroom
          split at h
          · rename_i ev rest hqueue
            exact Or.inr (Or.inr (Or.inr (Or.inl
              ⟨ev, rest, rfl, hdraining, hroom, hqueue, (Option.some.inj h).symm⟩)))
          · rename_i hempty
            exact Or.inr (Or.inr (Or.inr (Or.inr
              ⟨rfl, hdraining, Or.inr hempty, (Option.some.inj h).symm⟩)))
        · rename_i hfull
          exact Or.inr (Or.inr (Or.inr (Or.inr
            ⟨rfl, hdraining, Or.inl (Nat.le_of_not_lt hfull), (Option.some.inj h).symm⟩)))
      · cases h

/-- The channel of the exporter, drained 128 spans a round. -/
abbrev Channel := LossyQueue.State SpanEvent Span

def channelStep (pid : UInt32) : Channel → LossyQueue.Event SpanEvent → Option Channel :=
  LossyQueue.step 8192 128 (makeSpan pid)

/-- One for a round that is not over yet. -/
def Exporter.openRounds (s : Exporter) : ℕ := if s.draining then 1 else 0

/-- What the channel holds, and what has been taken out of it, is what the thread says. -/
structure Refines (s : Exporter) (c : Channel) : Prop where
  queue : c.queue = s.queue
  batch : c.batch = s.spans
  sent : c.sent = s.traceDocs
  taken : c.taken = s.localCounter
  idle : s.draining = false → s.spans = []
  collected : s.spans.length ≤ 128

theorem refines_start (lastState : CircuitState) (tsNs : ℕ) :
    Refines (Exporter.start pid lastState tsNs) LossyQueue.start where
  queue := rfl
  batch := rfl
  sent := rfl
  taken := rfl
  idle _ := rfl
  collected := Nat.zero_le _

theorem traceDocs_post (s : Exporter) :
    s.post.traceDocs = if s.spans = [] then s.traceDocs else s.traceDocs ++ [s.spans] := by
  unfold Exporter.post Exporter.traceDocs
  dsimp only
  split
  · rfl
  · rw [List.flatMap_append]
    rfl

/-- What the thread does to the channel in a step. -/
def channelEvents (s : Exporter) : Event → List (LossyQueue.Event SpanEvent)
  | .record status latencyUs endNs => [.offer (spanEvent status latencyUs endNs)]
  | .wake _ _ => []
  | .recv => if s.spans.length < 128 ∧ s.queue ≠ [] then [.take] else [.finish]

theorem channelEvents_none_or_one (s : Exporter) (e : Event) :
    channelEvents s e = [] ∨ ∃ f, channelEvents s e = [f] := by
  cases e with
  | record status latencyUs endNs => exact Or.inr ⟨_, rfl⟩
  | wake reading curState => exact Or.inl rfl
  | recv =>
      unfold channelEvents
      dsimp only
      split
      · exact Or.inr ⟨_, rfl⟩
      · exact Or.inr ⟨_, rfl⟩

theorem channelEvents_take (hroom : s.spans.length < 128) (hwaiting : s.queue ≠ []) :
    channelEvents s .recv = [.take] :=
  if_pos ⟨hroom, hwaiting⟩

theorem channelEvents_finish (hover : 128 ≤ s.spans.length ∨ s.queue = []) :
    channelEvents s .recv = [.finish] := by
  refine if_neg fun hboth => ?_
  rcases hover with hfull | hempty
  · exact Nat.not_lt_of_le hfull hboth.1
  · exact hboth.2 hempty

/-- The channel follows a step of the thread or of a request. -/
theorem simulate_step {c : Channel} (hc : Refines s c) (h : s.step cfg pid startedNs e = some t) :
    ∃ d, run (channelStep pid) c (channelEvents s e) = some d ∧ Refines t d ∧
      d.offered = c.offered ++ recorded [e] ∧ d.rounds + t.openRounds = c.rounds + s.openRounds + wakes [e] := by
  rcases step_cases h with ⟨status, latencyUs, endNs, rfl, hroom, rfl⟩ |
    ⟨status, latencyUs, endNs, rfl, hfull, rfl⟩ | ⟨reading, curState, rfl, hdraining, rfl⟩ |
    ⟨ev, rest, rfl, hdraining, hroom, hqueue, rfl⟩ | ⟨rfl, hdraining, hover, rfl⟩
  · refine ⟨_, run_cons_eq_some.2 ⟨_, if_pos (hc.queue ▸ hroom), rfl⟩, ?_, rfl, rfl⟩
    exact { hc with queue := congrArg (· ++ [_]) hc.queue }
  · refine ⟨_, run_cons_eq_some.2 ⟨_, if_neg (hc.queue ▸ Nat.not_lt_of_le hfull), rfl⟩, ?_, rfl, rfl⟩
    exact { hc with }
  · -- Waking up posts the metrics and opens a round; the channel has no part in it.
    refine ⟨c, rfl, ?_, (List.append_nil _).symm, ?_⟩
    · refine { hc with sent := ?_, idle := fun hfalse => nomatch hfalse }
      rw [hc.sent]
      unfold Exporter.traceDocs
      dsimp only
      rw [List.flatMap_append]
      split
      · simp [Post.spans]
      · simp [Post.spans]
    · simp [Exporter.openRounds, hdraining, wakes]
  · -- The number of the span is the number of spans taken before it.
    have htake : channelStep pid c .take = some { c with
        queue := rest
        batch := c.batch ++ [makeSpan pid c.taken ev]
        taken := c.taken + 1 } := by
      unfold channelStep LossyQueue.step
      dsimp only
      rw [hc.queue, hqueue]
      dsimp only
      rw [if_pos (hc.batch ▸ hroom)]
    rw [channelEvents_take hroom (hqueue ▸ List.cons_ne_nil _ _)]
    refine ⟨_, run_cons_eq_some.2 ⟨_, htake, rfl⟩, ?_, (List.append_nil _).symm, rfl⟩
    exact
      { queue := rfl
        batch := by
          dsimp only
          rw [hc.batch, hc.taken]
        sent := hc.sent
        taken := congrArg (· + 1) hc.taken
        idle := fun hfalse => nomatch hdraining.symm.trans hfalse
        collected := by
          rw [List.length_append]
          exact hroom }
  · -- A round ends when it is full or nothing waits.
    have hfinish : c.batch.length = 128 ∨ c.queue = [] := by
      rw [hc.batch, hc.queue]
      exact hover.imp_left (le_antisymm hc.collected)
    rw [channelEvents_finish hover]
    refine ⟨_, run_cons_eq_some.2 ⟨_, if_pos hfinish, rfl⟩, ?_, (List.append_nil _).symm, ?_⟩
    · exact
        { queue := hc.queue
          batch := rfl
          sent := by
            dsimp only
            rw [traceDocs_post, hc.batch, hc.sent]
          taken := hc.taken
          idle := fun _ => rfl
          collected := Nat.zero_le _ }
    · simp [Exporter.openRounds, hdraining, Exporter.post, wakes]

theorem recorded_append (es fs : List Event) : recorded (es ++ fs) = recorded es ++ recorded fs :=
  List.flatMap_append

theorem wakes_append (es fs : List Event) : wakes (es ++ fs) = wakes es + wakes fs :=
  List.countP_append

/-- The channel follows the thread through a run. -/
theorem simulate {c : Channel} (hc : Refines s c) (hrun : run (Exporter.step cfg pid startedNs) s es = some t) :
    ∃ fs d, run (channelStep pid) c fs = some d ∧ Refines t d ∧ d.offered = c.offered ++ recorded es ∧
      d.rounds + t.openRounds = c.rounds + s.openRounds + wakes es := by
  induction es generalizing s c with
  | nil =>
      cases hrun
      exact ⟨[], c, rfl, hc, (List.append_nil _).symm, rfl⟩
  | cons e es ih =>
      rcases run_cons_eq_some.1 hrun with ⟨m, hm, hrest⟩
      rcases simulate_step hc hm with ⟨d, hd, hmd, hoffered, hrounds⟩
      rcases ih hmd hrest with ⟨fs, d', hd', htd', hoffered', hrounds'⟩
      refine ⟨channelEvents s e ++ fs, d', run_append_eq_some.2 ⟨d, hd, hd'⟩, htd', ?_, ?_⟩
      · rw [hoffered', hoffered, List.append_assoc, ← recorded_append]
        rfl
      · have hwakes : wakes (e :: es) = wakes [e] + wakes es := wakes_append [e] es
        omega

/-! ## The bucket -/

theorem backlog_append (es : List Event) (e : Event) : backlog (es ++ [e]) = match e with
    | .record _ _ _ => backlog es + 1
    | .wake _ _ => backlog es - 128
    | .recv => backlog es := by
  unfold backlog
  rw [List.foldl_append]
  cases e with
  | record status latencyUs endNs => rfl
  | wake reading curState => rfl
  | recv => rfl

/-- The channel's bucket leaks at the end of a round, this one at its beginning. -/
theorem level_channelEvents {before : List (LossyQueue.Event SpanEvent)}
    (hlevel : LossyQueue.level 128 before ≤ backlog es + 128 * s.openRounds)
    (h : s.step cfg pid startedNs e = some t) :
    LossyQueue.level 128 (before ++ channelEvents s e) ≤ backlog (es ++ [e]) + 128 * t.openRounds := by
  rw [backlog_append]
  rcases step_cases h with ⟨status, latencyUs, endNs, rfl, hroom, rfl⟩ |
    ⟨status, latencyUs, endNs, rfl, hfull, rfl⟩ | ⟨reading, curState, rfl, hdraining, rfl⟩ |
    ⟨ev, rest, rfl, hdraining, hroom, hqueue, rfl⟩ | ⟨rfl, hdraining, hover, rfl⟩
  · rw [channelEvents, LossyQueue.level_append_offer]
    unfold Exporter.openRounds at hlevel ⊢
    dsimp only
    omega
  · rw [channelEvents, LossyQueue.level_append_offer]
    dsimp only
    omega
  · rw [channelEvents, List.append_nil]
    unfold Exporter.openRounds at hlevel ⊢
    rw [hdraining] at hlevel
    simp only [Bool.false_eq_true, if_false, if_true] at hlevel ⊢
    omega
  · rw [channelEvents_take hroom (hqueue ▸ List.cons_ne_nil _ _), LossyQueue.level_append_take]
    exact hlevel
  · rw [channelEvents_finish hover, LossyQueue.level_append_finish]
    unfold Exporter.openRounds Exporter.post at *
    rw [hdraining] at hlevel
    simp only [Bool.false_eq_true, if_false, if_true] at hlevel ⊢
    omega

theorem openRounds_le_one (s : Exporter) : s.openRounds ≤ 1 := by
  unfold Exporter.openRounds
  split
  · exact Nat.le_refl 1
  · exact Nat.zero_le 1

/-- A channel of which the bucket of the thread's events says how much it takes. -/
theorem simulate_level {lastState : CircuitState} {tsNs : ℕ}
    (hrun : run (Exporter.step cfg pid startedNs) (Exporter.start pid lastState tsNs) es = some t) :
    ∃ fs d, run (channelStep pid) LossyQueue.start fs = some d ∧ Refines t d ∧ d.offered = recorded es ∧
      d.rounds + t.openRounds = wakes es ∧
      LossyQueue.level 128 fs ≤ backlog es + 128 * t.openRounds ∧
      ((∀ before, before <+: es → backlog before ≤ 8064) →
        ∀ before, before <+: fs → LossyQueue.level 128 before ≤ 8192) := by
  refine run_induction (Q := fun es t => ∃ fs d, run (channelStep pid) LossyQueue.start fs = some d ∧
    Refines t d ∧ d.offered = recorded es ∧ d.rounds + t.openRounds = wakes es ∧
      LossyQueue.level 128 fs ≤ backlog es + 128 * t.openRounds ∧
      ((∀ before, before <+: es → backlog before ≤ 8064) →
        ∀ before, before <+: fs → LossyQueue.level 128 before ≤ 8192)) ?_ ?_ hrun
  · refine ⟨[], LossyQueue.start, rfl, refines_start lastState tsNs, rfl, rfl, Nat.zero_le _, ?_⟩
    intro _ before hbefore
    rw [List.prefix_nil.1 hbefore]
    exact Nat.zero_le _
  · rintro es m e t - ⟨fs, d, hd, hmd, hoffered, hrounds, hlevel, hbefore⟩ h
    rcases simulate_step hmd h with ⟨d', hd', htd', hoffered', hrounds'⟩
    have hnext := level_channelEvents hlevel h
    refine ⟨fs ++ channelEvents m e, d', run_append_eq_some.2 ⟨d, hd, hd'⟩, htd', ?_, ?_, hnext, ?_⟩
    · rw [hoffered', hoffered, ← recorded_append]
    · rw [hrounds', hrounds, ← wakes_append]
    · intro hes before hprefix
      have hopen := openRounds_le_one t
      have hbound := hes (es ++ [e]) (List.prefix_refl _)
      have hold := hbefore fun before' h' => hes before' (h'.trans (List.prefix_append _ _))
      -- A step is one event of the channel at most, so the bucket is seen after every event.
      rcases channelEvents_none_or_one m e with hnone | ⟨f, hone⟩
      · rw [hnone, List.append_nil] at hprefix
        exact hold before hprefix
      · rw [hone] at hprefix hnext
        rcases List.prefix_concat_iff.1 hprefix with rfl | hin
        · omega
        · exact hold before hin

end Simulation

/-! ## What becomes of the spans -/

variable {cfg : CbConfig} {pid : UInt32} {startedNs : ℕ} {lastState : CircuitState} {tsNs : ℕ}
  {s t : Exporter} {es fs : List Event}

/-- In every interleaving of requests and exporter the spans posted are those of the requests, in the order
in which the requests were recorded and with consecutive numbers, some requests left out; a document has
between one and 128 of them, and there is at most one for each time the thread has woken up.  No request is
left out while a bucket that loses 128 spans a wake-up never holds more than 8064. -/
theorem spans_in_order
    (hrun : run (Exporter.step cfg pid startedNs) (Exporter.start pid lastState tsNs) es = some s) :
    (∃ taken, (taken ++ s.queue).Sublist (recorded es) ∧
      s.traceDocs.flatten ++ s.spans = taken.mapIdx (makeSpan pid) ∧
      ((∀ before, before <+: es → backlog before ≤ 8064) → taken ++ s.queue = recorded es)) ∧
    (∀ doc ∈ s.traceDocs, doc ≠ [] ∧ doc.length ≤ 128) ∧
    s.traceDocs.length ≤ wakes es := by
  rcases simulate_level hrun with ⟨fs, c, hchannel, hc, hoffered, hrounds, -, hlevel⟩
  have hordered := LossyQueue.ordered_run hchannel
  have hsplit : c.accepted.take c.taken ++ c.queue = c.accepted := by
    rw [hordered.waiting, List.take_append_drop]
  refine ⟨⟨c.accepted.take c.taken, ?_, ?_, ?_⟩, ?_, ?_⟩
  · rw [← hc.queue, hsplit, ← hoffered]
    exact hordered.accepted
  · rw [← hc.sent, ← hc.batch, hordered.taken]
  · intro hes
    rw [← hc.queue, hsplit, ← hoffered]
    exact LossyQueue.nothing_dropped hchannel (hlevel hes)
  · rw [← hc.sent]
    exact hordered.sent
  · rw [← hc.sent]
    exact hordered.rounds.trans (Nat.le.intro hrounds)

def wakeUp : Event := .wake { tsNs := 9000000, cb := { window := [] }, snapshot := {} } .closed

/-- A request is recorded in the midst of the thread's work. -/
def oneRound : List Event :=
  [.record 200 300 5000000, wakeUp, .recv, .record 503 1000 9500000, .recv, .recv]

theorem spans_in_one_round : ∃ s,
    run (Exporter.step (.fromEnv fun _ => none) 7 0) (Exporter.start 7 .closed 0) oneRound = some s ∧
    s.traceDocs.length ≤ 1 ∧ s.traceDocs.flatten.map Span.code = [1, 2] :=
  ⟨_, rfl, (@spans_in_order (.fromEnv fun _ => none) 7 0 .closed 0 _ oneRound rfl).2.2, rfl⟩

/-- Whatever waits for the thread at some moment has been posted once the thread has woken up 65 times
more, however many requests are recorded in the meantime. -/
theorem posted_within_65_wakes
    (hrun₀ : run (Exporter.step cfg pid startedNs) (Exporter.start pid lastState tsNs) es = some s)
    (hrun : run (Exporter.step cfg pid startedNs) s fs = some t) (hwakes : 65 ≤ wakes fs) :
    s.traceDocs.flatten ++ s.spans ++
      s.queue.mapIdx (fun i ev => makeSpan pid (s.localCounter + i) ev) <+: t.traceDocs.flatten := by
  rcases simulate_level hrun₀ with ⟨gs, c, hchannel₀, hc, -⟩
  rcases simulate hc hrun with ⟨gs', d, hchannel, hd, -, hrounds⟩
  have hordered := LossyQueue.ordered_run hchannel₀
  have htaken : c.taken = (c.accepted.take c.taken).length := by
    rw [List.length_take, Nat.min_eq_left hordered.inRange]
  have hall : s.traceDocs.flatten ++ s.spans ++
      s.queue.mapIdx (fun i ev => makeSpan pid (s.localCounter + i) ev) =
        c.accepted.mapIdx (makeSpan pid) := by
    conv_rhs => rw [← List.take_append_drop c.taken c.accepted, List.mapIdx_append, ← hordered.taken,
      ← hordered.waiting, ← htaken, hc.sent, hc.batch, hc.queue, hc.taken]
    simp only [Nat.add_comm]
  rw [hall, ← hd.sent]
  refine LossyQueue.sent_after hchannel₀ hchannel ?_
  have hqueue := hordered.queue
  have hbatch := hordered.batch
  have hopen := openRounds_le_one t
  rw [hc.batch] at *
  unfold Exporter.openRounds at hrounds hopen
  cases hdraining : s.draining with
  | true =>
      simp only [hdraining, if_true] at hrounds
      omega
  | false =>
      rw [hc.idle hdraining, List.length_nil]
      simp only [hdraining, Bool.false_eq_true, if_false] at hrounds
      omega

/-- A span waits, and the thread wakes up 65 times. -/
def manyRounds : List Event :=
  [wakeUp, .recv] ++ (List.replicate 64 [Event.recv, wakeUp]).flatten ++ [.recv]

set_option maxRecDepth 2000 in
theorem posted_within_many_rounds : ∃ s t,
    run (Exporter.step (.fromEnv fun _ => none) 7 0) (Exporter.start 7 .closed 0) [.record 200 300 5000000] = some s ∧
    run (Exporter.step (.fromEnv fun _ => none) 7 0) s manyRounds = some t ∧
    s.traceDocs.flatten ++ s.spans ++ s.queue.mapIdx (fun i ev => makeSpan 7 (s.localCounter + i) ev) <+:
      t.traceDocs.flatten :=
  ⟨_, _, rfl, rfl, @posted_within_65_wakes (.fromEnv fun _ => none) 7 0 .closed 0 _ _
    [.record 200 300 5000000] manyRounds rfl rfl (by decide)⟩

end Otlp
end GatewayEdge
