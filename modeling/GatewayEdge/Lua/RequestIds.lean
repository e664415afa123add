import GatewayEdge.Foundation.Numeral
import GatewayEdge.Lua.Identity
import GatewayEdge.RequestNumbers

/-!
# Lua.RequestIds — which request ids a node hands out

A request gets its id from the counter of its worker, behind the backpressure check.  A request refused
there never has the buffer written, so the access phase reads back whatever an earlier request of the
worker has left in it.  A node whose requests all pass that check never hands out an id twice.
-/

namespace GatewayEdge
namespace Lua
namespace RequestIds

open Foundation
open Gateway (Platform World LetIn cStr formatRequestId writeCString processRequest
  processRequest_numbers processRequest_refused)
open Identity (WorkerState)

/-! ## The text of an id -/

/-- The id of the request that a worker process numbers `n`. -/
def requestId (pid : UInt32) (n : ℕ) : Bytes := strBytes (formatRequestId pid.toNat n)

/-- Sixteen hexadecimal digits hold the counter and eight the process id. -/
theorem requestId_inj {pid pid' : UInt32} {m n : ℕ} (hm : m < 2 ^ 64) (hn : n < 2 ^ 64)
    (h : requestId pid m = requestId pid' n) : pid = pid' ∧ m = n := by
  have htext : toHex 8 pid.toNat ++ toHex 16 m = toHex 8 pid'.toNat ++ toHex 16 n :=
    String.ofList_injective (strBytes_injective h)
  rcases List.append_inj htext (by simp) with ⟨hpid, hcounter⟩
  exact ⟨UInt32.toNat_inj.1 (toHex_inj pid.toNat_lt pid'.toNat_lt hpid), toHex_inj hm hn hcounter⟩

theorem ascii_of_mem_formatRequestId {pid n : ℕ} {c : Char}
    (h : c ∈ (formatRequestId pid n).toList) : c.toNat ≠ 0 ∧ c.toNat < 0x80 := by
  unfold formatRequestId at h
  rw [String.toList_ofList] at h
  rcases List.mem_append.1 h with h | h
  · exact ascii_of_mem_toHex h
  · exact ascii_of_mem_toHex h

@[simp] theorem length_requestId (pid : UInt32) (n : ℕ) : (requestId pid n).length = 24 := by
  unfold requestId
  rw [length_strBytes_of_ascii fun c hc => (ascii_of_mem_formatRequestId hc).2]
  simp [formatRequestId]

theorem requestId_ne_nil (pid : UInt32) (n : ℕ) : requestId pid n ≠ [] := by
  intro h
  have hlength := length_requestId pid n
  rw [h] at hlength
  cases hlength

/-- The id fits its buffer and reads back as it was written. -/
theorem cStr_of_written {pid : UInt32} {n : ℕ} {buf b : Bytes} (hsize : buf.length = reqIdLen)
    (h : writeCString (formatRequestId pid.toNat n) (some buf) = some b) : cStr b = requestId pid n := by
  have hpos : 0 < buf.length := by
    rw [hsize]
    decide
  have hfits : (requestId pid n).length ≤ buf.length - 1 := by
    rw [hsize, length_requestId]
    decide
  have hnul : (0 : UInt8) ∉ requestId pid n :=
    zero_notMem_strBytes fun hzero => (ascii_of_mem_formatRequestId hzero).1 rfl
  calc
    cStr b = cStr ((requestId pid n).take (buf.length - 1)) := Gateway.cStr_of_writeCString hpos h
    _ = cStr (requestId pid n) := by rw [List.take_of_length_le hfits]
    _ = requestId pid n := Gateway.cStr_of_no_nul hnul

/-! ## One request -/

/-- The CORS answer ends the request before the data plane is asked. -/
def AnsweredByCors (s : WorkerState) (req : ClientRequest) : Prop :=
  (applyCors s.world.worker.config req s.bufs.cors (fun _ => none)).2.2.isSome = true

instance (s : WorkerState) (req : ClientRequest) : Decidable (AnsweredByCors s req) :=
  inferInstanceAs (Decidable (_ = true))

/-- The id read back is kept in `ngx.ctx` and for the log, and `X-Request-ID` is set to it. -/
structure IdSet (r : Access) : Prop where
  ctx : r.ctx.requestId = some (cStr r.bufs.reqId)
  logged : r.vars.gatewayRequestId = cStr r.bufs.reqId
  header : r.requestHeaders "X-Request-ID" = some (cStr r.bufs.reqId)

theorem accessChecked_id (p : Platform) (req : ClientRequest) (w : World) (bufs : ScratchBuffers)
    (requestHeaders responseHeaders : Headers) :
    IdSet (accessChecked p req w bufs requestHeaders responseHeaders) := by
  unfold accessChecked
  dsimp only
  -- No header that is set later is that of the id.
  split
  · refine { ctx := rfl, logged := rfl, header := ?_ }
    dsimp only
    cases req.httpTraceparent with
    | none => rfl
    | some traceparent =>
        dsimp only
        split_ifs <;> rfl
  · refine { ctx := rfl, logged := rfl, header := ?_ }
    dsimp only
    cases req.httpTraceparent with
    | none => split_ifs <;> rfl
    | some traceparent =>
        dsimp only
        split_ifs <;> rfl

/-- The id of a request that is not answered as a preflight is what its headers carry. -/
theorem access_sets_id {p : Platform} {req : ClientRequest} {headers : Headers} {w : World}
    {bufs : ScratchBuffers} {id : Bytes}
    (h : (access p req headers w bufs).ctx.requestId = some id) :
    (access p req headers w bufs).requestHeaders "X-Request-ID" = some id ∧
      (access p req headers w bufs).vars.gatewayRequestId = id := by
  unfold access at h ⊢
  rcases hcors : applyCors w.worker.config req bufs.cors (fun _ => none) with
    ⟨cors, responseHeaders, _ | reply⟩
  · rw [hcors] at h
    have hset := accessChecked_id p req w { bufs with cors := cors } headers responseHeaders
    have hid := Option.some.inj (hset.ctx.symm.trans h)
    exact ⟨hset.header.trans (congrArg some hid), hset.logged.trans hid⟩
  · rw [hcors] at h
    cases h

/-- How a request comes by its id: it has none, it finds one in the buffer, or it is given the next. -/
theorem access_id (p : Platform) (s : WorkerState) (req : ClientRequest) (headers : Headers) :
    let r := access p req headers s.world s.bufs
    -- A preflight is answered without one.
    (AnsweredByCors s req ∧ r.ctx.requestId = none ∧ r.world = s.world ∧ r.bufs.reqId = s.bufs.reqId) ∨
    -- A request refused at the door reads the buffer as it is.
    (¬ AnsweredByCors s req ∧ ¬ LetIn p s.world ∧ r.ctx.requestId = some (cStr s.bufs.reqId) ∧
      r.bufs.reqId = s.bufs.reqId ∧ r.world.worker.pid = s.world.worker.pid ∧
      r.world.worker.requestCounter = s.world.worker.requestCounter) ∨
    -- Any other request is numbered.
    (¬ AnsweredByCors s req ∧ LetIn p s.world ∧ r.ctx.requestId = some (cStr r.bufs.reqId) ∧
      r.bufs.reqId = (writeCString (formatRequestId s.world.worker.pid
        s.world.worker.requestCounter) (some s.bufs.reqId)).getD s.bufs.reqId ∧
      r.world.worker.pid = s.world.worker.pid ∧
      r.world.worker.requestCounter = (s.world.worker.requestCounter + 1) % 2 ^ 64) := by
  dsimp only
  unfold AnsweredByCors access
  rcases applyCors s.world.worker.config req s.bufs.cors (fun _ => none) with
    ⟨cors, responseHeaders, _ | reply⟩
  · dsimp only
    unfold accessChecked
    dsimp only
    have hout : ({ s.bufs with cors := cors } : ScratchBuffers).out = s.bufs.out := rfl
    rw [hout]
    by_cases hlet : LetIn p s.world
    · have hargs : ¬((args req).authHeader = none ∨ (args req).path = none ∨
          s.bufs.out.region = none) := by
        simp [args, ScratchBuffers.out]
      have hnumbered := processRequest_numbers hlet hargs
      have hbuf := congrArg (fun n => n.2.2.getD s.bufs.reqId) hnumbered
      refine Or.inr (Or.inr ⟨Bool.false_ne_true, hlet, ?_⟩)
      -- Whether the request is admitted or rejected later on.
      split
      · exact ⟨rfl, hbuf, congrArg (·.1) hnumbered, congrArg (·.2.1) hnumbered⟩
      · exact ⟨rfl, hbuf, congrArg (·.1) hnumbered, congrArg (·.2.1) hnumbered⟩
    · have hkept := processRequest_refused hlet (args req) s.bufs.out
      have hbuf : (processRequest p s.world (args req) s.bufs.out).out.reqId.getD s.bufs.reqId =
          s.bufs.reqId := congrArg (fun n => n.2.2.getD s.bufs.reqId) hkept
      have hread := congrArg (some ∘ cStr) hbuf
      refine Or.inr (Or.inl ⟨Bool.false_ne_true, hlet, ?_⟩)
      split
      · exact ⟨hread, hbuf, congrArg (·.1) hkept, congrArg (·.2.1) hkept⟩
      · exact ⟨hread, hbuf, congrArg (·.1) hkept, congrArg (·.2.1) hkept⟩
  · exact Or.inl ⟨rfl, rfl, rfl, rfl⟩

/-! ## The workers of a node -/

/-- The live workers by process id, how many requests each has been given, and the ids read back so far. -/
structure Node where
  workers : UInt32 → WorkerState
  handled : UInt32 → ℕ
  /-- Requests refused at the door by a worker that had not let one in yet. -/
  bare : ℕ
  ids : List Bytes

/-- A worker's next request, or anything else that happens to its world in between. -/
inductive Event
  | access (pid : UInt32) (req : ClientRequest) (headers : Headers)
  | environment (pid : UInt32) (w : World)

/-- Nobody else writes the statics of a worker process. -/
def ownStatics (old w : World) : World :=
  { w with
    worker := { w.worker with
      pid := old.worker.pid
      requestCounter := old.worker.requestCounter } }

/-- A refusal at the door before the worker has numbered any request. -/
def Bare (p : Platform) (s : WorkerState) (req : ClientRequest) : Prop :=
  ¬ AnsweredByCors s req ∧ ¬ LetIn p s.world ∧ s.world.worker.requestCounter = 0

instance (p : Platform) (s : WorkerState) (req : ClientRequest) : Decidable (Bare p s req) :=
  inferInstanceAs (Decidable (_ ∧ _ ∧ _))

/-- No worker is given 2^64 requests. -/
def step (p : Platform) (s : Node) : Event → Option Node
  | .access pid req headers =>
    if s.handled pid + 1 < 2 ^ 64 then
      let worker := s.workers pid
      let r := access p req headers worker.world worker.bufs
      some
        { workers := Function.update s.workers pid { world := r.world, bufs := r.bufs }
          handled := Function.update s.handled pid (s.handled pid + 1)
          bare := if Bare p worker req then s.bare + 1 else s.bare
          ids := s.ids ++ r.ctx.requestId.toList }
    else none
  | .environment pid w =>
    let worker := s.workers pid
    some { s with
      workers := Function.update s.workers pid { worker with world := ownStatics worker.world w } }

/-- Every process has its own id, a counter at zero and fresh buffers. -/
def start (worlds : UInt32 → World) : Node where
  workers pid := Identity.start
    { worlds pid with
      worker := { (worlds pid).worker with pid := pid.toNat, requestCounter := 0 } }
  handled _ := 0
  bare := 0
  ids := []

/-- The id this request reads back has not been read back before. -/
def Fresh (p : Platform) (s : Node) : Event → Prop
  | .access pid req headers =>
    ∀ id, (access p req headers (s.workers pid).world (s.workers pid).bufs).ctx.requestId = some id →
      id ∉ s.ids
  | .environment _ _ => True

/-- The request is a preflight, or let in, or refused where there is no id yet: the node's only one that
a worker refuses before it has let one in. -/
def Numbered (p : Platform) (s : Node) : Event → Prop
  | .access pid req _ =>
    AnsweredByCors (s.workers pid) req ∨ LetIn p (s.workers pid).world ∨
      ((s.workers pid).world.worker.requestCounter = 0 ∧ s.bare = 0)
  | .environment _ _ => True

/-- A request takes its worker to what the access phase leaves, and logs the id read back. -/
theorem step_access {p : Platform} {s s' : Node} {pid : UInt32} {req : ClientRequest} {headers : Headers}
    (h : step p s (.access pid req headers) = some s') :
    let r := access p req headers (s.workers pid).world (s.workers pid).bufs
    s.handled pid + 1 < 2 ^ 64 ∧
      s' =
        { workers := Function.update s.workers pid { world := r.world, bufs := r.bufs }
          handled := Function.update s.handled pid (s.handled pid + 1)
          bare := if Bare p (s.workers pid) req then s.bare + 1 else s.bare
          ids := s.ids ++ r.ctx.requestId.toList } := by
  by_cases hroom : s.handled pid + 1 < 2 ^ 64
  · exact ⟨hroom, (Option.some.inj ((if_pos hroom).symm.trans h)).symm⟩
  · cases (if_neg hroom).symm.trans h

/-! ## Distinct ids -/

theorem nodup_append_toList {α : Type*} {xs : List α} {x : Option α} :
    (xs ++ x.toList).Nodup ↔ xs.Nodup ∧ ∀ a, x = some a → a ∉ xs := by
  cases x with
  | none => simp
  | some a =>
      rw [Option.toList_some, ← List.concat_eq_append, List.nodup_concat, and_comm]
      simp

/-- No id is logged twice exactly when each is new at its request. -/
theorem ids_nodup_iff_fresh {p : Platform} {es : List Event} {s t : Node}
    (hrun : run (step p) s es = some t) :
    t.ids.Nodup ↔ s.ids.Nodup ∧ Along (step p) (Fresh p) s es := by
  induction es generalizing s with
  | nil =>
      have hst : s = t := by simpa using hrun
      rw [hst]
      exact ⟨fun h => ⟨h, trivial⟩, And.left⟩
  | cons e es ih =>
      rcases run_cons_eq_some.1 hrun with ⟨s', hs', hrest⟩
      have hnext : s'.ids.Nodup ↔ s.ids.Nodup ∧ Fresh p s e := by
        cases e with
        | environment pid w =>
            cases hs'
            exact ⟨fun h => ⟨h, trivial⟩, And.left⟩
        | access pid req headers =>
            rw [(step_access hs').2]
            exact nodup_append_toList
      rw [ih hrest, hnext]
      constructor
      · rintro ⟨⟨hs, hfresh⟩, hlater⟩
        exact ⟨hs, hfresh, fun s'' hs'' => Option.some.inj (hs'.symm.trans hs'') ▸ hlater⟩
      · rintro ⟨hs, hfresh, hlater⟩
        exact ⟨⟨hs, hfresh⟩, hlater s' hs'⟩

/-! ## What the buffers and the log hold -/

/-- The buffer of a worker holds the id it has given last, which the log has too. -/
structure WorkerSound (pid : UInt32) (worker : WorkerState) (handled : ℕ) (ids : List Bytes) : Prop where
  process : worker.world.worker.pid = pid.toNat
  size : worker.bufs.reqId.length = reqIdLen
  counter : worker.world.worker.requestCounter ≤ handled
  room : handled < 2 ^ 64
  blank : worker.world.worker.requestCounter = 0 → cStr worker.bufs.reqId = []
  last : ∀ n, worker.world.worker.requestCounter = n + 1 →
    cStr worker.bufs.reqId = requestId pid n ∧ requestId pid n ∈ ids

/-- Besides, the log holds nothing but ids given so far, and the empty one for the bare refusals. -/
structure Sound (s : Node) : Prop where
  worker : ∀ pid, WorkerSound pid (s.workers pid) (s.handled pid) s.ids
  issued : ∀ id ∈ s.ids, id = [] ∨
    ∃ pid n, id = requestId pid n ∧ n < (s.workers pid).world.worker.requestCounter
  bare : [] ∈ s.ids ↔ 0 < s.bare

theorem cStr_fresh_reqId : cStr ScratchBuffers.fresh.reqId = [] := by decide

theorem sound_start (worlds : UInt32 → World) : Sound (start worlds) where
  worker _ :=
    { process := rfl
      size := rfl
      counter := le_rfl
      room := Nat.two_pow_pos 64
      blank := fun _ => cStr_fresh_reqId
      last := fun n h => absurd h.symm (Nat.succ_ne_zero n) }
  issued _ h := by cases h
  bare := by simp [start]

namespace WorkerSound

variable {pid : UInt32} {worker : WorkerState} {handled : ℕ} {ids : List Bytes}

/-- A longer log changes nothing for a worker. -/
theorem mono (h : WorkerSound pid worker handled ids) (more : List Bytes) :
    WorkerSound pid worker handled (ids ++ more) :=
  { h with last := fun n hn => ⟨(h.last n hn).1, List.mem_append_left _ (h.last n hn).2⟩ }

theorem counter_lt (h : WorkerSound pid worker handled ids) :
    worker.world.worker.requestCounter < 2 ^ 64 :=
  lt_of_le_of_lt h.counter h.room

/-- The buffer after a request that is numbered: of its old size, it reads back as the id. -/
theorem written (h : WorkerSound pid worker handled ids) {b : Bytes}
    (hb : b = (writeCString (formatRequestId worker.world.worker.pid
      worker.world.worker.requestCounter) (some worker.bufs.reqId)).getD worker.bufs.reqId) :
    b.length = reqIdLen ∧ cStr b = requestId pid worker.world.worker.requestCounter := by
  have hpos : 0 < worker.bufs.reqId.length := by
    rw [h.size]
    decide
  rw [h.process, Gateway.writeCString_of_pos hpos, Option.getD_some] at hb
  have hwritten := (Gateway.writeCString_of_pos
    (s := formatRequestId pid.toNat worker.world.worker.requestCounter) hpos).trans
    (congrArg some hb.symm)
  exact ⟨(Gateway.length_of_writeCString hpos hwritten).trans h.size, cStr_of_written h.size hwritten⟩

/-- A numbered request moves the counter on by one: it does not wrap around. -/
theorem counter_succ (h : WorkerSound pid worker handled ids) (hroom : handled + 1 < 2 ^ 64) :
    (worker.world.worker.requestCounter + 1) % 2 ^ 64 = worker.world.worker.requestCounter + 1 :=
  Nat.mod_eq_of_lt (lt_of_le_of_lt (Nat.succ_le_succ h.counter) hroom)

/-- A worker is sound after its next request. -/
theorem access (h : WorkerSound pid worker handled ids) (hroom : handled + 1 < 2 ^ 64) (p : Platform)
    (req : ClientRequest) (headers : Headers) :
    let r := Lua.access p req headers worker.world worker.bufs
    worker.world.worker.requestCounter ≤ r.world.worker.requestCounter ∧
      WorkerSound pid { world := r.world, bufs := r.bufs } (handled + 1)
        (ids ++ r.ctx.requestId.toList) := by
  dsimp only
  -- A request that leaves counter and buffer alone.
  have hsame : ∀ r : Access, r.bufs.reqId = worker.bufs.reqId →
      r.world.worker.pid = worker.world.worker.pid →
      r.world.worker.requestCounter = worker.world.worker.requestCounter →
      worker.world.worker.requestCounter ≤ r.world.worker.requestCounter ∧
        WorkerSound pid { world := r.world, bufs := r.bufs } (handled + 1)
          (ids ++ r.ctx.requestId.toList) := by
    intro r hbuf hpid hcounter
    have hmore := h.mono r.ctx.requestId.toList
    refine ⟨le_of_eq hcounter.symm, ?_⟩
    exact
      { process := hpid.trans h.process
        size := (congrArg List.length hbuf).trans h.size
        counter := le_trans (le_of_eq hcounter) (Nat.le_succ_of_le h.counter)
        room := hroom
        blank := fun hzero => (congrArg cStr hbuf).trans (h.blank (hcounter.symm.trans hzero))
        last := fun n hn => by
          rcases hmore.last n (hcounter.symm.trans hn) with ⟨hread, hmem⟩
          exact ⟨(congrArg cStr hbuf).trans hread, hmem⟩ }
  rcases access_id p worker req headers with
    ⟨-, -, hworld, hbuf⟩ | ⟨-, -, -, hbuf, hpid, hcounter⟩ | ⟨-, -, hid, hbuf, hpid, hcounter⟩
  -- A preflight, a refusal at the door, a numbered request.
  · exact hsame _ hbuf (by rw [hworld]) (by rw [hworld])
  · exact hsame _ hbuf hpid hcounter
  · rcases h.written hbuf with ⟨hsize, hread⟩
    rw [h.counter_succ hroom] at hcounter
    refine ⟨(Nat.le_succ _).trans_eq hcounter.symm, ?_⟩
    exact
      { process := hpid.trans h.process
        size := hsize
        counter := hcounter.trans_le (Nat.succ_le_succ h.counter)
        room := hroom
        blank := fun hzero => absurd (hcounter.symm.trans hzero) (Nat.succ_ne_zero _)
        last := fun n hn => by
          have hn' : n = worker.world.worker.requestCounter := Nat.succ.inj (hn.symm.trans hcounter)
          rw [hn', hid, hread]
          exact ⟨rfl, List.mem_append_right _ List.mem_cons_self⟩ }

/-- A request that is let in reads back the next id of its worker. -/
theorem id_of_letIn (h : WorkerSound pid worker handled ids) {p : Platform} {req : ClientRequest}
    (headers : Headers) (hcors : ¬ AnsweredByCors worker req) (hlet : LetIn p worker.world) :
    (Lua.access p req headers worker.world worker.bufs).ctx.requestId =
      some (requestId pid worker.world.worker.requestCounter) := by
  rcases access_id p worker req headers with ⟨hyes, -⟩ | ⟨-, hnot, -⟩ | ⟨-, -, hid, hbuf, -⟩
  · exact absurd hyes hcors
  · exact absurd hlet hnot
  · rw [hid, (h.written hbuf).2]

/-- A request that is refused at the door reads back the id of the last one that was let in. -/
theorem id_of_refused (h : WorkerSound pid worker handled ids) {p : Platform} {req : ClientRequest}
    (headers : Headers) (hcors : ¬ AnsweredByCors worker req) (hlet : ¬ LetIn p worker.world) {n : ℕ}
    (hcounter : worker.world.worker.requestCounter = n + 1) :
    (Lua.access p req headers worker.world worker.bufs).ctx.requestId = some (requestId pid n) := by
  rcases access_id p worker req headers with ⟨hyes, -⟩ | ⟨-, -, hid, -⟩ | ⟨-, hin, -⟩
  · exact absurd hyes hcors
  · rw [hid, (h.last n hcounter).1]
  · exact absurd hin hlet

/-- What a request of a sound worker adds to the log. -/
theorem logged (h : WorkerSound pid worker handled ids) (hroom : handled + 1 < 2 ^ 64) (p : Platform)
    (req : ClientRequest) (headers : Headers) :
    let r := Lua.access p req headers worker.world worker.bufs
    (¬ Bare p worker req ∧ r.ctx.requestId = none) ∨
    (Bare p worker req ∧ r.ctx.requestId = some []) ∨
    (¬ Bare p worker req ∧ ∃ n, r.ctx.requestId = some (requestId pid n) ∧
      n < r.world.worker.requestCounter) := by
  dsimp only
  rcases access_id p worker req headers with
    ⟨hcors, hnone, -⟩ | ⟨hcors, hlet, hid, -, -, hcounter⟩ | ⟨-, hlet, hid, hbuf, -, hcounter⟩
  · exact Or.inl ⟨fun hbare => hbare.1 hcors, hnone⟩
  · cases hn : worker.world.worker.requestCounter with
    | zero =>
        rw [h.blank hn] at hid
        exact Or.inr (Or.inl ⟨⟨hcors, hlet, hn⟩, hid⟩)
    | succ n =>
        rw [(h.last n hn).1] at hid
        have hnot : ¬ Bare p worker req := fun hbare => Nat.succ_ne_zero n (hn.symm.trans hbare.2.2)
        exact Or.inr (Or.inr ⟨hnot, n, hid, (Nat.lt_succ_self n).trans_eq (hcounter.trans hn).symm⟩)
  · rw [(h.written hbuf).2] at hid
    have hnot : ¬ Bare p worker req := fun hbare => hbare.2.1 hlet
    rw [h.counter_succ hroom] at hcounter
    exact Or.inr (Or.inr ⟨hnot, _, hid, (Nat.lt_succ_self _).trans_eq hcounter.symm⟩)

end WorkerSound

namespace Sound

variable {p : Platform} {s : Node}

/-- The id a worker would give next has not been read back yet. -/
theorem next_fresh (h : Sound s) (pid : UInt32) :
    requestId pid (s.workers pid).world.worker.requestCounter ∉ s.ids := by
  intro hmem
  rcases h.issued _ hmem with hnil | ⟨pid', n, hid, hn⟩
  · exact requestId_ne_nil _ _ hnil
  · have hbound := (h.worker pid').counter_lt
    -- An id in the log was given by a worker that has counted past it.
    rcases requestId_inj (h.worker pid).counter_lt (hn.trans hbound) hid with ⟨rfl, hcounter⟩
    exact absurd hn (hcounter ▸ lt_irrefl _)

theorem step_environment (h : Sound s) (pid : UInt32) (w : World) {s' : Node}
    (hs : step p s (.environment pid w) = some s') : Sound s' := by
  have hs' := (Option.some.inj hs).symm
  -- The statics the invariant is about stay, so every worker is as sound as it was.
  have hcounter : ∀ pid', (s'.workers pid').world.worker.requestCounter =
      (s.workers pid').world.worker.requestCounter := by
    intro pid'
    rw [hs']
    dsimp only
    by_cases hpid : pid' = pid
    · rw [hpid, Function.update_self]
      rfl
    · rw [Function.update_of_ne hpid]
  have hids : s'.ids = s.ids := by rw [hs']
  have hbare : s'.bare = s.bare := by rw [hs']
  refine { worker := ?_, issued := ?_, bare := ?_ }
  · intro pid'
    have hworker := h.worker pid'
    rw [hs']
    dsimp only
    by_cases hpid : pid' = pid
    · subst hpid
      rw [Function.update_self]
      exact
        { process := hworker.process
          size := hworker.size
          counter := hworker.counter
          room := hworker.room
          blank := hworker.blank
          last := hworker.last }
    · rw [Function.update_of_ne hpid]
      exact hworker
  · intro id hid
    rw [hids] at hid
    rcases h.issued id hid with hnil | ⟨pid', n, hn, hlt⟩
    · exact Or.inl hnil
    · exact Or.inr ⟨pid', n, hn, hlt.trans_eq (hcounter pid').symm⟩
  · rw [hids, hbare]
    exact h.bare

theorem step_request (h : Sound s) (pid : UInt32) (req : ClientRequest) (headers : Headers) {s' : Node}
    (hs : step p s (.access pid req headers) = some s') : Sound s' := by
  rcases step_access hs with ⟨hroom, hs'⟩
  rcases (h.worker pid).access hroom p req headers with ⟨hle, hworker⟩
  have hlogged := (h.worker pid).logged hroom p req headers
  have hself : s'.workers pid =
      { world := (access p req headers (s.workers pid).world (s.workers pid).bufs).world
        bufs := (access p req headers (s.workers pid).world (s.workers pid).bufs).bufs } := by
    rw [hs']
    exact Function.update_self ..
  have hmono : ∀ pid', (s.workers pid').world.worker.requestCounter ≤
      (s'.workers pid').world.worker.requestCounter := by
    intro pid'
    by_cases hpid : pid' = pid
    · rw [hpid, hself]
      exact hle
    · rw [hs']
      dsimp only
      rw [Function.update_of_ne hpid]
  refine { worker := ?_, issued := ?_, bare := ?_ }
  · intro pid'
    by_cases hpid : pid' = pid
    · rw [hpid, hself, hs']
      dsimp only
      rw [Function.update_self]
      exact hworker
    · rw [hs']
      dsimp only
      rw [Function.update_of_ne hpid, Function.update_of_ne hpid]
      exact (h.worker pid').mono _
  · intro id hid
    have hids : s'.ids = _ := congrArg Node.ids hs'
    rw [hids] at hid
    rcases List.mem_append.1 hid with hold | hnew
    · rcases h.issued id hold with hnil | ⟨pid', n, hn, hlt⟩
      · exact Or.inl hnil
      · exact Or.inr ⟨pid', n, hn, hlt.trans_le (hmono pid')⟩
    · -- The new one is none, the empty one, or one that the worker has given.
      rcases hlogged with ⟨-, hnone⟩ | ⟨-, hempty⟩ | ⟨-, n, hread, hlt⟩
      · rw [hnone] at hnew
        cases hnew
      · rw [hempty] at hnew
        exact Or.inl (List.mem_singleton.1 hnew)
      · rw [hread] at hnew
        refine Or.inr ⟨pid, n, List.mem_singleton.1 hnew, ?_⟩
        rw [hself]
        exact hlt
  · have hids : s'.ids = _ := congrArg Node.ids hs'
    have hbare : s'.bare = _ := congrArg Node.bare hs'
    rw [hids, hbare, List.mem_append, h.bare]
    rcases hlogged with ⟨hnot, hnone⟩ | ⟨hyes, hempty⟩ | ⟨hnot, n, hread, -⟩
    · rw [hnone, if_neg hnot]
      simp
    · rw [hempty, if_pos hyes]
      simp
    · rw [hread, if_neg hnot]
      simp [(requestId_ne_nil pid n).symm]

theorem of_step (s : Node) (e : Event) (s' : Node) (h : Sound s) (hs : step p s e = some s') :
    Sound s' := by
  cases e with
  | access pid req headers => exact h.step_request pid req headers hs
  | environment pid w => exact h.step_environment pid w hs

/-- In a sound state an id is new exactly for a request that is numbered, or the only one without. -/
theorem fresh_iff (h : Sound s) (e : Event) : Fresh p s e ↔ Numbered p s e := by
  cases e with
  | environment pid w => exact Iff.rfl
  | access pid req headers =>
      unfold Fresh Numbered
      dsimp only
      rcases access_id p (s.workers pid) req headers with
        ⟨hcors, hnone, -⟩ | ⟨hcors, hlet, hid, -⟩ | ⟨-, hlet, hid, hbuf, -⟩
      · rw [hnone]
        exact ⟨fun _ => Or.inl hcors, fun _ id hid => by cases hid⟩
      · rw [hid]
        -- The id is what the buffer holds: none yet, or the one given last.
        cases hcounter : (s.workers pid).world.worker.requestCounter with
        | zero =>
            rw [(h.worker pid).blank hcounter]
            constructor
            · intro hfresh
              have hbare : ¬ 0 < s.bare := fun hpos => hfresh [] rfl (h.bare.2 hpos)
              exact Or.inr (Or.inr ⟨rfl, Nat.eq_zero_of_not_pos hbare⟩)
            · rintro (hanswered | hin | ⟨-, hbare⟩) id hid'
              · exact absurd hanswered hcors
              · exact absurd hin hlet
              · rw [← Option.some.inj hid']
                intro hmem
                exact absurd (h.bare.1 hmem) (hbare ▸ Nat.lt_irrefl 0)
        | succ n =>
            rcases (h.worker pid).last n hcounter with ⟨hread, hmem⟩
            constructor
            · intro hfresh
              exact absurd hmem (hfresh _ (congrArg some hread))
            · rintro (hanswered | hin | ⟨hzero, -⟩)
              · exact absurd hanswered hcors
              · exact absurd hin hlet
              · cases hzero
      · rw [hid, ((h.worker pid).written hbuf).2]
        constructor
        · exact fun _ => Or.inr (Or.inl hlet)
        · intro _ id hid'
          exact Option.some.inj hid' ▸ h.next_fresh pid

end Sound

/-! ## Every run of a node -/

/-- Whatever the workers of a node are sent and whatever else happens to them: no two requests read back
the same id exactly if every request is a preflight, is let in, or is the only one that a worker refuses
before it has let one in. -/
theorem ids_distinct_iff_numbered (p : Platform) (worlds : UInt32 → World) (es : List Event) (t : Node)
    (hrun : run (step p) (start worlds) es = some t) :
    t.ids.Nodup ↔ Along (step p) (Numbered p) (start worlds) es := by
  have hstart : (start worlds).ids.Nodup := List.nodup_nil
  calc
    t.ids.Nodup ↔ (start worlds).ids.Nodup ∧ Along (step p) (Fresh p) (start worlds) es :=
      ids_nodup_iff_fresh hrun
    _ ↔ Along (step p) (Fresh p) (start worlds) es := and_iff_right hstart
    _ ↔ Along (step p) (Numbered p) (start worlds) es :=
      along_congr Sound.of_step (fun _ e h => h.fresh_iff e) (sound_start worlds) es

/-- A node whose workers have served nothing. -/
def sampleNode : Node := start fun _ => Gateway.sampleWorld

/-- The request `GET /a` without a token, to the worker with this process id. -/
def sampleAccess (pid : UInt32) : Event := .access pid (sampleRequest none) fun _ => none

theorem step_sampleAccess {s : Node} (pid : UInt32) (hidle : s.handled pid + 1 < 2 ^ 64) :
    ∃ s', step Gateway.samplePlatform s (sampleAccess pid) = some s' :=
  ⟨_, if_pos hidle⟩

theorem not_answered_sample (s : WorkerState) : ¬ AnsweredByCors s (sampleRequest none) :=
  Bool.false_ne_true

/-- The first requests of two workers get different ids. -/
theorem two_workers_distinct : ∃ t,
    run (step Gateway.samplePlatform) sampleNode [sampleAccess 1, sampleAccess 2] = some t ∧
      t.ids.Nodup := by
  rcases step_sampleAccess (s := sampleNode) 1 (by decide) with ⟨m, hm⟩
  have hm' := (step_access hm).2
  have hidle : m.handled 2 + 1 < 2 ^ 64 := by
    rw [hm']
    decide
  rcases step_sampleAccess _ hidle with ⟨t, ht⟩
  have hrun : run (step Gateway.samplePlatform) sampleNode [sampleAccess 1, sampleAccess 2] = some t :=
    run_cons_eq_some.2 ⟨m, hm, run_cons_eq_some.2 ⟨t, ht, rfl⟩⟩
  refine ⟨t, hrun, (ids_distinct_iff_numbered _ _ _ t hrun).2 ?_⟩
  refine ⟨Or.inr (Or.inl rfl), fun s hs => ⟨Or.inr (Or.inl ?_), fun _ _ => trivial⟩⟩
  have hsm : s = m := Option.some.inj (hs.symm.trans hm)
  rw [hsm, hm']
  rfl

/-- The global breaker of the node has opened. -/
def openWorld : World :=
  { Gateway.sampleWorld with
    shm := { Gateway.sampleWorld.shm with cb := fun _ => { state := CircuitBreaker.stateOpen } } }

theorem not_letIn_openWorld (old : World) : ¬ LetIn Gateway.samplePlatform (ownStatics old openWorld) := by
  unfold LetIn
  have hopen : (ownStatics old openWorld).globalState Gateway.samplePlatform =
      CircuitBreaker.stateOpen := rfl
  rw [hopen, Backpressure.acquire_of_open]
  exact Bool.false_ne_true

/-- A request of a worker, then the node's breaker opens: the next request is refused under the id of
the first. -/
theorem refused_request_repeats_id : ∃ t,
    run (step Gateway.samplePlatform) sampleNode
        [sampleAccess 1, .environment 1 openWorld, sampleAccess 1] = some t ∧
      t.ids = [requestId 1 0, requestId 1 0] ∧ ¬ t.ids.Nodup := by
  rcases step_sampleAccess (s := sampleNode) 1 (by decide) with ⟨m, hm⟩
  have hsound : Sound m := Sound.of_step _ _ m (sound_start _) hm
  -- The first request is let in: it is numbered 0.
  have hfirst : m.ids = [requestId 1 0] := by
    have hid := ((sound_start fun _ => Gateway.sampleWorld).worker 1).id_of_letIn
      (p := Gateway.samplePlatform) (fun _ => none) (not_answered_sample _) rfl
    rw [(step_access hm).2]
    exact congrArg Option.toList hid
  have hcounter : (m.workers 1).world.worker.requestCounter = 1 := by
    rcases access_id Gateway.samplePlatform (sampleNode.workers 1) (sampleRequest none)
      (fun _ => none) with ⟨hyes, -⟩ | ⟨-, hnot, -⟩ | ⟨-, -, -, -, -, hnext⟩
    · exact absurd hyes (not_answered_sample _)
    · exact absurd rfl hnot
    · rw [(step_access hm).2]
      exact hnext
  rcases hopened : step Gateway.samplePlatform m (.environment 1 openWorld) with _ | o
  · cases hopened
  have ho := (Option.some.inj hopened).symm
  have hworker : o.workers 1 =
      { m.workers 1 with world := ownStatics (m.workers 1).world openWorld } := by
    rw [ho]
    rfl
  -- The next one is refused and reads the same buffer.
  have hidle : o.handled 1 + 1 < 2 ^ 64 := by
    rw [ho, (step_access hm).2]
    decide
  rcases step_sampleAccess _ hidle with ⟨t, ht⟩
  have hsecond : t.ids = [requestId 1 0, requestId 1 0] := by
    have hid := ((Sound.of_step _ _ o hsound hopened).worker 1).id_of_refused
      (p := Gateway.samplePlatform) (n := 0) (fun _ => none) (not_answered_sample _)
      (by rw [hworker]; exact not_letIn_openWorld _) (by rw [hworker]; exact hcounter)
    have hids : o.ids = m.ids := by rw [ho]
    rw [(step_access ht).2]
    dsimp only
    rw [hid, hids, hfirst]
    rfl
  refine ⟨t, ?_, hsecond, ?_⟩
  · exact run_cons_eq_some.2 ⟨m, hm, run_cons_eq_some.2 ⟨o, hopened, run_cons_eq_some.2 ⟨t, ht, rfl⟩⟩⟩
  · rw [hsecond]
    intro hnodup
    exact (List.nodup_cons.1 hnodup).1 List.mem_cons_self

end RequestIds
end Lua
end GatewayEdge
