import GatewayEdge.FleetSync
import GatewayEdge.RedisCb.Session

/-!
# SyncThread — the sync threads of a fleet at one Redis server

Each worker process has a sync thread, which takes the messages of its queue one by one and has Redis count
them, under the protection of the worker's circuit breaker.  Every exchange with the server is a step of its
own, so those of the workers interleave.  A command may get its reply, get lost before it took effect, or have
its reply lost.  The server may lose its scripts at any time, or all its data.
-/

namespace GatewayEdge
namespace SyncThread

open Foundation
open RateLimit (SyncMsg FleetKey checkRateLimit runScript asU32)
open RedisCb (RedisCallOutcome CbConfig Session)

/-! ## Errors -/

/-- The kinds that `classify_redis_error` names. -/
inductive ErrorKind
  | ioError
  | responseError
  | typeError
  | execAbortError
  | busyLoadingError
  | other
  deriving DecidableEq, Repr

structure RedisError where
  kind : ErrorKind
  /-- What `to_string` gives. -/
  text : String
  deriving DecidableEq, Repr

/-- `to_string().contains(needle)`. -/
def RedisError.mentions (e : RedisError) (needle : String) : Bool :=
  decide (needle.toList <:+: e.text.toList)

/-- `classify_redis_error`. -/
def classifyRedisError (e : RedisError) : RedisCallOutcome :=
  match e.kind with
  | .ioError => if e.mentions "timed out" || e.mentions "WouldBlock" then .timeout else .redisError
  | .responseError | .typeError | .execAbortError | .busyLoadingError => .redisError
  | .other => .redisError

/-! ## Workers and server -/

/-- What a call under protection has come to. -/
abbrev Outcome := Except RedisCallOutcome ℤ

/-- How far the thread is with a message. -/
inductive Phase
  | waiting
  /-- Let through by the breaker, the connection not looked at yet. -/
  | calling (msg : SyncMsg)
  | evalsha (msg : SyncMsg)
  | scriptLoad (msg : SyncMsg)
  | eval (msg : SyncMsg)
  | returned (msg : SyncMsg) (result : Outcome)
  deriving DecidableEq

structure Worker where
  queue : List SyncMsg
  phase : Phase
  /-- `con_opt` holds a connection. -/
  connected : Bool
  /-- `SCRIPT_SHA` has been set. -/
  scriptSha : Bool
  breaker : Session
  syncsOk : ℕ
  syncsErr : ℕ
  /-- The messages that the thread has finished with, and what came of them. -/
  handled : List (SyncMsg × Outcome)
  /-- The messages that requests have had queued. -/
  queued : List SyncMsg

/-- The script has run: for the message of this worker with this number, at this time. -/
structure Execution where
  worker : ℕ
  serial : ℕ
  atMs : ℕ
  key : String
  value : ℤ
  deriving DecidableEq, Repr

structure Fleet where
  /-- The server's clock. -/
  clockMs : ℕ
  keys : String → Option FleetKey
  /-- The server has the script in its cache. -/
  loaded : Bool
  /-- The buckets of each node. -/
  shm : ℕ → ℕ → ℕ
  workers : ℕ → Worker
  /-- Latest first. -/
  log : List Execution

/-- The parameters of a run: hash, environment, breaker configuration, the node of each worker and its process
id, and the server's answer to `EVALSHA` when it does not have the script. -/
structure Setting where
  fxHash : String → ℕ
  env : EnvVars
  cfg : CbConfig
  node : ℕ → ℕ
  pid : ℕ → ℕ
  noScript : RedisError

/-- What becomes of a command. -/
inductive Fate
  | replied
  | lost (error : RedisError)
  | replyLost (error : RedisError)
  deriving DecidableEq, Repr

inductive Event
  | tick (clockMs : ℕ)
  /-- The server loses its scripts, and with them its data or not. -/
  | flush (data : Bool)
  /-- A request is counted by the worker's node. -/
  | call (worker nowSecs maxRps : ℕ) (user : Option String)
  /-- `recv_timeout` returns a message, and the breaker is asked. -/
  | receive (worker nowMs : ℕ)
  | connect (worker : ℕ) (opened : Bool)
  | command (worker : ℕ) (fate : Fate)
  /-- The call is released; the exchange of a saturating write may fail. -/
  | finish (worker nowMs latencyUs : ℕ) (exchangeLost : Bool)
  deriving DecidableEq, Repr

def redisKey (msg : SyncMsg) : String := "gateway:rl:" ++ msg.userKey

namespace Fleet

def setWorker (s : Fleet) (w : ℕ) (worker : Worker) : Fleet :=
  { s with workers := Function.update s.workers w worker }

/-- The number of the message that the worker is at. -/
def serial (s : Fleet) (w : ℕ) : ℕ := (s.workers w).handled.length

/-- The counter after the script has run for this message. -/
def counter (s : Fleet) (msg : SyncMsg) : FleetKey := runScript s.clockMs (s.keys (redisKey msg))

/-- The server runs the script for this message of the worker. -/
def execute (s : Fleet) (w : ℕ) (msg : SyncMsg) : Fleet :=
  { s with
    keys := Function.update s.keys (redisKey msg) (some (s.counter msg))
    log :=
      { worker := w
        serial := s.serial w
        atMs := s.clockMs
        key := redisKey msg
        value := (s.counter msg).count } :: s.log }

def setPhase (s : Fleet) (w : ℕ) (phase : Phase) : Fleet :=
  s.setWorker w { s.workers w with phase := phase }

/-- The thread is done with the message. -/
def done (worker : Worker) (msg : SyncMsg) (result : Outcome) (breaker : Session) : Worker :=
  { worker with
    phase := .waiting
    breaker := breaker
    handled := worker.handled ++ [(msg, result)]
    syncsOk := match result with
      | .ok _ => worker.syncsOk + 1
      | .error _ => worker.syncsOk
    syncsErr := match result with
      | .ok _ => worker.syncsErr
      | .error _ => worker.syncsErr + 1
    connected := match result with
      | .ok _ => worker.connected
      | .error outcome =>
        if outcome = .circuitOpen ∨ outcome = .concurrencyRejected then worker.connected else false }

end Fleet

/-- What `with_circuit_breaker_on` tells the breaker. -/
def releaseOutcome : Outcome → RedisCallOutcome
  | .ok _ => .success
  | .error .timeout => .timeout
  | .error .redisError => .redisError
  | .error .circuitOpen => .circuitOpen
  | .error .concurrencyRejected => .concurrencyRejected
  | .error .success => .redisError

/-- Behind a failed `EVALSHA`: load the script, or give up. -/
def afterEvalsha (msg : SyncMsg) (e : RedisError) : Phase :=
  if e.mentions "NOSCRIPT" then .scriptLoad msg else .returned msg (.error (classifyRedisError e))

variable (p : Setting)

/-- The next command of the thread, `none` if none is due. -/
def command (s : Fleet) (w : ℕ) (fate : Fate) : Option Fleet :=
  match (s.workers w).phase with
  | .evalsha msg =>
    match fate with
    | .replied =>
      if s.loaded then some ((s.execute w msg).setPhase w (.returned msg (.ok (s.counter msg).count)))
      else some (s.setPhase w (afterEvalsha msg p.noScript))
    | .lost e => some (s.setPhase w (afterEvalsha msg e))
    | .replyLost e =>
      if s.loaded then some ((s.execute w msg).setPhase w (afterEvalsha msg e))
      else some (s.setPhase w (afterEvalsha msg e))
  | .scriptLoad msg =>
    match fate with
    | .replied =>
      let worker := s.workers w
      some ({ s with loaded := true }.setWorker w { worker with scriptSha := true, phase := .eval msg })
    | .lost e => some (s.setPhase w (.returned msg (.error (classifyRedisError e))))
    | .replyLost e =>
      some ({ s with loaded := true }.setPhase w (.returned msg (.error (classifyRedisError e))))
  | .eval msg =>
    match fate with
    | .replied => some ((s.execute w msg).setPhase w (.returned msg (.ok (s.counter msg).count)))
    | .lost e => some (s.setPhase w (.returned msg (.error (classifyRedisError e))))
    | .replyLost e => some ((s.execute w msg).setPhase w (.returned msg (.error (classifyRedisError e))))
  | _ => none

/-- `recv_timeout` and the first step of `with_circuit_breaker_on`. -/
def receive (s : Fleet) (w nowMs : ℕ) : Option Fleet :=
  let worker := s.workers w
  match worker.phase, worker.queue with
  | .waiting, msg :: rest =>
    match Session.step p.cfg (p.pid w) worker.breaker (.acquire nowMs) with
    | none => none
    | some breaker =>
      match (worker.breaker.breaker.acquire p.cfg (p.pid w) nowMs).2 with
      | .ok _ => some (s.setWorker w { worker with queue := rest, breaker := breaker, phase := .calling msg })
      | .error outcome =>
        some (s.setWorker w (Fleet.done { worker with queue := rest } msg (.error outcome) breaker))
  | _, _ => none

/-- The rest of `with_circuit_breaker_on`, and what the loop does with its result. -/
def finish (s : Fleet) (w nowMs latencyUs : ℕ) (exchangeLost : Bool) : Option Fleet :=
  let worker := s.workers w
  match worker.phase, worker.breaker.outstanding with
  | .returned msg result, call :: _ =>
    match Session.step p.cfg (p.pid w) worker.breaker
        (.release nowMs call (releaseOutcome result) latencyUs) with
    | none => none
    | some breaker =>
      let node := p.node w
      let buckets : RateLimit.State := { shm := s.shm node, tx := none }
      let buckets := match result with
        | .ok fleetCount =>
          if exchangeLost then buckets else FleetSync.applySync p.fxHash msg fleetCount buckets
        | .error _ => buckets
      some { s with
        shm := Function.update s.shm node buckets.shm
        workers := Function.update s.workers w (Fleet.done worker msg result breaker) }
  | _, _ => none

def step (s : Fleet) : Event → Option Fleet
  | .tick clockMs => if s.clockMs ≤ clockMs then some { s with clockMs := clockMs } else none
  | .flush data => some { s with loaded := false, keys := if data then fun _ => none else s.keys }
  | .call w nowSecs maxRps user =>
    let worker := s.workers w
    let node := p.node w
    let r := checkRateLimit p.fxHash p.env nowSecs maxRps user
      { shm := s.shm node, tx := some worker.queue }
    let queue := r.1.tx.getD []
    some { s with
      shm := Function.update s.shm node r.1.shm
      workers := Function.update s.workers w { worker with
        queue := queue
        queued := worker.queued ++ queue.drop worker.queue.length } }
  | .receive w nowMs => receive p s w nowMs
  | .connect w opened =>
    let worker := s.workers w
    match worker.phase with
    | .calling msg =>
      if worker.connected || opened then
        some (s.setWorker w { worker with
          connected := true
          phase := if worker.scriptSha then .evalsha msg else .scriptLoad msg })
      else some (s.setPhase w (.returned msg (.error .redisError)))
    | _ => none
  | .command w fate => command p s w fate
  | .finish w nowMs latencyUs exchangeLost => finish p s w nowMs latencyUs exchangeLost

def Worker.start : Worker where
  queue := []
  phase := .waiting
  connected := false
  scriptSha := false
  breaker := Session.start p.cfg
  syncsOk := 0
  syncsErr := 0
  handled := []
  queued := []

/-- The server and the nodes as they are when the first worker starts; the counters are empty. -/
def Fleet.start (clockMs : ℕ) (loaded : Bool) (shm : ℕ → ℕ → ℕ) : Fleet where
  clockMs := clockMs
  keys := fun _ => none
  loaded := loaded
  shm := shm
  workers := fun _ => .start p
  log := []

/-! ## What a step does to a worker -/

/-- The outcomes that a failed command is given. -/
def Failed (outcome : RedisCallOutcome) : Prop := outcome = .timeout ∨ outcome = .redisError

theorem classifyRedisError_failed (e : RedisError) : Failed (classifyRedisError e) := by
  unfold classifyRedisError
  split
  · split
    · exact Or.inl rfl
    · exact Or.inr rfl
  · exact Or.inr rfl
  · exact Or.inr rfl
  · exact Or.inr rfl
  · exact Or.inr rfl
  · exact Or.inr rfl

/-- The message that the thread is at. -/
def Phase.message : Phase → List SyncMsg
  | .waiting => []
  | .calling msg => [msg]
  | .evalsha msg => [msg]
  | .scriptLoad msg => [msg]
  | .eval msg => [msg]
  | .returned msg _ => [msg]

/-- What a step does to the worker `a`, and for which message it has the script run, with what value. -/
inductive Move (p : Setting) (w : ℕ) (a : Worker) : Worker → Option (SyncMsg × ℤ) → Prop
  | queued (more : List SyncMsg) :
      Move p w a { a with queue := a.queue ++ more, queued := a.queued ++ more } none
  | letThrough (msg : SyncMsg) (rest : List SyncMsg) (nowMs : ℕ) (breaker : Session)
      (hphase : a.phase = .waiting) (hqueue : a.queue = msg :: rest)
      (hstep : Session.step p.cfg (p.pid w) a.breaker (.acquire nowMs) = some breaker)
      (hacquired : (a.breaker.breaker.acquire p.cfg (p.pid w) nowMs).2 = .ok ()) :
      Move p w a { a with queue := rest, breaker := breaker, phase := .calling msg } none
  | refused (msg : SyncMsg) (rest : List SyncMsg) (nowMs : ℕ) (breaker : Session) (outcome : RedisCallOutcome)
      (hphase : a.phase = .waiting) (hqueue : a.queue = msg :: rest)
      (hstep : Session.step p.cfg (p.pid w) a.breaker (.acquire nowMs) = some breaker)
      (hacquired : (a.breaker.breaker.acquire p.cfg (p.pid w) nowMs).2 = .error outcome) :
      Move p w a (Fleet.done { a with queue := rest } msg (.error outcome) breaker) none
  | connected (msg : SyncMsg) (hphase : a.phase = .calling msg) :
      Move p w a { a with
        connected := true
        phase := if a.scriptSha then .evalsha msg else .scriptLoad msg } none
  | unreachable (msg : SyncMsg) (hphase : a.phase = .calling msg) :
      Move p w a { a with phase := .returned msg (.error .redisError) } none
  | executed (msg : SyncMsg) (value : ℤ) (result : Outcome)
      (hphase : a.phase = .evalsha msg ∨ a.phase = .eval msg)
      (hresult : result = .ok value ∨ ∃ outcome, result = .error outcome ∧ Failed outcome) :
      Move p w a { a with phase := .returned msg result } (some (msg, value))
  | failed (msg : SyncMsg) (outcome : RedisCallOutcome)
      (hphase : a.phase = .evalsha msg ∨ a.phase = .scriptLoad msg ∨ a.phase = .eval msg)
      (hfailed : Failed outcome) : Move p w a { a with phase := .returned msg (.error outcome) } none
  | missing (msg : SyncMsg) (hphase : a.phase = .evalsha msg) :
      Move p w a { a with phase := .scriptLoad msg } none
  | loaded (msg : SyncMsg) (hphase : a.phase = .scriptLoad msg) :
      Move p w a { a with scriptSha := true, phase := .eval msg } none
  | finished (msg : SyncMsg) (result : Outcome) (nowMs latencyUs call : ℕ) (rest : List ℕ) (breaker : Session)
      (hphase : a.phase = .returned msg result) (hout : a.breaker.outstanding = call :: rest)
      (hstep : Session.step p.cfg (p.pid w) a.breaker
        (.release nowMs call (releaseOutcome result) latencyUs) = some breaker) :
      Move p w a (Fleet.done a msg result breaker) none

/-- What the server has noted of a step: nothing, or that the script has run for this message. -/
def noted (s : Fleet) (w : ℕ) : Option (SyncMsg × ℤ) → List Execution
  | none => []
  | some (msg, value) =>
    [{ worker := w, serial := s.serial w, atMs := s.clockMs, key := redisKey msg, value := value }]

/-- The step is a move of this worker. -/
structure Moves (p : Setting) (s t : Fleet) (w : ℕ) (b : Worker) (ran : Option (SyncMsg × ℤ)) : Prop where
  move : Move p w (s.workers w) b ran
  workers : t.workers = Function.update s.workers w b
  log : t.log = noted s w ran ++ s.log
  clock : t.clockMs = s.clockMs
  keys : t.keys = match ran with
    | none => s.keys
    | some (msg, _) => Function.update s.keys (redisKey msg) (some (s.counter msg))
  value : ∀ msg value, ran = some (msg, value) → value = (s.counter msg).count

/-- An error of a command that has been executed does not say that there was no script. -/
def Event.Honest : Event → Prop
  | .command _ (.replyLost error) => error.mentions "NOSCRIPT" = false
  | _ => True

variable {p}

/-- The limiter leaves what is queued in place. -/
theorem queue_of_checkRateLimit (nowSecs maxRps : ℕ) (user : Option String) (shm : ℕ → ℕ)
    (queue : List SyncMsg) : ∃ more, (checkRateLimit p.fxHash p.env nowSecs maxRps user
      { shm := shm, tx := some queue }).1.tx = some (queue ++ more) := by
  unfold checkRateLimit
  split
  · exact ⟨[], by rw [List.append_nil]⟩
  · split
    · exact ⟨[], by rw [List.append_nil]⟩
    · dsimp only
      split
      · exact ⟨[], by rw [List.append_nil]⟩
      · dsimp only
        split
        · rw [Option.map_some]
          unfold RateLimit.trySend
          split
          · exact ⟨_, rfl⟩
          · exact ⟨[], by rw [List.append_nil]⟩
        · exact ⟨[], by rw [List.append_nil]⟩

section Steps

variable {s t : Fleet} {w : ℕ} {msg : SyncMsg}

/-- A move that the server takes no notice of. -/
theorem moves_unnoted {b : Worker} (hmove : Move p w (s.workers w) b none)
    (hworkers : t.workers = Function.update s.workers w b) (hlog : t.log = s.log)
    (hclock : t.clockMs = s.clockMs) (hkeys : t.keys = s.keys) : Moves p s t w b none where
  move := hmove
  workers := hworkers
  log := hlog
  clock := hclock
  keys := hkeys
  value := by
    intro msg value h
    cases h

/-- The script has run, and the thread has its reply or an error. -/
theorem moves_executed {result : Outcome} (hphase : (s.workers w).phase = .evalsha msg ∨ (s.workers w).phase = .eval msg)
    (hresult : result = .ok (s.counter msg).count ∨ ∃ outcome, result = .error outcome ∧ Failed outcome) :
    Moves p s ((s.execute w msg).setPhase w (.returned msg result)) w
      { s.workers w with phase := .returned msg result } (some (msg, (s.counter msg).count)) where
  move := .executed msg _ result hphase hresult
  workers := rfl
  log := rfl
  clock := rfl
  keys := rfl
  value := by
    intro msg value h
    cases h
    rfl

/-- A failed `EVALSHA` that was not executed. -/
theorem moves_afterEvalsha (hphase : (s.workers w).phase = .evalsha msg) (e : RedisError) :
    Moves p s (s.setPhase w (afterEvalsha msg e)) w { s.workers w with phase := afterEvalsha msg e } none := by
  refine moves_unnoted ?_ rfl rfl rfl rfl
  unfold afterEvalsha
  split
  · exact .missing msg hphase
  · exact .failed msg _ (Or.inl hphase) (classifyRedisError_failed e)

theorem command_moves {fate : Fate} (he : (Event.command w fate).Honest) (h : command p s w fate = some t) :
    ∃ b ran, Moves p s t w b ran := by
  unfold command at h
  split at h
  · -- `EVALSHA`: the script runs where the server has it, and the reply may be lost all the same
    rename_i msg hphase
    cases fate with
    | replied =>
        dsimp only at h
        split at h
        · cases h
          exact ⟨_, _, moves_executed (Or.inl hphase) (Or.inl rfl)⟩
        · cases h
          exact ⟨_, _, moves_afterEvalsha hphase p.noScript⟩
    | lost e =>
        cases h
        exact ⟨_, _, moves_afterEvalsha hphase e⟩
    | replyLost e =>
        have hother : afterEvalsha msg e = .returned msg (.error (classifyRedisError e)) :=
          if_neg (by rw [he]; decide)
        dsimp only at h
        split at h
        · cases h
          rw [hother]
          exact ⟨_, _, moves_executed (Or.inl hphase) (Or.inr ⟨_, rfl, classifyRedisError_failed e⟩)⟩
        · cases h
          exact ⟨_, _, moves_afterEvalsha hphase e⟩
  · -- `SCRIPT LOAD` counts nothing
    rename_i msg hphase
    cases fate with
    | replied =>
        cases h
        exact ⟨_, _, moves_unnoted (.loaded msg hphase) rfl rfl rfl rfl⟩
    | lost e =>
        cases h
        exact ⟨_, _, moves_unnoted (.failed msg _ (Or.inr (Or.inl hphase)) (classifyRedisError_failed e))
          rfl rfl rfl rfl⟩
    | replyLost e =>
        cases h
        exact ⟨_, _, moves_unnoted (.failed msg _ (Or.inr (Or.inl hphase)) (classifyRedisError_failed e))
          rfl rfl rfl rfl⟩
  · -- `EVAL` brings the script along, so it runs whenever the command arrives
    rename_i msg hphase
    cases fate with
    | replied =>
        cases h
        exact ⟨_, _, moves_executed (Or.inr hphase) (Or.inl rfl)⟩
    | lost e =>
        cases h
        exact ⟨_, _, moves_unnoted (.failed msg _ (Or.inr (Or.inr hphase)) (classifyRedisError_failed e))
          rfl rfl rfl rfl⟩
    | replyLost e =>
        cases h
        exact ⟨_, _, moves_executed (Or.inr hphase) (Or.inr ⟨_, rfl, classifyRedisError_failed e⟩)⟩
  · cases h

theorem receive_moves {nowMs : ℕ} (h : receive p s w nowMs = some t) : ∃ b, Moves p s t w b none := by
  unfold receive at h
  dsimp only at h
  split at h
  · rename_i msg rest hphase hqueue
    split at h
    · cases h
    · rename_i breaker hstep
      split at h
      · rename_i hacquired
        cases h
        exact ⟨_, moves_unnoted (.letThrough msg rest nowMs breaker hphase hqueue hstep hacquired)
          rfl rfl rfl rfl⟩
      · rename_i outcome hacquired
        cases h
        exact ⟨_, moves_unnoted (.refused msg rest nowMs breaker outcome hphase hqueue hstep hacquired)
          rfl rfl rfl rfl⟩
  · cases h

theorem connect_moves {opened : Bool} (h : step p s (.connect w opened) = some t) :
    ∃ b, Moves p s t w b none := by
  unfold step at h
  dsimp only at h
  split at h
  · rename_i msg hphase
    split at h
    · cases h
      exact ⟨_, moves_unnoted (.connected msg hphase) rfl rfl rfl rfl⟩
    · cases h
      exact ⟨_, moves_unnoted (.unreachable msg hphase) rfl rfl rfl rfl⟩
  · cases h

theorem finish_moves {nowMs latencyUs : ℕ} {exchangeLost : Bool}
    (h : finish p s w nowMs latencyUs exchangeLost = some t) : ∃ b, Moves p s t w b none := by
  unfold finish at h
  dsimp only at h
  split at h
  · rename_i msg result call rest hphase hout
    split at h
    · cases h
    · rename_i breaker hstep
      cases h
      exact ⟨_, moves_unnoted (.finished msg result nowMs latencyUs call rest breaker hphase hout hstep)
        rfl rfl rfl rfl⟩
  · cases h

end Steps

/-- A worker's step changes no other worker, and lets the server run the script once at most. -/
theorem step_moves {s t : Fleet} {e : Event} (he : e.Honest) (h : step p s e = some t) :
    (∃ w b ran, Moves p s t w b ran) ∨
      (t.workers = s.workers ∧ t.log = s.log ∧ s.clockMs ≤ t.clockMs ∧
        (t.keys = s.keys ∨ t.keys = fun _ => none)) := by
  cases e with
  | tick clockMs =>
      unfold step at h
      dsimp only at h
      split at h
      · rename_i hlater
        cases h
        exact Or.inr ⟨rfl, rfl, hlater, Or.inl rfl⟩
      · cases h
  | flush data =>
      cases h
      refine Or.inr ⟨rfl, rfl, le_rfl, ?_⟩
      cases data with
      | true => exact Or.inr rfl
      | false => exact Or.inl rfl
  | call w nowSecs maxRps user =>
      rcases queue_of_checkRateLimit (p := p) nowSecs maxRps user (s.shm (p.node w)) (s.workers w).queue with
        ⟨more, hmore⟩
      cases h
      refine Or.inl ⟨w, _, none, moves_unnoted (.queued more) ?_ rfl rfl rfl⟩
      dsimp only
      rw [hmore, Option.getD_some, List.drop_left]
  | receive w nowMs =>
      rcases receive_moves h with ⟨b, hmoves⟩
      exact Or.inl ⟨w, b, none, hmoves⟩
  | connect w opened =>
      rcases connect_moves h with ⟨b, hmoves⟩
      exact Or.inl ⟨w, b, none, hmoves⟩
  | command w fate =>
      rcases command_moves he h with ⟨b, ran, hmoves⟩
      exact Or.inl ⟨w, b, ran, hmoves⟩
  | finish w nowMs latencyUs exchangeLost =>
      rcases finish_moves h with ⟨b, hmoves⟩
      exact Or.inl ⟨w, b, none, hmoves⟩

end SyncThread
end GatewayEdge
