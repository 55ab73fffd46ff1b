import GraphileWorker.Batcher.Batchers
import GraphileWorker.Execution.Outcome

/-! # A run of the worker

`Worker::run` cut at its await points, with everything that runs beside it. Cron is a future
of `run` itself and never gives an error, so it only matters when it ends.
-/
namespace GraphileWorker.Lifecycle
open Foundation Batcher Execution

inductive ProcessJobError
  | releaseJob
  | getJob
  deriving DecidableEq

inductive WorkerRuntimeError
  | processJob (error : ProcessJobError)
  | workerTask
  | pgListen
  deriving DecidableEq

/-- What a worker with slots `Fin n` is built with. -/
structure RunConfig where
  /-- The queue count of the local queue configuration; direct mode without one. -/
  localQueue : Option ℕ
  hasCrontabs : Bool
  recoveryEnabled : Bool

/-- The local queues that `create_local_queues` makes. -/
def RunConfig.queueCount (cfg : RunConfig) (concurrency : ℕ) : ℕ :=
  match cfg.localQueue with
  | none => 0
  | some count => min count concurrency

inductive SlotEnd
  | ok
  | failed (error : ProcessJobError)
  | panicked
  deriving DecidableEq

def slotError : SlotEnd → Option WorkerRuntimeError
  | .ok => none
  | .failed error => some (.processJob error)
  | .panicked => some .workerTask

inductive SlotPc (C : Type)
  | unspawned
  /-- In `next_job_signal`. -/
  | waiting
  /-- Looks for a job, or is in the hooks before it. -/
  | fetching
  | handling
  | releasing (result : Except RunJobError Unit)
  /-- In a call of `complete` or `fail`. -/
  | calling (side : Side) (c : C)
  | ended (result : SlotEnd)

/-- The future of `job_runner_internal`. -/
inductive JobsPc
  | idle
  /-- In `job_signal_stream`. -/
  | opening
  /-- The loop of `dispatch_job_signals`. -/
  | dispatching
  /-- The loop after it, with the source channel closed. -/
  | draining
  /-- In `release_local_queues`. -/
  | releasing
  | done (result : Option WorkerRuntimeError)
  deriving DecidableEq

inductive RecoveryTask
  | heartbeat
  | sweep
  deriving DecidableEq

inductive RecoveryPc
  | unspawned
  | running
  | ended
  deriving DecidableEq

/-- The future of `run`. -/
inductive MainPc
  | registering
  | refused
  | starting
  | running
  /-- In `await_shutdown` of a batcher. -/
  | awaiting (side : Side)
  /-- In `BackgroundTasks::stop`, with the handles still to await. -/
  | stopping (handles : List RecoveryTask)
  | emitting
  /-- In `deregister_worker`. -/
  | deregistering
  | returned (result : Option WorkerRuntimeError)
  deriving DecidableEq

structure RunState (n : ℕ) (C : Type) where
  main : MainPc := .registering
  jobs : JobsPc := .idle
  firstError : Option WorkerRuntimeError := none
  slots : Fin n → SlotPc C := fun _ => .unspawned
  /-- The slots that `dispatch_job_signals` has not seen the end of. -/
  handles : List (Fin n) := []
  sources : Channel Unit := {}
  /-- The local queues whose `release` has returned. -/
  released : ℕ := 0
  cronDone : Bool := false
  recovery : RecoveryTask → RecoveryPc := fun _ => .unspawned
  recoveryAborted : Bool := false
  batchers : Batchers C
  /-- Whether the task slot of the batcher still has its handle. -/
  held : Side → Bool
  /-- The shutdown notifier has a permit. -/
  requested : Bool
  shutdown : Bool
  /-- The row of the worker, as the calls of this worker leave it. -/
  row : Bool

def RunState.start {n : ℕ} {C : Type} (batchers : Batchers C) (held : Side → Bool) (requested shutdown row : Bool) :
    RunState n C where
  batchers := batchers
  held := held
  requested := requested
  shutdown := shutdown
  row := row

inductive SlotEvent (C : Type)
  | shutdown
  | recv
  | nothing
  | getJobError
  | found
  /-- The job gets its result without its handler. -/
  | unhandled (result : Except RunJobError Unit)
  | handled (result : Except RunJobError Unit)
  | report (c : C)
  | send
  | persisted (ok : Bool)
  | panic

def SlotPc.isEnded {C : Type} : SlotPc C → Bool
  | .ended _ => true
  | _ => false

section
variable {n : ℕ} {C : Type}

def RunState.setSlot (s : RunState n C) (i : Fin n) (pc : SlotPc C) : RunState n C :=
  { s with slots := Function.update s.slots i pc }

/-- The last slot to end closes the source channel: every receiver is gone. -/
def RunState.endSlot (s : RunState n C) (i : Fin n) (result : SlotEnd) : RunState n C :=
  let slots := Function.update s.slots i (.ended result)
  { s with
    slots := slots
    sources := if ∀ j, (slots j).isEnded = true then s.sources.close else s.sources }

/-- The outcome of the job is with the database or not. -/
def RunState.endRelease (s : RunState n C) (i : Fin n) (ok : Bool) : RunState n C :=
  if ok then s.setSlot i .fetching else s.endSlot i (.failed .releaseJob)

def isAborted : Except RunJobError Unit → Bool
  | .error .taskAborted => true
  | _ => false

/-- The batcher that `release_job` reports to, if the worker has it. -/
def reportsTo (batchers : Batchers C) : Except RunJobError Unit → Option Side
  | .ok _ => if (batchers .completion).isSome then some .completion else none
  | .error .taskAborted => none
  | .error error =>
    if error.replacementPayload.isNone && (batchers .failure).isSome then some .failure else none

variable [DecidableEq C] (cfg : RunConfig) (hasQueue : C → Bool) (hasHooks : Bool)

def slotStep (s : RunState n C) (i : Fin n) : SlotPc C → SlotEvent C → Option (RunState n C)
  | .unspawned, _ | .ended _, _ => none
  | _, .panic => some (s.endSlot i .panicked)
  | .waiting, .shutdown =>
    if s.shutdown then some ({ s with sources := { s.sources with items := [] } }.endSlot i .ok) else none
  | .waiting, .recv =>
    match s.sources.recv with
    | none => none
    | some (ch,some _) => some ({ s with sources := ch }.setSlot i .fetching)
    | some (_,none) => some (s.endSlot i .ok)
  -- a direct slot that sees the shutdown before it fetches goes the same way
  | .fetching, .nothing => some (s.setSlot i .waiting)
  | .fetching, .getJobError => if cfg.localQueue.isNone then some (s.endSlot i (.failed .getJob)) else none
  | .fetching, .found => some (s.setSlot i .handling)
  | .fetching, .unhandled result => if isAborted result then none else some (s.setSlot i (.releasing result))
  -- a handler is given up only when the grace period after the shutdown is over
  | .handling, .handled result =>
    if isAborted result && !s.shutdown then none else some (s.setSlot i (.releasing result))
  | .releasing result, .report c => do
    let side ← reportsTo s.batchers result
    let batchers ← s.batchers.step hasQueue hasHooks side (.call c)
    some ({ s with batchers := batchers }.setSlot i (.calling side c))
  | .releasing result, .persisted ok => if (reportsTo s.batchers result).isSome then none else some (s.endRelease i ok)
  | .calling side c, .send => do
    let batchers ← s.batchers.step hasQueue hasHooks side (.send c)
    if (batchers side).any fun b => b.call c = .accepted then some ({ s with batchers := batchers }.endRelease i true)
    else some { s with batchers := batchers }
  | .calling side c, .persisted ok => do
    let batchers ← s.batchers.step hasQueue hasHooks side (.persist c ok)
    some ({ s with batchers := batchers }.endRelease i ok)
  | _, _ => none

end

inductive FanoutResult
  | opened
  | closed

/-- A full channel already has enough signals. -/
def fanoutJobSignal (capacity : ℕ) : ℕ → Channel Unit → Channel Unit × FanoutResult
  | 0, ch => (ch,.opened)
  | fanout + 1, ch =>
    match ch.send capacity () with
    | some (ch',true) => fanoutJobSignal capacity fanout ch'
    | some (_,false) => (ch,.closed)
    | none => (ch,.opened)

inductive JobsEvent (n : ℕ)
  | opened (ok : Bool)
  | slotDone (i : Fin n)
  | noHandle
  | source
  | sourceEnd
  /-- A `release` has returned; its error is only logged. -/
  | queueReleased
  | finished

section
variable {n : ℕ} {C : Type}

/-- The end of the loop of `dispatch_job_signals`. -/
def RunState.stopDispatch (s : RunState n C) : RunState n C :=
  { s with jobs := .draining, sources := s.sources.close }

/-- The first error is kept and shuts the worker down. -/
def RunState.fail (s : RunState n C) (error : WorkerRuntimeError) : RunState n C :=
  { s with firstError := some error, requested := true }

def SlotPc.result : SlotPc C → Option SlotEnd
  | .ended result => some result
  | _ => none

def RunState.joinSlot (s : RunState n C) (i : Fin n) : Option (RunState n C × Option WorkerRuntimeError) :=
  if i ∈ s.handles then (s.slots i).result.map fun r => ({ s with handles := s.handles.erase i },slotError r)
  else none

variable (cfg : RunConfig)

def jobsStep (s : RunState n C) : JobsPc → JobsEvent n → Option (RunState n C)
  | .opening, .opened true =>
    some { s with jobs := .dispatching, slots := fun _ => .waiting, handles := List.finRange n }
  | .opening, .opened false =>
    some { s with
      jobs := .releasing
      firstError := some .pgListen
      -- the direct mode leaves the request to `run`
      requested := s.requested || cfg.localQueue.isSome }
  | .dispatching, .slotDone i =>
    match s.joinSlot i with
    | none => none
    | some (s',none) => if s'.handles.isEmpty then some s'.stopDispatch else some s'
    | some (s',some error) => some (s'.fail error).stopDispatch
  | .dispatching, .noHandle => if s.handles.isEmpty then some s.stopDispatch else none
  | .dispatching, .source =>
    match fanoutJobSignal (n * 4) n s.sources with
    | (ch,.opened) => some { s with sources := ch }
    | (ch,.closed) => some { s with sources := ch }.stopDispatch
  | .dispatching, .sourceEnd => some s.stopDispatch
  | .draining, .slotDone i =>
    match s.joinSlot i with
    | none => none
    | some (s',none) => some s'
    | some (s',some error) => if s'.firstError.isSome then some s' else some (s'.fail error)
  | .draining, .noHandle => if s.handles.isEmpty then some { s with jobs := .releasing } else none
  | .releasing, .queueReleased =>
    if s.released < cfg.queueCount n then some { s with released := s.released + 1 } else none
  | .releasing, .finished =>
    if s.released = cfg.queueCount n then some { s with jobs := .done s.firstError } else none
  | _, _ => none

/-- The handles in the order in which `spawn_recovery_tasks` pushes them. -/
def recoveryHandles : List RecoveryTask := if cfg.recoveryEnabled then [.heartbeat,.sweep] else []

/-- `TaskSlot::stop` returns. -/
def RunState.batcherStopped (s : RunState n C) (side : Side) : Bool :=
  match s.batchers side with
  | none => true
  | some b => !s.held side || b.task.ended

def finishRun : Option WorkerRuntimeError → Bool → Option WorkerRuntimeError
  | none, true => none
  | none, false => some .pgListen
  | some error, _ => some error

inductive MainEvent
  | registered (ok : Bool)
  | started
  | joined
  | batcherStopped
  | handleJoined
  | emitted
  | deregistered (ok : Bool)

def mainStep (s : RunState n C) : MainPc → MainEvent → Option (RunState n C)
  | .registering, .registered true => some { s with main := .starting, row := s.row || cfg.recoveryEnabled }
  | .registering, .registered false => if cfg.recoveryEnabled then some { s with main := .refused } else none
  | .starting, .started =>
    some { s with
      main := .running
      jobs := .opening
      recovery := fun _ => if cfg.recoveryEnabled then .running else .unspawned }
  | .running, .joined =>
    match s.jobs with
    | .done none => if s.cronDone then some { s with main := .awaiting .completion } else none
    -- the job runner's error does not wait for cron
    | .done (some _) => some { s with main := .awaiting .completion, requested := true }
    | _ => none
  | .awaiting .completion, .batcherStopped =>
    if s.batcherStopped .completion then
      some { s with main := .awaiting .failure, held := Function.update s.held .completion false }
    else none
  | .awaiting .failure, .batcherStopped =>
    if s.batcherStopped .failure then
      some { s with
        main := .stopping (recoveryHandles cfg)
        held := Function.update s.held .failure false
        recoveryAborted := true }
    else none
  | .stopping (t :: rest), .handleJoined =>
    if s.recovery t = .ended then some { s with main := .stopping rest } else none
  | .stopping [], .handleJoined => some { s with main := .emitting }
  | .emitting, .emitted => some { s with main := .deregistering }
  | .deregistering, .deregistered ok =>
    if ok || cfg.recoveryEnabled then
      match s.jobs with
      | .done result => some { s with
          main := .returned (finishRun result ok)
          row := s.row && !(ok && cfg.recoveryEnabled) }
      | _ => none
    else none
  | _, _ => none

inductive RecoveryEvent
  | beat
  | aborted
  | shutdown
  | panicked

def recoveryStep (s : RunState n C) : RecoveryTask → RecoveryEvent → Option (RunState n C)
  | .heartbeat, .beat => some { s with row := true }
  | t, .aborted =>
    if s.recoveryAborted then some { s with recovery := Function.update s.recovery t .ended } else none
  | .sweep, .shutdown =>
    if s.shutdown then some { s with recovery := Function.update s.recovery .sweep .ended } else none
  | t, .panicked => some { s with recovery := Function.update s.recovery t .ended }
  | _, _ => none

inductive RunAction (n : ℕ) (C : Type)
  | main (e : MainEvent)
  | jobs (e : JobsEvent n)
  | slot (i : Fin n) (e : SlotEvent C)
  | batcher (side : Side) (e : TaskEvent)
  | recovery (t : RecoveryTask) (e : RecoveryEvent)
  | cronEnd
  | request
  | fire

variable [DecidableEq C] (hasQueue : C → Bool) (hasHooks : Bool)

def runStep (s : RunState n C) : RunAction n C → Option (RunState n C)
  | .main e => mainStep cfg s s.main e
  | .jobs e => jobsStep cfg s s.jobs e
  | .slot i e => slotStep cfg hasQueue hasHooks s i (s.slots i) e
  | .batcher side e => (s.batchers.step hasQueue hasHooks side (.task e)).map fun bs => { s with batchers := bs }
  | .recovery t e => if s.recovery t = .running then recoveryStep s t e else none
  | .cronEnd =>
    if s.main = .running && (!cfg.hasCrontabs || s.shutdown) then some { s with cronDone := true } else none
  | .request => some { s with requested := true }
  | .fire => if s.requested then some { s with shutdown := true, batchers := s.batchers.signal } else none

end

end GraphileWorker.Lifecycle
