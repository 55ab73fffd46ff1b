import GraphileWorker.LocalQueue.State

/-! # Steps of a local queue

One step is one access to a shared field, or one section under a lock that does not await.
The environment decides the answers, when a sleep is over, and which task moves.
-/
namespace GraphileWorker.LocalQueue
open GraphileWorker.Runtime
variable {J : Type}

namespace Shared

/-- The early return of `set_mode`. -/
def keepsMode (sh : Shared J) (m : Mode) : Bool :=
  decide (sh.mode = m) || decide (sh.mode = .released) ||
    (decide (sh.mode = .ttlExpired) && decide (m = .polling) && !sh.ttlReturnComplete)

/-- `set_mode` up to the release of the write lock, and whether it goes on to notify. -/
def setMode (sh : Shared J) (m : Mode) : Option (Shared J × Bool) :=
  if sh.modeReaders.isEmpty then
    if sh.keepsMode m then some (sh,false) else some ({ sh with mode := m },true)
  else none

/-- `TaskSlot::abort` and the abort of a replaced task. -/
def abort (sh : Shared J) (task : Option Tid) : Shared J := { sh with aborted := task.toList ++ sh.aborted }

end Shared

def number (n : ℕ) : List J → List (Claim J)
  | [] => []
  | j :: rest => ⟨n,j⟩ :: number (n + 1) rest

/-- Where `fetch` goes on once the refetch delay is settled. -/
def afterDelay (cfg : Config) (jobs : List (Claim J)) : LoopPc J :=
  if jobs.isEmpty then if cfg.continuous then .afterFetch else .setReleased false else .append jobs

/-- Where `fetch` goes on with the result of the query. -/
def afterResult (cfg : Config) : Option (List (Claim J)) → LoopPc J
  | none => .afterFetch
  | some jobs => match cfg.refetchDelay with
    | none => afterDelay cfg jobs
    | some d => if cfg.size ≤ jobs.length ∨ d.threshold < jobs.length then afterDelay cfg jobs
      else .delayThreshold jobs

/-- Thresholds that `start_refetch_delay` can draw. -/
def drawable (cfg : Config) (n : ℕ) : Bool :=
  let max := (cfg.refetchDelay.bind RefetchDelayConfig.maxAbortThreshold).getD (5 * cfg.size)
  if max = usizeMax then n == usizeMax else decide (1 ≤ n) && decide (n ≤ Nat.max 1 max)

def afterReleased (last : Bool) : LoopPc J := if last then .finish else .afterFetch

/-- One step of the fetch loop. Spawning a task is a step of the whole queue. -/
def loopStep (cfg : Config) (sh : Shared J) : LoopPc J → Input J → Option (Shared J × LoopPc J)
  | .start, .tick => (sh.setMode .polling).map fun p => (p.1,if p.2 then .startNotify else .top)
  | .startNotify, .tick => some ({ sh with stateNotify := sh.stateNotify.notifyWaiters },.top)
  | .top, .tick => some (sh,if sh.mode = .released then .finish else .checked sh.mode)
  | .checked m, .tick =>
    some (sh,if m = .polling ∧ sh.fetchInProgress = false ∧ sh.delayActive = false then .fetchTry
      else .unfetchable m)
  | .unfetchable _, .tick => some (sh,.created sh.stateNotify.broadcast)
  | .created b, .tick =>
    let p := sh.stateNotify.registerWaiter b
    some ({ sh with stateNotify := p.1 },if p.2 then .top else .parked b)
  | .parked b, .tick => (sh.stateNotify.tryComplete b).map fun n => ({ sh with stateNotify := n },.top)
  | .fetchTry, .boundary ok => some (sh,if ok then .fetchStart else .afterFetch)
  | .fetchStart, .tick =>
    if sh.fetchInProgress then some (sh,.afterFetch)
    else some ({ sh with fetchInProgress := true },.fetchDelayCheck)
  | .fetchDelayCheck, .tick => some (sh,if sh.delayActive then .bailSet else .fetchClear)
  | .bailSet, .tick => some ({ sh with delayFetchOnComplete := true },.bailEnd)
  | .bailEnd, .tick => some ({ sh with fetchInProgress := false },.bailNotify)
  | .bailNotify, .tick => some ({ sh with stateNotify := sh.stateNotify.notifyOne },.afterFetch)
  | .fetchClear, .tick => some ({ sh with fetchAgain := false },.fetchReset)
  | .fetchReset, .tick => some ({ sh with delayCounter := 0 },.fetchSql)
  | .fetchSql, .batch none => some (sh,.fetchDropGuard none)
  | .fetchSql, .batch (some jobs) =>
    let cs := number sh.issued.length jobs
    some ({ sh with issued := sh.issued ++ cs },.fetchDropGuard (some cs))
  | .fetchDropGuard r, .tick => some (sh,.fetchEnd r)
  | .fetchEnd r, .tick => some ({ sh with fetchInProgress := false },.fetchNotify r)
  | .fetchNotify r, .tick => some ({ sh with stateNotify := sh.stateNotify.notifyOne },afterResult cfg r)
  | .delayThreshold jobs, .threshold n =>
    if drawable cfg n then some ({ sh with abortThreshold := n },.delayActivate jobs) else none
  | .delayActivate jobs, .tick => some ({ sh with delayActive := true },.delayForget jobs)
  | .delayForget jobs, .tick => some ({ sh with delayFetchOnComplete := false },.delaySpawn jobs)
  | .delayReplace t jobs, .tick =>
    some ({ sh.abort sh.refetchDelayTask with refetchDelayTask := some t },afterDelay cfg jobs)
  | .append jobs, .tick =>
    if sh.jobQueueLock.isSome then none
    else some ({ sh with jobQueue := sh.jobQueue ++ jobs },.setWaiting (decide (cfg.size ≤ jobs.length)))
  | .setWaiting fetchedMax, .tick =>
    (sh.setMode .waiting).map fun p => (p.1,if p.2 then .waitingNotify fetchedMax else .spawnTtl fetchedMax)
  | .waitingNotify fetchedMax, .tick =>
    some ({ sh with stateNotify := sh.stateNotify.notifyWaiters },.spawnTtl fetchedMax)
  | .replaceTtl t fetchedMax, .tick =>
    some ({ sh.abort sh.ttlTimerTask with ttlTimerTask := some t },
      if fetchedMax then .setAgain else .afterFetch)
  | .setAgain, .tick => some ({ sh with fetchAgain := true },.afterFetch)
  | .setReleased last, .tick =>
    (sh.setMode .released).map fun p => (p.1,if p.2 then .releasedNotify last else afterReleased last)
  | .releasedNotify last, .tick =>
    some ({ sh with stateNotify := sh.stateNotify.notifyWaiters },afterReleased last)
  | .afterFetch, .tick =>
    some (sh,if sh.mode = .polling then if cfg.continuous then .takeAgain else .setReleased true else .top)
  | .takeAgain, .tick => some ({ sh with fetchAgain := false },.takeDelay sh.fetchAgain)
  | .takeDelay again, .tick =>
    some ({ sh with delayFetchOnComplete := false },
      if again || sh.delayFetchOnComplete then .top else .armSleep)
  | .armSleep, .tick => some (sh,.select sh.stateNotify.broadcast)
  -- `select_biased!` looks at the sleep first
  | .select _, .elapsed => some (sh,.top)
  | .select b, .tick =>
    let p := sh.stateNotify.registerWaiter b
    some ({ sh with stateNotify := p.1 },if p.2 then .top else .selectParked b)
  | .selectParked b, .elapsed => some ({ sh with stateNotify := sh.stateNotify.dropWaiter b },.top)
  | .selectParked b, .tick => (sh.stateNotify.tryComplete b).map fun n => ({ sh with stateNotify := n },.top)
  | .finish, .tick => some ({ sh with runComplete := true },.finishNotify)
  | .finishNotify, .tick => some ({ sh with runCompleteNotify := sh.runCompleteNotify.notifyWaiters },.done)
  | _, _ => none

def returnOk (sh : Shared J) : Caller → Shared J × Thread J
  | .ttl => ({ sh with ttlReturnComplete := true },.finished .ended)
  | .release => ({ sh with releaseComplete := true, releaseLock := none },.finished (.released true))

def returnErr (sh : Shared J) : Caller → Shared J × Thread J
  | .ttl => (sh,.finished .ended)
  | .release => ({ sh with releaseLock := none },.finished (.released false))

/-- `return_cached_jobs` with `return_jobs_with_retry`. -/
def returnStep (sh : Shared J) (t : Tid) (who : Caller) : ReturnPc → Input J → Option (Shared J × Thread J)
  | .lock, .tick =>
    if sh.pendingLock.isSome then none else some ({ sh with pendingLock := some t },.returning who .begin)
  | .begin, .tick => some ({ sh with permit := true },.returning who .drain)
  | .drain, .tick =>
    if sh.jobQueueLock.isSome then none
    else if (sh.pending ++ sh.jobQueue).isEmpty then
      some ({ sh with pending := [], jobQueue := [], permit := false, pendingLock := none },
        .returning who .returned)
    else some ({ sh with pending := sh.pending ++ sh.jobQueue, jobQueue := [] },.returning who (.sql 0 false))
  | .sql attempt false, .commit => some (sh,.returning who (.sql attempt true))
  | .sql _ true, .response true =>
    some ({ sh with acked := sh.acked ++ sh.pending, pending := [], permit := false, pendingLock := none },
      .returning who .emitting)
  | .sql attempt _, .response false =>
    if attempt + 1 < maxReturnAttempts then some (sh,.returning who (.backoff (attempt + 1)))
    else some (returnErr { sh with pendingLock := none } who)
  | .backoff attempt, .elapsed => some (sh,.returning who (.sql attempt false))
  | .emitting, .tick => some (returnOk sh who)
  | .returned, .tick => some (returnOk sh who)
  | _, _ => none

/-- Drops the waiter that a finished delay still holds. -/
def Shared.dropAbortWaiter (sh : Shared J) : Option ℕ → Shared J
  | none => sh
  | some b => { sh with abortNotify := sh.abortNotify.dropWaiter b }

def threadStep (sh : Shared J) (t : Tid) : Thread J → Input J → Option (Shared J × Thread J)
  | .getJob skip, .tick =>
    some (sh,if sh.mode = .released then .finished (.job none) else if skip then .direct else .cache)
  | .direct, .boundary ok => some (sh,if ok then .directMode else .finished (.direct none))
  | .directMode, .tick =>
    if sh.mode = .released then some (sh,.finished (.direct none))
    else some ({ sh with modeReaders := t :: sh.modeReaders },.directSql)
  | .directSql, .single r =>
    some ({ sh with modeReaders := sh.modeReaders.erase t },.finished (.direct r))
  | .cache, .tick => some (sh,.cacheChecked sh.mode)
  | .cacheChecked m, .tick =>
    some (sh,if m = .released then .finished (.job none)
      else if m = .ttlExpired ∧ sh.ttlReturnComplete = true then .cacheSetPolling else .cacheLock)
  | .cacheSetPolling, .tick =>
    (sh.setMode .polling).map fun p => (p.1,if p.2 then .cacheNotify else .cacheLock)
  | .cacheNotify, .tick => some ({ sh with stateNotify := sh.stateNotify.notifyWaiters },.cacheLock)
  | .cacheLock, .tick =>
    if sh.jobQueueLock.isSome then none else some ({ sh with jobQueueLock := some t },.cachePop)
  | .cachePop, .tick =>
    if sh.mode = .released ∨ sh.mode = .ttlExpired then
      some ({ sh with jobQueueLock := none },.finished (.job none))
    else match sh.jobQueue with
      | [] => some ({ sh with jobQueueLock := none },.finished (.job none))
      | c :: rest =>
        some ({ sh with jobQueue := rest, jobQueueLock := none, handed := sh.handed ++ [(t,c)] },
          if rest.isEmpty then .drained c else .finished (.job (some c)))
  | .drained c, .tick =>
    (sh.setMode .polling).map fun p => (p.1,if p.2 then .drainedNotify c else .finished (.job (some c)))
  | .drainedNotify c, .tick =>
    some ({ sh with stateNotify := sh.stateNotify.notifyWaiters },.finished (.job (some c)))
  | .timerSleep, .elapsed => some (sh,.timerRead)
  | .timerRead, .tick => some (sh,if sh.mode = .waiting then .timerExpire else .finished .ended)
  | .timerExpire, .tick =>
    if sh.modeReaders.isEmpty then
      if sh.mode = .waiting then
        some ({ sh with ttlReturnComplete := false, mode := .ttlExpired },.returning .ttl .lock)
      else some (sh,.finished .ended)
    else none
  | .returning who pc, i => returnStep sh t who pc i
  | .releaseStart, .tick =>
    if sh.releaseLock.isSome then none
    else if sh.releaseComplete then some (sh,.finished (.released true))
    else some ({ sh with releaseLock := some t },.releaseMode)
  | .releaseMode, .tick =>
    if sh.modeReaders.isEmpty then some ({ sh with mode := .released },.releaseDelay) else none
  | .releaseDelay, .tick => some ({ sh with delayActive := false },.releaseAbortNotify)
  | .releaseAbortNotify, .tick =>
    some ({ sh with abortNotify := sh.abortNotify.notifyWaiters },.releaseStateNotify)
  | .releaseStateNotify, .tick => some ({ sh with stateNotify := sh.stateNotify.notifyOne },.releaseTimer)
  | .releaseTimer, .tick => some ({ sh.abort sh.ttlTimerTask with ttlTimerTask := none },.releaseWait)
  | .releaseWait, .tick => some (sh,.releaseCheck sh.runCompleteNotify.broadcast)
  | .releaseCheck b, .tick => some (sh,if sh.runComplete then .releaseTimerAgain else .releaseCreated b)
  | .releaseCreated b, .tick =>
    let p := sh.runCompleteNotify.registerWaiter b
    some ({ sh with runCompleteNotify := p.1 },if p.2 then .releaseWait else .releaseParked b)
  | .releaseParked b, .tick =>
    (sh.runCompleteNotify.tryComplete b).map fun n => ({ sh with runCompleteNotify := n },.releaseWait)
  | .releaseTimerAgain, .tick =>
    some ({ sh.abort sh.ttlTimerTask with ttlTimerTask := none },.releaseDelayTask)
  | .releaseDelayTask, .tick =>
    some ({ sh.abort sh.refetchDelayTask with refetchDelayTask := none },.returning .release .lock)
  | .delayStart, .tick => some (sh,.delayCreated sh.abortNotify.broadcast)
  | .delayCreated _, .elapsed => some (sh,.delayClear false none)
  | .delayCreated b, .tick =>
    let p := sh.abortNotify.registerWaiter b
    some ({ sh with abortNotify := p.1 },if p.2 then .delayClear true none else .delayParked b)
  -- the waiter of the branch that was not taken lives until the task ends
  | .delayParked b, .elapsed => some (sh,.delayClear false (some b))
  | .delayParked b, .tick =>
    (sh.abortNotify.tryComplete b).map fun n => ({ sh with abortNotify := n },.delayClear true none)
  | .delayClear aborted held, .tick => some ({ sh with delayActive := false },.delayNotify aborted held)
  | .delayNotify aborted held, .tick =>
    some ({ sh with stateNotify := sh.stateNotify.notifyOne },
      if aborted then .delayAborted else .delayExpired held)
  | .delayAborted, .tick => some ({ sh with delayFetchOnComplete := true },.finished .ended)
  | .delayExpired held, .tick => some (sh.dropAbortWaiter held,.finished .ended)
  | .pulse count, .tick =>
    some ({ sh with delayCounter := (sh.delayCounter + count) % (usizeMax + 1) },.pulseActive)
  | .pulseActive, .tick => some (sh,if sh.delayActive then .pulseCounter else .pulseMode)
  | .pulseCounter, .tick => some (sh,.pulseCompare sh.delayCounter)
  | .pulseCompare count, .tick =>
    some (sh,if sh.abortThreshold ≤ count then .pulseAbortNotify else .pulseMode)
  | .pulseAbortNotify, .tick => some ({ sh with abortNotify := sh.abortNotify.notifyOne },.pulseMode)
  | .pulseMode, .tick => some (sh,if sh.mode = .polling then .pulsePolling else .finished .ended)
  | .pulsePolling, .tick => some (sh,if sh.fetchInProgress then .pulseAgain else .pulseDelay)
  | .pulseDelay, .tick => some (sh,if sh.delayActive then .finished .ended else .pulseNotify)
  | .pulseAgain, .tick => some ({ sh with fetchAgain := true },.pulseNotify)
  | .pulseNotify, .tick => some ({ sh with stateNotify := sh.stateNotify.notifyOne },.finished .ended)
  | _, _ => none

/-- What dropping a task or a call at an await point leaves behind. -/
def abandon (sh : Shared J) : Thread J → Option (Shared J)
  | .timerSleep | .timerRead | .timerExpire => some sh
  | .returning .ttl .lock => some sh
  | .returning .release .lock => some { sh with releaseLock := none }
  -- the hook of a finished return runs without the lock on the pending claims
  | .returning .ttl .emitting => some sh
  | .returning .release .emitting => some { sh with releaseLock := none }
  | .returning _ .returned => none
  | .returning .ttl _ => some { sh with pendingLock := none }
  | .returning .release _ => some { sh with pendingLock := none, releaseLock := none }
  | .releaseStart => some sh
  | .releaseMode => some { sh with releaseLock := none }
  | .releaseParked b =>
    some { sh with runCompleteNotify := sh.runCompleteNotify.dropWaiter b, releaseLock := none }
  | .delayStart | .delayAborted => some sh
  | .delayParked b => some (sh.dropAbortWaiter (some b))
  | .delayExpired held => some (sh.dropAbortWaiter held)
  | _ => none

def Thread.isRelease : Thread J → Bool
  | .returning .release _ | .releaseStart | .releaseMode | .releaseParked _ => true
  | _ => false

def Thread.releases : Thread J → Bool
  | .returning .release _ | .releaseStart | .releaseMode | .releaseDelay | .releaseAbortNotify
  | .releaseStateNotify | .releaseTimer | .releaseWait | .releaseCheck _ | .releaseCreated _ | .releaseParked _
  | .releaseTimerAgain | .releaseDelayTask => true
  | _ => false

/-- Between the store of a mode and the `notify_waiters` of `set_mode`. -/
def Thread.broadcasts : Thread J → Bool
  | .cacheNotify | .drainedNotify _ => true
  | _ => false

def Action.releases : Action J → Bool
  | .start _ .release => true
  | _ => false

def Call.enter : Call → Thread J
  | .getJob skip => .getJob skip
  | .release => .releaseStart
  | .pulse count => .pulse count

def Thread.isIdle : Thread J → Bool
  | .idle => true
  | _ => false

def State.put (s : State J) (t : Tid) (p : Shared J × Thread J) : State J :=
  { s with sh := p.1, thr := Function.update s.thr t p.2 }

def step (cfg : Config) (s : State J) : Action J → Option (State J)
  | .loop i => (loopStep cfg s.sh s.loop i).map fun p => { s with sh := p.1, loop := p.2 }
  | .spawnTimer t => match s.loop with
    | .spawnTtl fetchedMax =>
      if (s.thr t).isIdle then
        some { s with loop := .replaceTtl t fetchedMax, thr := Function.update s.thr t .timerSleep }
      else none
    | _ => none
  | .spawnDelay t => match s.loop with
    | .delaySpawn jobs =>
      if (s.thr t).isIdle then
        some { s with loop := .delayReplace t jobs, thr := Function.update s.thr t .delayStart }
      else none
    | _ => none
  | .start t c => if (s.thr t).isIdle then some (s.put t (s.sh,c.enter)) else none
  | .thread t i => (threadStep s.sh t (s.thr t) i).map fun p => s.put t p
  | .die t =>
    if t ∈ s.sh.aborted then (abandon s.sh (s.thr t)).map fun sh => s.put t (sh,.finished .ended) else none
  | .cancel t =>
    if (s.thr t).isRelease then (abandon s.sh (s.thr t)).map fun sh => s.put t (sh,.finished .cancelled)
    else none

/-- A queue as `new` leaves it, with its loop about to run. -/
def initial : State J := {}

end GraphileWorker.LocalQueue
