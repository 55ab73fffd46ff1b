import GraphileWorker.LocalQueue.Step

/-! # Inversion of the steps of a local queue

Each step function comes with a relation that has one constructor for each way a step can
go, with the tests that lead there.
-/
namespace GraphileWorker.LocalQueue
open GraphileWorker.Runtime
variable {J : Type} {t : Tid} {who : Caller} {pc : ReturnPc} {i : Input J} {th : Thread J} {cfg : Config}
  {s : State J} {p : Shared J × Thread J}

theorem setMode_map_eq_some {α : Type} {sh : Shared J} {m : Mode} {f : Shared J × Bool → α} {a : α} :
    (sh.setMode m).map f = some a ↔ sh.modeReaders = [] ∧ ((sh.keepsMode m = true ∧ f (sh,false) = a) ∨
      (sh.keepsMode m = false ∧ f ({ sh with mode := m },true) = a)) := by
  unfold Shared.setMode
  cases sh.modeReaders with
  | nil => cases sh.keepsMode m <;> simp
  | cons t rest => simp

theorem afterDelay_cases (cfg : Config) (jobs : List (Claim J)) :
    (jobs ≠ [] ∧ afterDelay cfg jobs = .append jobs) ∨
    (jobs = [] ∧ cfg.continuous = true ∧ afterDelay cfg jobs = .afterFetch) ∨
    (jobs = [] ∧ cfg.continuous = false ∧ afterDelay cfg jobs = .setReleased false) := by
  unfold afterDelay
  cases jobs with
  | nil => cases cfg.continuous <;> simp
  | cons c rest => exact Or.inl ⟨List.cons_ne_nil c rest,rfl⟩

theorem afterResult_cases (cfg : Config) (r : Option (List (Claim J))) :
    (r = none ∧ afterResult cfg r = .afterFetch) ∨
    ∃ jobs, r = some jobs ∧ (afterResult cfg r = afterDelay cfg jobs ∨
      (∃ d, cfg.refetchDelay = some d ∧ afterResult cfg r = .delayThreshold jobs)) := by
  cases r with
  | none => exact Or.inl ⟨rfl,rfl⟩
  | some jobs =>
    refine Or.inr ⟨jobs,rfl,?_⟩
    unfold afterResult
    cases cfg.refetchDelay with
    | none => exact Or.inl rfl
    | some d =>
      dsimp only
      split
      · exact Or.inl rfl
      · exact Or.inr ⟨d,rfl,rfl⟩

section NotAfter
variable {cfg : Config} {f : LoopPc J → Bool} (ha : ∀ jobs, f (.append jobs) = false)
  (hf : f .afterFetch = false) (hr : f (.setReleased false) = false)
include ha hf hr

theorem afterDelay_not (jobs : List (Claim J)) : f (afterDelay cfg jobs) = false := by
  rcases afterDelay_cases cfg jobs with ⟨_,h⟩ | ⟨_,_,h⟩ | ⟨_,_,h⟩
  · rw [h,ha]
  · rw [h,hf]
  · rw [h,hr]

theorem afterResult_not {r : Option (List (Claim J))}
    (hd : cfg.refetchDelay = none ∨ ∀ jobs, f (.delayThreshold jobs) = false) :
    f (afterResult cfg r) = false := by
  rcases afterResult_cases cfg r with ⟨_,h⟩ | ⟨jobs,_,h | ⟨d,hs,h⟩⟩
  · rw [h,hf]
  · rw [h,afterDelay_not ha hf hr]
  · rcases hd with hd | hd
    · rw [hd] at hs
      cases hs
    · rw [h,hd]

end NotAfter

theorem afterReleased_not {f : LoopPc J → Bool} (hf : f .afterFetch = false) (he : f .finish = false)
    (last : Bool) : f (afterReleased last) = false := by
  cases last
  · exact hf
  · exact he

inductive LoopStepped (cfg : Config) (sh : Shared J) : LoopPc J → Input J → Shared J → LoopPc J → Prop
  | startKept (hr : sh.modeReaders = []) (hk : sh.keepsMode .polling = true) :
      LoopStepped cfg sh .start .tick sh .top
  | startSet (hr : sh.modeReaders = []) (hk : sh.keepsMode .polling = false) :
      LoopStepped cfg sh .start .tick { sh with mode := .polling } .startNotify
  | startNotify :
      LoopStepped cfg sh .startNotify .tick { sh with stateNotify := sh.stateNotify.notifyWaiters } .top
  | topReleased (hm : sh.mode = .released) : LoopStepped cfg sh .top .tick sh .finish
  | top (hm : sh.mode ≠ .released) : LoopStepped cfg sh .top .tick sh (.checked sh.mode)
  | checkedFetch (hf : sh.fetchInProgress = false) (hd : sh.delayActive = false) :
      LoopStepped cfg sh (.checked .polling) .tick sh .fetchTry
  | checkedWait (m : Mode) (h : ¬(m = .polling ∧ sh.fetchInProgress = false ∧ sh.delayActive = false)) :
      LoopStepped cfg sh (.checked m) .tick sh (.unfetchable m)
  | unfetchable (m : Mode) : LoopStepped cfg sh (.unfetchable m) .tick sh (.created sh.stateNotify.broadcast)
  | createdReady (b : ℕ) (hw : (sh.stateNotify.registerWaiter b).2 = true) :
      LoopStepped cfg sh (.created b) .tick { sh with stateNotify := (sh.stateNotify.registerWaiter b).1 } .top
  | createdParked (b : ℕ) (hw : (sh.stateNotify.registerWaiter b).2 = false) :
      LoopStepped cfg sh (.created b) .tick { sh with stateNotify := (sh.stateNotify.registerWaiter b).1 } (.parked b)
  | parked (b : ℕ) (n : Notify) (hn : sh.stateNotify.tryComplete b = some n) :
      LoopStepped cfg sh (.parked b) .tick { sh with stateNotify := n } .top
  | fetchAdmitted : LoopStepped cfg sh .fetchTry (.boundary true) sh .fetchStart
  | fetchRefused : LoopStepped cfg sh .fetchTry (.boundary false) sh .afterFetch
  | fetchBusy (hf : sh.fetchInProgress = true) : LoopStepped cfg sh .fetchStart .tick sh .afterFetch
  | fetchStart (hf : sh.fetchInProgress = false) :
      LoopStepped cfg sh .fetchStart .tick { sh with fetchInProgress := true } .fetchDelayCheck
  | fetchDelayed (hd : sh.delayActive = true) : LoopStepped cfg sh .fetchDelayCheck .tick sh .bailSet
  | fetchUndelayed (hd : sh.delayActive = false) : LoopStepped cfg sh .fetchDelayCheck .tick sh .fetchClear
  | bailSet : LoopStepped cfg sh .bailSet .tick { sh with delayFetchOnComplete := true } .bailEnd
  | bailEnd : LoopStepped cfg sh .bailEnd .tick { sh with fetchInProgress := false } .bailNotify
  | bailNotify :
      LoopStepped cfg sh .bailNotify .tick { sh with stateNotify := sh.stateNotify.notifyOne } .afterFetch
  | fetchClear : LoopStepped cfg sh .fetchClear .tick { sh with fetchAgain := false } .fetchReset
  | fetchReset : LoopStepped cfg sh .fetchReset .tick { sh with delayCounter := 0 } .fetchSql
  | fetchFailed : LoopStepped cfg sh .fetchSql (.batch none) sh (.fetchDropGuard none)
  | fetchSql (jobs : List J) :
      LoopStepped cfg sh .fetchSql (.batch (some jobs))
        { sh with issued := sh.issued ++ number sh.issued.length jobs }
        (.fetchDropGuard (some (number sh.issued.length jobs)))
  | fetchDropGuard (r : Option (List (Claim J))) : LoopStepped cfg sh (.fetchDropGuard r) .tick sh (.fetchEnd r)
  | fetchEnd (r : Option (List (Claim J))) :
      LoopStepped cfg sh (.fetchEnd r) .tick { sh with fetchInProgress := false } (.fetchNotify r)
  | fetchNotify (r : Option (List (Claim J))) :
      LoopStepped cfg sh (.fetchNotify r) .tick { sh with stateNotify := sh.stateNotify.notifyOne }
        (afterResult cfg r)
  | delayThreshold (jobs : List (Claim J)) (n : ℕ) (hn : drawable cfg n = true) :
      LoopStepped cfg sh (.delayThreshold jobs) (.threshold n) { sh with abortThreshold := n } (.delayActivate jobs)
  | delayActivate (jobs : List (Claim J)) :
      LoopStepped cfg sh (.delayActivate jobs) .tick { sh with delayActive := true } (.delayForget jobs)
  | delayForget (jobs : List (Claim J)) :
      LoopStepped cfg sh (.delayForget jobs) .tick { sh with delayFetchOnComplete := false } (.delaySpawn jobs)
  | delayReplace (t : Tid) (jobs : List (Claim J)) :
      LoopStepped cfg sh (.delayReplace t jobs) .tick
        { sh.abort sh.refetchDelayTask with refetchDelayTask := some t } (afterDelay cfg jobs)
  | append (jobs : List (Claim J)) (hl : sh.jobQueueLock = none) :
      LoopStepped cfg sh (.append jobs) .tick { sh with jobQueue := sh.jobQueue ++ jobs }
        (.setWaiting (decide (cfg.size ≤ jobs.length)))
  | waitingKept (fetchedMax : Bool) (hr : sh.modeReaders = []) (hk : sh.keepsMode .waiting = true) :
      LoopStepped cfg sh (.setWaiting fetchedMax) .tick sh (.spawnTtl fetchedMax)
  | waitingSet (fetchedMax : Bool) (hr : sh.modeReaders = []) (hk : sh.keepsMode .waiting = false) :
      LoopStepped cfg sh (.setWaiting fetchedMax) .tick { sh with mode := .waiting } (.waitingNotify fetchedMax)
  | waitingNotify (fetchedMax : Bool) :
      LoopStepped cfg sh (.waitingNotify fetchedMax) .tick { sh with stateNotify := sh.stateNotify.notifyWaiters }
        (.spawnTtl fetchedMax)
  | replaceTtlAgain (t : Tid) :
      LoopStepped cfg sh (.replaceTtl t true) .tick { sh.abort sh.ttlTimerTask with ttlTimerTask := some t } .setAgain
  | replaceTtl (t : Tid) :
      LoopStepped cfg sh (.replaceTtl t false) .tick { sh.abort sh.ttlTimerTask with ttlTimerTask := some t }
        .afterFetch
  | setAgain : LoopStepped cfg sh .setAgain .tick { sh with fetchAgain := true } .afterFetch
  | releasedKept (last : Bool) (hr : sh.modeReaders = []) (hk : sh.keepsMode .released = true) :
      LoopStepped cfg sh (.setReleased last) .tick sh (afterReleased last)
  | releasedSet (last : Bool) (hr : sh.modeReaders = []) (hk : sh.keepsMode .released = false) :
      LoopStepped cfg sh (.setReleased last) .tick { sh with mode := .released } (.releasedNotify last)
  | releasedNotify (last : Bool) :
      LoopStepped cfg sh (.releasedNotify last) .tick { sh with stateNotify := sh.stateNotify.notifyWaiters }
        (afterReleased last)
  | afterFetchPolling (hm : sh.mode = .polling) (hc : cfg.continuous = true) :
      LoopStepped cfg sh .afterFetch .tick sh .takeAgain
  | afterFetchOnce (hm : sh.mode = .polling) (hc : cfg.continuous = false) :
      LoopStepped cfg sh .afterFetch .tick sh (.setReleased true)
  | afterFetchOther (hm : sh.mode ≠ .polling) : LoopStepped cfg sh .afterFetch .tick sh .top
  | takeAgain : LoopStepped cfg sh .takeAgain .tick { sh with fetchAgain := false } (.takeDelay sh.fetchAgain)
  | takeDelayTop (again : Bool) (h : (again || sh.delayFetchOnComplete) = true) :
      LoopStepped cfg sh (.takeDelay again) .tick { sh with delayFetchOnComplete := false } .top
  | takeDelaySleep (h : sh.delayFetchOnComplete = false) :
      LoopStepped cfg sh (.takeDelay false) .tick { sh with delayFetchOnComplete := false } .armSleep
  | armSleep : LoopStepped cfg sh .armSleep .tick sh (.select sh.stateNotify.broadcast)
  | selectElapsed (b : ℕ) : LoopStepped cfg sh (.select b) .elapsed sh .top
  | selectReady (b : ℕ) (hw : (sh.stateNotify.registerWaiter b).2 = true) :
      LoopStepped cfg sh (.select b) .tick { sh with stateNotify := (sh.stateNotify.registerWaiter b).1 } .top
  | selectParked (b : ℕ) (hw : (sh.stateNotify.registerWaiter b).2 = false) :
      LoopStepped cfg sh (.select b) .tick { sh with stateNotify := (sh.stateNotify.registerWaiter b).1 }
        (.selectParked b)
  | parkedElapsed (b : ℕ) :
      LoopStepped cfg sh (.selectParked b) .elapsed { sh with stateNotify := sh.stateNotify.dropWaiter b } .top
  | parkedReady (b : ℕ) (n : Notify) (hn : sh.stateNotify.tryComplete b = some n) :
      LoopStepped cfg sh (.selectParked b) .tick { sh with stateNotify := n } .top
  | finish : LoopStepped cfg sh .finish .tick { sh with runComplete := true } .finishNotify
  | finishNotify :
      LoopStepped cfg sh .finishNotify .tick { sh with runCompleteNotify := sh.runCompleteNotify.notifyWaiters } .done

inductive ReturnStepped (sh : Shared J) (t : Tid) : Caller → ReturnPc → Input J → Shared J → Thread J → Prop
  | lock (who : Caller) (hl : sh.pendingLock = none) :
      ReturnStepped sh t who .lock .tick { sh with pendingLock := some t } (.returning who .begin)
  | begin (who : Caller) : ReturnStepped sh t who .begin .tick { sh with permit := true } (.returning who .drain)
  | empty (who : Caller) (hl : sh.jobQueueLock = none) (hp : sh.pending = []) (hq : sh.jobQueue = []) :
      ReturnStepped sh t who .drain .tick
        { sh with pending := [], jobQueue := [], permit := false, pendingLock := none } (.returning who .returned)
  | drain (who : Caller) (hl : sh.jobQueueLock = none) (hne : sh.pending ++ sh.jobQueue ≠ []) :
      ReturnStepped sh t who .drain .tick { sh with pending := sh.pending ++ sh.jobQueue, jobQueue := [] }
        (.returning who (.sql 0 false))
  | commit (who : Caller) (attempt : ℕ) :
      ReturnStepped sh t who (.sql attempt false) .commit sh (.returning who (.sql attempt true))
  | ack (who : Caller) (attempt : ℕ) :
      ReturnStepped sh t who (.sql attempt true) (.response true)
        { sh with acked := sh.acked ++ sh.pending, pending := [], permit := false, pendingLock := none }
        (.returning who .emitting)
  | retry (who : Caller) (attempt : ℕ) (committed : Bool) (ha : attempt + 1 < maxReturnAttempts) :
      ReturnStepped sh t who (.sql attempt committed) (.response false) sh (.returning who (.backoff (attempt + 1)))
  | failTtl (attempt : ℕ) (committed : Bool) (ha : ¬attempt + 1 < maxReturnAttempts) :
      ReturnStepped sh t .ttl (.sql attempt committed) (.response false) { sh with pendingLock := none }
        (.finished .ended)
  | failRelease (attempt : ℕ) (committed : Bool) (ha : ¬attempt + 1 < maxReturnAttempts) :
      ReturnStepped sh t .release (.sql attempt committed) (.response false)
        { sh with pendingLock := none, releaseLock := none } (.finished (.released false))
  | backoff (who : Caller) (attempt : ℕ) :
      ReturnStepped sh t who (.backoff attempt) .elapsed sh (.returning who (.sql attempt false))
  | ttlEmitted : ReturnStepped sh t .ttl .emitting .tick { sh with ttlReturnComplete := true } (.finished .ended)
  | ttlReturned : ReturnStepped sh t .ttl .returned .tick { sh with ttlReturnComplete := true } (.finished .ended)
  | releaseEmitted :
      ReturnStepped sh t .release .emitting .tick { sh with releaseComplete := true, releaseLock := none }
        (.finished (.released true))
  | releaseReturned :
      ReturnStepped sh t .release .returned .tick { sh with releaseComplete := true, releaseLock := none }
        (.finished (.released true))

inductive ThreadStepped (sh : Shared J) (t : Tid) : Thread J → Input J → Shared J → Thread J → Prop
  | getJobReleased (skip : Bool) (hm : sh.mode = .released) :
      ThreadStepped sh t (.getJob skip) .tick sh (.finished (.job none))
  | getJobDirect (hm : sh.mode ≠ .released) : ThreadStepped sh t (.getJob true) .tick sh .direct
  | getJobCache (hm : sh.mode ≠ .released) : ThreadStepped sh t (.getJob false) .tick sh .cache
  | directAdmitted : ThreadStepped sh t .direct (.boundary true) sh .directMode
  | directRefused : ThreadStepped sh t .direct (.boundary false) sh (.finished (.direct none))
  | directReleased (hm : sh.mode = .released) : ThreadStepped sh t .directMode .tick sh (.finished (.direct none))
  | directMode (hm : sh.mode ≠ .released) :
      ThreadStepped sh t .directMode .tick { sh with modeReaders := t :: sh.modeReaders } .directSql
  | directSql (r : Option J) :
      ThreadStepped sh t .directSql (.single r) { sh with modeReaders := sh.modeReaders.erase t }
        (.finished (.direct r))
  | cache : ThreadStepped sh t .cache .tick sh (.cacheChecked sh.mode)
  | cacheReleased : ThreadStepped sh t (.cacheChecked .released) .tick sh (.finished (.job none))
  | cacheExpired (hc : sh.ttlReturnComplete = true) :
      ThreadStepped sh t (.cacheChecked .ttlExpired) .tick sh .cacheSetPolling
  | cacheReady (m : Mode) (hm : m ≠ .released) (hc : ¬(m = .ttlExpired ∧ sh.ttlReturnComplete = true)) :
      ThreadStepped sh t (.cacheChecked m) .tick sh .cacheLock
  | cachePollingKept (hr : sh.modeReaders = []) (hk : sh.keepsMode .polling = true) :
      ThreadStepped sh t .cacheSetPolling .tick sh .cacheLock
  | cachePollingSet (hr : sh.modeReaders = []) (hk : sh.keepsMode .polling = false) :
      ThreadStepped sh t .cacheSetPolling .tick { sh with mode := .polling } .cacheNotify
  | cacheNotify :
      ThreadStepped sh t .cacheNotify .tick { sh with stateNotify := sh.stateNotify.notifyWaiters } .cacheLock
  | cacheLock (hl : sh.jobQueueLock = none) :
      ThreadStepped sh t .cacheLock .tick { sh with jobQueueLock := some t } .cachePop
  | cacheNone (h : sh.mode = .released ∨ sh.mode = .ttlExpired ∨ sh.jobQueue = []) :
      ThreadStepped sh t .cachePop .tick { sh with jobQueueLock := none } (.finished (.job none))
  | popLast (c : Claim J) (hm : ¬(sh.mode = .released ∨ sh.mode = .ttlExpired)) (hq : sh.jobQueue = [c]) :
      ThreadStepped sh t .cachePop .tick
        { sh with jobQueue := [], jobQueueLock := none, handed := sh.handed ++ [(t,c)] } (.drained c)
  | pop (c : Claim J) (rest : List (Claim J)) (hm : ¬(sh.mode = .released ∨ sh.mode = .ttlExpired))
      (hq : sh.jobQueue = c :: rest) (hr : rest ≠ []) :
      ThreadStepped sh t .cachePop .tick
        { sh with jobQueue := rest, jobQueueLock := none, handed := sh.handed ++ [(t,c)] }
        (.finished (.job (some c)))
  | drainedKept (c : Claim J) (hr : sh.modeReaders = []) (hk : sh.keepsMode .polling = true) :
      ThreadStepped sh t (.drained c) .tick sh (.finished (.job (some c)))
  | drainedSet (c : Claim J) (hr : sh.modeReaders = []) (hk : sh.keepsMode .polling = false) :
      ThreadStepped sh t (.drained c) .tick { sh with mode := .polling } (.drainedNotify c)
  | drainedNotify (c : Claim J) :
      ThreadStepped sh t (.drainedNotify c) .tick { sh with stateNotify := sh.stateNotify.notifyWaiters }
        (.finished (.job (some c)))
  | timerSleep : ThreadStepped sh t .timerSleep .elapsed sh .timerRead
  | timerRead (hm : sh.mode = .waiting) : ThreadStepped sh t .timerRead .tick sh .timerExpire
  | timerIdle (hm : sh.mode ≠ .waiting) : ThreadStepped sh t .timerRead .tick sh (.finished .ended)
  | timerExpire (hr : sh.modeReaders = []) (hm : sh.mode = .waiting) :
      ThreadStepped sh t .timerExpire .tick { sh with ttlReturnComplete := false, mode := .ttlExpired }
        (.returning .ttl .lock)
  | timerLate (hr : sh.modeReaders = []) (hm : sh.mode ≠ .waiting) :
      ThreadStepped sh t .timerExpire .tick sh (.finished .ended)
  | returning (who : Caller) (pc : ReturnPc) (i : Input J) (sh' : Shared J) (th : Thread J)
      (h : ReturnStepped sh t who pc i sh' th) : ThreadStepped sh t (.returning who pc) i sh' th
  | releaseKnown (hl : sh.releaseLock = none) (hc : sh.releaseComplete = true) :
      ThreadStepped sh t .releaseStart .tick sh (.finished (.released true))
  | releaseStart (hl : sh.releaseLock = none) (hc : sh.releaseComplete = false) :
      ThreadStepped sh t .releaseStart .tick { sh with releaseLock := some t } .releaseMode
  | releaseMode (hr : sh.modeReaders = []) :
      ThreadStepped sh t .releaseMode .tick { sh with mode := .released } .releaseDelay
  | releaseDelay : ThreadStepped sh t .releaseDelay .tick { sh with delayActive := false } .releaseAbortNotify
  | releaseAbortNotify :
      ThreadStepped sh t .releaseAbortNotify .tick { sh with abortNotify := sh.abortNotify.notifyWaiters }
        .releaseStateNotify
  | releaseStateNotify :
      ThreadStepped sh t .releaseStateNotify .tick { sh with stateNotify := sh.stateNotify.notifyOne } .releaseTimer
  | releaseTimer :
      ThreadStepped sh t .releaseTimer .tick { sh.abort sh.ttlTimerTask with ttlTimerTask := none } .releaseWait
  | releaseWait : ThreadStepped sh t .releaseWait .tick sh (.releaseCheck sh.runCompleteNotify.broadcast)
  | releaseEnded (b : ℕ) (hc : sh.runComplete = true) :
      ThreadStepped sh t (.releaseCheck b) .tick sh .releaseTimerAgain
  | releaseCheck (b : ℕ) (hc : sh.runComplete = false) :
      ThreadStepped sh t (.releaseCheck b) .tick sh (.releaseCreated b)
  | releaseReady (b : ℕ) (hw : (sh.runCompleteNotify.registerWaiter b).2 = true) :
      ThreadStepped sh t (.releaseCreated b) .tick
        { sh with runCompleteNotify := (sh.runCompleteNotify.registerWaiter b).1 } .releaseWait
  | releaseCreated (b : ℕ) (hw : (sh.runCompleteNotify.registerWaiter b).2 = false) :
      ThreadStepped sh t (.releaseCreated b) .tick
        { sh with runCompleteNotify := (sh.runCompleteNotify.registerWaiter b).1 } (.releaseParked b)
  | releaseParked (b : ℕ) (n : Notify) (hn : sh.runCompleteNotify.tryComplete b = some n) :
      ThreadStepped sh t (.releaseParked b) .tick { sh with runCompleteNotify := n } .releaseWait
  | releaseTimerAgain :
      ThreadStepped sh t .releaseTimerAgain .tick { sh.abort sh.ttlTimerTask with ttlTimerTask := none }
        .releaseDelayTask
  | releaseDelayTask :
      ThreadStepped sh t .releaseDelayTask .tick { sh.abort sh.refetchDelayTask with refetchDelayTask := none }
        (.returning .release .lock)
  | delayStart : ThreadStepped sh t .delayStart .tick sh (.delayCreated sh.abortNotify.broadcast)
  | delayElapsed (b : ℕ) : ThreadStepped sh t (.delayCreated b) .elapsed sh (.delayClear false none)
  | delayReady (b : ℕ) (hw : (sh.abortNotify.registerWaiter b).2 = true) :
      ThreadStepped sh t (.delayCreated b) .tick { sh with abortNotify := (sh.abortNotify.registerWaiter b).1 }
        (.delayClear true none)
  | delayCreated (b : ℕ) (hw : (sh.abortNotify.registerWaiter b).2 = false) :
      ThreadStepped sh t (.delayCreated b) .tick { sh with abortNotify := (sh.abortNotify.registerWaiter b).1 }
        (.delayParked b)
  | parkedElapsed (b : ℕ) : ThreadStepped sh t (.delayParked b) .elapsed sh (.delayClear false (some b))
  | delayParked (b : ℕ) (n : Notify) (hn : sh.abortNotify.tryComplete b = some n) :
      ThreadStepped sh t (.delayParked b) .tick { sh with abortNotify := n } (.delayClear true none)
  | delayClear (aborted : Bool) (held : Option ℕ) :
      ThreadStepped sh t (.delayClear aborted held) .tick { sh with delayActive := false } (.delayNotify aborted held)
  | delayNotifyAborted (held : Option ℕ) :
      ThreadStepped sh t (.delayNotify true held) .tick { sh with stateNotify := sh.stateNotify.notifyOne }
        .delayAborted
  | delayNotifyExpired (held : Option ℕ) :
      ThreadStepped sh t (.delayNotify false held) .tick { sh with stateNotify := sh.stateNotify.notifyOne }
        (.delayExpired held)
  | delayAborted :
      ThreadStepped sh t .delayAborted .tick { sh with delayFetchOnComplete := true } (.finished .ended)
  | delayExpired (held : Option ℕ) :
      ThreadStepped sh t (.delayExpired held) .tick
        { sh with abortNotify := (sh.dropAbortWaiter held).abortNotify } (.finished .ended)
  | pulse (count : ℕ) :
      ThreadStepped sh t (.pulse count) .tick
        { sh with delayCounter := (sh.delayCounter + count) % (usizeMax + 1) } .pulseActive
  | pulseDelayed (hd : sh.delayActive = true) : ThreadStepped sh t .pulseActive .tick sh .pulseCounter
  | pulseUndelayed (hd : sh.delayActive = false) : ThreadStepped sh t .pulseActive .tick sh .pulseMode
  | pulseCounter : ThreadStepped sh t .pulseCounter .tick sh (.pulseCompare sh.delayCounter)
  | pulseAborts (count : ℕ) (hc : sh.abortThreshold ≤ count) :
      ThreadStepped sh t (.pulseCompare count) .tick sh .pulseAbortNotify
  | pulseBelow (count : ℕ) (hc : ¬sh.abortThreshold ≤ count) :
      ThreadStepped sh t (.pulseCompare count) .tick sh .pulseMode
  | pulseAbortNotify :
      ThreadStepped sh t .pulseAbortNotify .tick { sh with abortNotify := sh.abortNotify.notifyOne } .pulseMode
  | pulsePolling (hm : sh.mode = .polling) : ThreadStepped sh t .pulseMode .tick sh .pulsePolling
  | pulseIdle (hm : sh.mode ≠ .polling) : ThreadStepped sh t .pulseMode .tick sh (.finished .ended)
  | pulseFetching (hf : sh.fetchInProgress = true) : ThreadStepped sh t .pulsePolling .tick sh .pulseAgain
  | pulseUnfetched (hf : sh.fetchInProgress = false) : ThreadStepped sh t .pulsePolling .tick sh .pulseDelay
  | pulseDelay (hd : sh.delayActive = true) : ThreadStepped sh t .pulseDelay .tick sh (.finished .ended)
  | pulseReady (hd : sh.delayActive = false) : ThreadStepped sh t .pulseDelay .tick sh .pulseNotify
  | pulseAgain : ThreadStepped sh t .pulseAgain .tick { sh with fetchAgain := true } .pulseNotify
  | pulseNotify :
      ThreadStepped sh t .pulseNotify .tick { sh with stateNotify := sh.stateNotify.notifyOne } (.finished .ended)

inductive Abandoned (sh : Shared J) : Thread J → Shared J → Prop
  | timerSleep : Abandoned sh .timerSleep sh
  | timerRead : Abandoned sh .timerRead sh
  | timerExpire : Abandoned sh .timerExpire sh
  | ttlLock : Abandoned sh (.returning .ttl .lock) sh
  | ttlEmitting : Abandoned sh (.returning .ttl .emitting) sh
  | releaseLock : Abandoned sh (.returning .release .lock) { sh with releaseLock := none }
  | releaseEmitting : Abandoned sh (.returning .release .emitting) { sh with releaseLock := none }
  | ttlReturning (pc : ReturnPc) (hp : pc ≠ .lock ∧ pc ≠ .emitting ∧ pc ≠ .returned) :
      Abandoned sh (.returning .ttl pc) { sh with pendingLock := none }
  | releaseReturning (pc : ReturnPc) (hp : pc ≠ .lock ∧ pc ≠ .emitting ∧ pc ≠ .returned) :
      Abandoned sh (.returning .release pc) { sh with pendingLock := none, releaseLock := none }
  | releaseStart : Abandoned sh .releaseStart sh
  | releaseMode : Abandoned sh .releaseMode { sh with releaseLock := none }
  | releaseParked (b : ℕ) :
      Abandoned sh (.releaseParked b)
        { sh with runCompleteNotify := sh.runCompleteNotify.dropWaiter b, releaseLock := none }
  | delayStart : Abandoned sh .delayStart sh
  | delayAborted : Abandoned sh .delayAborted sh
  | delayParked (b : ℕ) : Abandoned sh (.delayParked b) { sh with abortNotify := sh.abortNotify.dropWaiter b }
  | delayExpired (held : Option ℕ) :
      Abandoned sh (.delayExpired held) { sh with abortNotify := (sh.dropAbortWaiter held).abortNotify }

section Cases
variable {cfg : Config} {sh sh' : Shared J} {pc pc' : LoopPc J} {t : Tid} {th th' : Thread J} {i : Input J}

theorem loopStep_cases (h : loopStep cfg sh pc i = some (sh',pc')) : LoopStepped cfg sh pc i sh' pc' := by
  cases pc <;> cases i
  -- the inputs that a counter does not wait for
  all_goals try (cases h; done)
  case start.tick | setWaiting.tick | setReleased.tick =>
    obtain ⟨hr,⟨hk,he⟩ | ⟨hk,he⟩⟩ := setMode_map_eq_some.mp h
    all_goals
      cases he
      constructor <;> assumption
  case checked.tick m =>
    cases h
    split
    · next hm =>
      obtain ⟨rfl,hf,hd⟩ := hm
      exact .checkedFetch hf hd
    · next hm => exact .checkedWait m hm
  -- the tests of one flag
  case top.tick | created.tick | fetchDelayCheck.tick | select.tick =>
    cases h
    split
    all_goals constructor
    all_goals first | assumption | exact eq_false_of_ne_true ‹_›
  case parked.tick | selectParked.tick =>
    obtain ⟨n,hn,he⟩ := Option.map_eq_some_iff.mp h
    cases he
    constructor
    exact hn
  case fetchTry.boundary ok =>
    cases h
    cases ok <;> constructor
  case fetchStart.tick =>
    rcases ite_eq_iff.mp h with ⟨hf,he⟩ | ⟨hf,he⟩
    · cases he
      exact .fetchBusy hf
    · cases he
      exact .fetchStart (eq_false_of_ne_true hf)
  case fetchSql.batch r => cases r <;> cases h <;> constructor
  case delayThreshold.threshold jobs n =>
    obtain ⟨hn,he⟩ := Option.ite_none_right_eq_some.mp h
    cases he
    exact .delayThreshold jobs n hn
  case append.tick jobs =>
    obtain ⟨hl,he⟩ := Option.ite_none_left_eq_some.mp h
    cases he
    exact .append jobs (Option.not_isSome_iff_eq_none.mp hl)
  case replaceTtl.tick t fetchedMax =>
    cases h
    cases fetchedMax <;> constructor
  case afterFetch.tick =>
    cases h
    split
    · next hm =>
      split
      · next hc => exact .afterFetchPolling hm hc
      · next hc => exact .afterFetchOnce hm (eq_false_of_ne_true hc)
    · next hm => exact .afterFetchOther hm
  case takeDelay.tick again =>
    cases h
    split
    · next ha => exact .takeDelayTop again ha
    · next ha =>
      obtain ⟨rfl,hd⟩ := Bool.or_eq_false_iff.mp (eq_false_of_ne_true ha)
      exact .takeDelaySleep hd
  all_goals
    cases h
    constructor

theorem returnStep_cases {who : Caller} {pc : ReturnPc} (h : returnStep sh t who pc i = some (sh',th)) :
    ReturnStepped sh t who pc i sh' th := by
  unfold returnStep at h
  split at h
  all_goals try (split at h)
  all_goals try (split at h)
  all_goals cases who
  all_goals cases h
  all_goals try (constructor <;> first | assumption | exact Option.not_isSome_iff_eq_none.mp ‹_›)
  -- the drain, with something to return or without
  all_goals next hl he =>
    have hl := Option.not_isSome_iff_eq_none.mp hl
    rw [List.isEmpty_iff] at he
    first
    | exact .empty _ hl (List.append_eq_nil_iff.mp he).1 (List.append_eq_nil_iff.mp he).2
    | exact .drain _ hl he

theorem threadStep_cases (h : threadStep sh t th i = some (sh',th')) : ThreadStepped sh t th i sh' th' := by
  cases th
  case returning who pc => exact .returning who pc i sh' th' (returnStep_cases h)
  all_goals cases i
  all_goals try (cases h; done)
  case getJob.tick skip =>
    cases h
    split
    · next hm => exact .getJobReleased skip hm
    · next hm => cases skip <;> constructor <;> exact hm
  case direct.boundary ok =>
    cases h
    cases ok <;> constructor
  case directMode.tick =>
    rcases ite_eq_iff.mp h with ⟨hm,he⟩ | ⟨hm,he⟩
    all_goals
      cases he
      constructor
      exact hm
  case cacheChecked.tick m =>
    cases h
    split
    · next hm =>
      cases hm
      exact .cacheReleased
    · next hm =>
      split
      · next hc =>
        obtain ⟨rfl,hc⟩ := hc
        exact .cacheExpired hc
      · next hc => exact .cacheReady m hm hc
  case cacheSetPolling.tick | drained.tick =>
    obtain ⟨hr,⟨hk,he⟩ | ⟨hk,he⟩⟩ := setMode_map_eq_some.mp h
    all_goals
      cases he
      constructor <;> assumption
  case cacheLock.tick =>
    obtain ⟨hl,he⟩ := Option.ite_none_left_eq_some.mp h
    cases he
    exact .cacheLock (Option.not_isSome_iff_eq_none.mp hl)
  case cachePop.tick =>
    rcases ite_eq_iff.mp h with ⟨hm,he⟩ | ⟨hm,he⟩
    · cases he
      exact .cacheNone (hm.imp_right Or.inl)
    · split at he
      · next hq =>
        cases he
        exact .cacheNone (Or.inr (Or.inr hq))
      · next c rest hq =>
        cases he
        cases rest with
        | nil => exact .popLast c hm hq
        | cons d rest => exact .pop c (d :: rest) hm hq (List.cons_ne_nil d rest)
  case timerExpire.tick =>
    obtain ⟨hr,h⟩ := Option.ite_none_right_eq_some.mp h
    have hr := List.isEmpty_iff.mp hr
    split at h
    all_goals
      cases h
      constructor <;> assumption
  case releaseStart.tick =>
    obtain ⟨hl,h⟩ := Option.ite_none_left_eq_some.mp h
    have hl := Option.not_isSome_iff_eq_none.mp hl
    split at h
    · next hc =>
      cases h
      exact .releaseKnown hl hc
    · next hc =>
      cases h
      exact .releaseStart hl (eq_false_of_ne_true hc)
  case releaseMode.tick =>
    obtain ⟨hr,he⟩ := Option.ite_none_right_eq_some.mp h
    cases he
    exact .releaseMode (List.isEmpty_iff.mp hr)
  case releaseParked.tick | delayParked.tick =>
    obtain ⟨n,hn,he⟩ := Option.map_eq_some_iff.mp h
    cases he
    constructor
    exact hn
  case delayNotify.tick aborted held =>
    cases h
    cases aborted <;> constructor
  case delayExpired.tick held => cases held <;> cases h <;> exact .delayExpired _
  -- the tests of one flag
  case timerRead.tick | releaseCheck.tick | releaseCreated.tick | delayCreated.tick | pulseActive.tick |
      pulseCompare.tick | pulseMode.tick | pulsePolling.tick | pulseDelay.tick =>
    cases h
    split
    all_goals constructor
    all_goals first | assumption | exact eq_false_of_ne_true ‹_›
  all_goals
    cases h
    constructor

theorem abandon_cases (h : abandon sh th = some sh') : Abandoned sh th sh' := by
  cases th
  all_goals try (cases h; done)
  case returning who pc =>
    cases who <;> cases pc
    all_goals try (cases h; done)
    all_goals cases h
    all_goals constructor
    all_goals simp
  case delayExpired held => cases held <;> cases h <;> exact .delayExpired _
  all_goals
    cases h
    constructor

end Cases

theorem returnStep_thread {sh sh' : Shared J} (h : ReturnStepped sh t who pc i sh' th) :
    (∃ pc', th = .returning who pc') ∨ ∃ o, th = .finished o := by
  cases h with
  | failTtl | failRelease | ttlEmitted | ttlReturned | releaseEmitted | releaseReturned => exact Or.inr ⟨_,rfl⟩
  | _ => exact Or.inl ⟨_,rfl⟩

inductive Stepped (cfg : Config) (s : State J) : Action J → State J → Prop
  | loop (i : Input J) (sh : Shared J) (pc : LoopPc J) (h : loopStep cfg s.sh s.loop i = some (sh,pc)) :
      Stepped cfg s (.loop i) { s with sh := sh, loop := pc }
  | spawnTimer (t : Tid) (fetchedMax : Bool) (hl : s.loop = .spawnTtl fetchedMax) (ht : s.thr t = .idle) :
      Stepped cfg s (.spawnTimer t)
        { s with loop := .replaceTtl t fetchedMax, thr := Function.update s.thr t .timerSleep }
  | spawnDelay (t : Tid) (jobs : List (Claim J)) (hl : s.loop = .delaySpawn jobs) (ht : s.thr t = .idle) :
      Stepped cfg s (.spawnDelay t)
        { s with loop := .delayReplace t jobs, thr := Function.update s.thr t .delayStart }
  | start (t : Tid) (c : Call) (ht : s.thr t = .idle) : Stepped cfg s (.start t c) (s.put t (s.sh,c.enter))
  | thread (t : Tid) (i : Input J) (sh : Shared J) (th : Thread J)
      (h : threadStep s.sh t (s.thr t) i = some (sh,th)) : Stepped cfg s (.thread t i) (s.put t (sh,th))
  | die (t : Tid) (sh : Shared J) (ha : t ∈ s.sh.aborted) (h : abandon s.sh (s.thr t) = some sh) :
      Stepped cfg s (.die t) (s.put t (sh,.finished .ended))
  | cancel (t : Tid) (sh : Shared J) (hr : (s.thr t).isRelease = true) (h : abandon s.sh (s.thr t) = some sh) :
      Stepped cfg s (.cancel t) (s.put t (sh,.finished .cancelled))

theorem Thread.isIdle_iff : th.isIdle = true ↔ th = .idle := by
  cases th <;> simp [Thread.isIdle]

theorem step_cases {s' : State J} {a : Action J} (h : step cfg s a = some s') : Stepped cfg s a s' := by
  cases a with
  | loop i =>
    obtain ⟨⟨sh,pc⟩,hp,rfl⟩ := Option.map_eq_some_iff.mp h
    exact .loop i sh pc hp
  | spawnTimer t =>
    simp only [step] at h
    split at h
    · next hl =>
      obtain ⟨ht,he⟩ := Option.ite_none_right_eq_some.mp h
      cases he
      exact .spawnTimer t _ hl (Thread.isIdle_iff.mp ht)
    · cases h
  | spawnDelay t =>
    simp only [step] at h
    split at h
    · next hl =>
      obtain ⟨ht,he⟩ := Option.ite_none_right_eq_some.mp h
      cases he
      exact .spawnDelay t _ hl (Thread.isIdle_iff.mp ht)
    · cases h
  | start t c =>
    obtain ⟨ht,he⟩ := Option.ite_none_right_eq_some.mp h
    cases he
    exact .start t c (Thread.isIdle_iff.mp ht)
  | thread t i =>
    obtain ⟨⟨sh,th⟩,hp,rfl⟩ := Option.map_eq_some_iff.mp h
    exact .thread t i sh th hp
  | die t =>
    obtain ⟨ht,he⟩ := Option.ite_none_right_eq_some.mp h
    obtain ⟨sh,hp,rfl⟩ := Option.map_eq_some_iff.mp he
    exact .die t sh ht hp
  | cancel t =>
    obtain ⟨ht,he⟩ := Option.ite_none_right_eq_some.mp h
    obtain ⟨sh,hp,rfl⟩ := Option.map_eq_some_iff.mp he
    exact .cancel t sh ht hp

theorem step_thread (h : threadStep s.sh t (s.thr t) i = some p) : step cfg s (.thread t i) = some (s.put t p) :=
  congrArg (Option.map fun p => s.put t p) h

theorem step_returning (ht : s.thr t = .returning who pc) (h : returnStep s.sh t who pc i = some p) :
    step cfg s (.thread t i) = some (s.put t p) := by
  refine step_thread ?_
  rw [ht]
  exact h

section Unreleased
variable {cfg : Config} {s s' : State J} {sh sh' : Shared J} {t : Tid} {th th' : Thread J}

theorem Thread.releases_of_isRelease (h : th.isRelease = true) : th.releases = true := by
  cases th with
  | returning who pc => cases who <;> first | rfl | cases h
  | _ => first | rfl | cases h

theorem threadStep_releases {i : Input J} (hn : th.releases = false) (h : threadStep sh t th i = some (sh',th')) :
    th'.releases = false := by
  cases threadStep_cases h with
  | returning who pc _ _ _ hr =>
    cases who with
    | release => cases hn
    | ttl => rcases returnStep_thread hr with ⟨pc',rfl⟩ | ⟨o,rfl⟩ <;> rfl
  | _ => first | rfl | cases hn

theorem step_unreleased {a : Action J} (hn : ∀ t, (s.thr t).releases = false) (ha : a.releases = false)
    (h : step cfg s a = some s') : ∀ t, (s'.thr t).releases = false := by
  have put (t : Tid) (th : Thread J) (ht : th.releases = false) :
      ∀ u, (Function.update s.thr t th u).releases = false :=
    (Function.forall_update_iff s.thr fun _ th => th.releases = false).mpr ⟨ht,fun u _ => hn u⟩
  cases step_cases h with
  | loop i sh pc hl => exact hn
  | spawnTimer t mx hl ht | spawnDelay t jobs hl ht => exact put t _ rfl
  | start t c ht =>
    cases c with
    | release => cases ha
    | getJob skip | pulse n => exact put t _ rfl
  | thread t i sh th hp => exact put t th (threadStep_releases (hn t) hp)
  | die t sh ha hp | cancel t sh ha hp => exact put t _ rfl

end Unreleased

end GraphileWorker.LocalQueue
