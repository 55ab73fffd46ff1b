import GraphileWorker.Runtime.Notify
import Mathlib.Logic.Function.Basic

/-! # State of a local queue and of the tasks that work on it

`Shared` holds the fields of `LocalQueueState`, with the locks that a task keeps across an
await point. Sections under a lock without awaiting are one step, so their lock is not recorded.
-/
namespace GraphileWorker.LocalQueue
open GraphileWorker.Runtime

abbrev Tid := ℕ

inductive Mode
  | starting
  | polling
  | waiting
  | ttlExpired
  | released
  deriving DecidableEq

/-- One job in one result of the batch query, numbered in the order of the results. -/
structure Claim (J : Type) where
  seq : ℕ
  job : J
  deriving DecidableEq

structure RefetchDelayConfig where
  threshold : ℕ := 0
  maxAbortThreshold : Option ℕ := none

structure Config where
  size : ℕ := 100
  continuous : Bool := true
  refetchDelay : Option RefetchDelayConfig := none

def usizeMax : ℕ := 2 ^ 64 - 1

/-- `RETURN_JOBS_RETRY_OPTIONS.max_attempts`. -/
def maxReturnAttempts : ℕ := 20

structure Shared (J : Type) where
  mode : Mode := .starting
  jobQueue : List (Claim J) := []
  pending : List (Claim J) := []
  permit : Bool := false
  ttlReturnComplete : Bool := false
  fetchInProgress : Bool := false
  fetchAgain : Bool := false
  delayActive : Bool := false
  delayFetchOnComplete : Bool := false
  delayCounter : ℕ := 0
  abortThreshold : ℕ := usizeMax
  stateNotify : Notify := {}
  abortNotify : Notify := {}
  runCompleteNotify : Notify := {}
  runComplete : Bool := false
  releaseComplete : Bool := false
  ttlTimerTask : Option Tid := none
  refetchDelayTask : Option Tid := none
  /-- Tasks on which `abort` was called. -/
  aborted : List Tid := []
  /-- Direct fetches that hold a read guard of the mode. -/
  modeReaders : List Tid := []
  jobQueueLock : Option Tid := none
  pendingLock : Option Tid := none
  releaseLock : Option Tid := none
  -- what has become of the claims, kept for the statements only
  issued : List (Claim J) := []
  handed : List (Tid × Claim J) := []
  acked : List (Claim J) := []

/-- The fetch loop: `run`, `schedule_fetch`, `fetch`, `start_refetch_delay` and
`received_jobs`. A counter with `Notify` in its name stands before the call. -/
inductive LoopPc (J : Type)
  | start
  | startNotify
  | top
  | checked (m : Mode)
  | unfetchable (m : Mode)
  | created (b : ℕ)
  | parked (b : ℕ)
  | fetchTry
  | fetchStart
  | fetchDelayCheck
  | bailSet
  | bailEnd
  | bailNotify
  | fetchClear
  | fetchReset
  | fetchSql
  | fetchDropGuard (r : Option (List (Claim J)))
  | fetchEnd (r : Option (List (Claim J)))
  | fetchNotify (r : Option (List (Claim J)))
  | delayThreshold (jobs : List (Claim J))
  | delayActivate (jobs : List (Claim J))
  | delayForget (jobs : List (Claim J))
  | delaySpawn (jobs : List (Claim J))
  | delayReplace (t : Tid) (jobs : List (Claim J))
  | append (jobs : List (Claim J))
  | setWaiting (fetchedMax : Bool)
  | waitingNotify (fetchedMax : Bool)
  | spawnTtl (fetchedMax : Bool)
  | replaceTtl (t : Tid) (fetchedMax : Bool)
  | setAgain
  | setReleased (last : Bool)
  | releasedNotify (last : Bool)
  | afterFetch
  | takeAgain
  | takeDelay (again : Bool)
  | armSleep
  | select (b : ℕ)
  | selectParked (b : ℕ)
  | finish
  | finishNotify
  | done

inductive Caller
  | ttl
  | release
  deriving DecidableEq

inductive ReturnPc
  | lock
  | begin
  | drain
  /-- The statement of one attempt is in flight. -/
  | sql (attempt : ℕ) (committed : Bool)
  | backoff (attempt : ℕ)
  | emitting
  | returned
  deriving DecidableEq

inductive Outcome (J : Type)
  | job (c : Option (Claim J))
  | direct (j : Option J)
  | released (ok : Bool)
  | cancelled
  | ended
  deriving DecidableEq

inductive Thread (J : Type)
  | idle
  | finished (o : Outcome J)
  -- `get_job`
  | getJob (skip : Bool)
  | direct
  | directMode
  | directSql
  | cache
  | cacheChecked (m : Mode)
  | cacheSetPolling
  | cacheNotify
  | cacheLock
  | cachePop
  | drained (c : Claim J)
  | drainedNotify (c : Claim J)
  -- the TTL timer task
  | timerSleep
  | timerRead
  | timerExpire
  | returning (who : Caller) (pc : ReturnPc)
  -- `release`
  | releaseStart
  | releaseMode
  | releaseDelay
  | releaseAbortNotify
  | releaseStateNotify
  | releaseTimer
  | releaseWait
  | releaseCheck (b : ℕ)
  | releaseCreated (b : ℕ)
  | releaseParked (b : ℕ)
  | releaseTimerAgain
  | releaseDelayTask
  -- the refetch delay task
  | delayStart
  | delayCreated (b : ℕ)
  | delayParked (b : ℕ)
  | delayClear (aborted : Bool) (held : Option ℕ)
  | delayNotify (aborted : Bool) (held : Option ℕ)
  | delayAborted
  | delayExpired (held : Option ℕ)
  -- `pulse`
  | pulse (count : ℕ)
  | pulseActive
  | pulseCounter
  | pulseCompare (count : ℕ)
  | pulseAbortNotify
  | pulseMode
  | pulsePolling
  | pulseDelay
  | pulseAgain
  | pulseNotify

structure State (J : Type) where
  sh : Shared J := {}
  loop : LoopPc J := .start
  thr : Tid → Thread J := fun _ => .idle

/-- A claim statement of the queue is in flight. -/
def State.claiming {J : Type} (s : State J) : Prop := s.loop = .fetchSql ∨ ∃ t, s.thr t = .directSql

def LoopPc.isFetchSql {J : Type} : LoopPc J → Bool
  | .fetchSql => true
  | _ => false

def Thread.isDirectSql {J : Type} : Thread J → Bool
  | .directSql => true
  | _ => false

theorem LoopPc.isFetchSql_iff {J : Type} {pc : LoopPc J} : pc.isFetchSql = true ↔ pc = .fetchSql := by
  cases pc <;> simp [LoopPc.isFetchSql]

theorem Thread.isDirectSql_iff {J : Type} {th : Thread J} : th.isDirectSql = true ↔ th = .directSql := by
  cases th <;> simp [Thread.isDirectSql]

def LoopPc.waitsAt {J : Type} : LoopPc J → Option ℕ
  | .parked b | .selectParked b => some b
  | _ => none

/-- What the environment decides in a step. -/
inductive Input (J : Type)
  | tick
  | boundary (ok : Bool)
  /-- The answer of the batch query, `none` for an error. -/
  | batch (r : Option (List J))
  | single (r : Option J)
  | elapsed
  | threshold (n : ℕ)
  | commit
  | response (ok : Bool)
  deriving DecidableEq

inductive Call
  | getJob (skip : Bool)
  | release
  | pulse (count : ℕ)
  deriving DecidableEq

inductive Action (J : Type)
  | loop (i : Input J)
  | spawnTimer (t : Tid)
  | spawnDelay (t : Tid)
  | start (t : Tid) (c : Call)
  | thread (t : Tid) (i : Input J)
  /-- An aborted task is dropped at an await point. -/
  | die (t : Tid)
  /-- The caller drops a release future at an await point. -/
  | cancel (t : Tid)
  deriving DecidableEq

end GraphileWorker.LocalQueue
