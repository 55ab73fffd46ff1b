import GraphileWorker.Recovery.Jobs
import GraphileWorker.Batcher.Flush
import Mathlib.Data.List.Perm.Basic

/-! # `run_once`

The stream of first jobs, the slots with their follow-up fetches, the batchers and the database.
A fetch is issued, executed and answered in separate steps. No branch reads the ledgers `claims`,
`ran` and `returned`, except that a claim is numbered by its place in `claims`.
-/
namespace GraphileWorker.RunOnce
open Foundation Database Hooks Recovery Batcher

structure Config where
  workerId : WorkerId
  taskIds : List TaskId
  filter : JobFlagFilter
  /-- Zero means no limit. -/
  concurrency : ℕ
  completionBatcher : Bool
  failureBatcher : Bool
  hooks : HookRegistry
  interruptedJobRetryDelayMs : ℤ

/-- A job whose claim has committed on behalf of this run. -/
structure Claim where
  number : ℕ
  job : Job

/-- One call of `get_job_with_filter` that has not been answered yet. -/
inductive Query
  | issued
  | executed (claim : Option Claim)
  | failed

inductive Stream
  | idle
  | fetching (query : Query)
  | ended

/-- One iteration of the loop of a slot; a fetching slot has last run `last`. -/
inductive Slot
  | starting (claim : Claim)
  | returning (claim : Claim)
  | running (claim : Claim)
  | released (last : Claim)
  | reading (last : Claim)
  | fetching (last : Claim) (query : Query)

inductive Outcome
  | completed
  | failed (error : String) (replacementPayload : Option Json)
  | aborted

structure State where
  db : Db
  stream : Stream := .idle
  slots : List Slot := []
  /-- Completions of queued jobs that the batcher has accepted, and of the others. -/
  queued : List CompletionRequest := []
  unqueued : List CompletionRequest := []
  failures : List FailedJob := []
  fetchFailed : Bool := false
  /-- Whether an error was recorded; the first one is what the run returns. -/
  runError : Bool := false
  shutdown : Bool := false
  /-- Fetches that were dropped before the database executed them. -/
  orphans : ℕ := 0
  finished : Bool := false
  claims : List Job := []
  ran : List ℕ := []
  returned : List ℕ := []

/-- `ok` says that the database executes the statement, `lost` that an error comes
back in place of the answer, `closed` that the batcher no longer accepts. -/
inductive SlotAction
  | start
  | returnClaim (ok : Bool)
  | finish (outcome : Outcome) (closed ok : Bool)
  | next
  | issue
  | execute (ok : Bool)
  | reply (lost : Bool)

inductive Action
  | others (db : Db)
  | shutdown
  | pollStream
  | executeStream (ok : Bool)
  | replyStream (lost : Bool)
  /-- The shutdown signal wins against the fetch of the stream. -/
  | cancelStream
  | executeOrphan
  | slot (k : ℕ) (action : SlotAction)
  /-- One statement of a batcher, for the first `n` requests it accepted. -/
  | flushQueued (n : ℕ) (ok : Bool)
  | flushUnqueued (n : ℕ) (ok : Bool)
  | flushFailures (n : ℕ)
  /-- The fallback for the first failure of a batch whose statement failed. -/
  | failDirect (ok : Bool)
  | finish

abbrev Event := Time × Action

namespace State

def claimJob (cfg : Config) (now : Time) (s : State) : State × Option Claim :=
  match getJobWithFilter s.db cfg.taskIds cfg.workerId cfg.filter now with
  | (db,none) => ({ s with db := db },none)
  | (db,some job) => ({ s with db := db, claims := s.claims ++ [job] },some ⟨s.claims.length,job⟩)

def executeQuery (cfg : Config) (now : Time) (s : State) (ok : Bool) : State × Query :=
  if ok then ((s.claimJob cfg now).1,.executed (s.claimJob cfg now).2) else (s,.failed)

/-- A fetch error stops both sources and is recorded. -/
def failFetch (s : State) : State := { s with fetchFailed := true, runError := true }

def write (s : State) (ok : Bool) (db : Db) : State := if ok then { s with db := db } else { s with runError := true }

def releaseCompleted (cfg : Config) (s : State) (job : Job) (closed ok : Bool) : State :=
  if cfg.completionBatcher && !closed then
    if job.jobQueueId.isSome then { s with queued := s.queued ++ [⟨job.id,true⟩] }
    else { s with unqueued := s.unqueued ++ [⟨job.id,false⟩] }
  else s.write ok (completeJob s.db job cfg.workerId)

/-- `release_failed_job` for a task that was not aborted. -/
def releaseFailed (cfg : Config) (now : Time) (s : State) (job : Job) (error : String)
    (replacementPayload : Option Json) (closed ok : Bool) : State :=
  if replacementPayload.isNone && cfg.failureBatcher && !closed then
    { s with failures := s.failures ++ [⟨job,error⟩] }
  else s.write ok (failJob s.db job cfg.workerId now error replacementPayload)

/-- `recover_shutdown_aborted_job`. -/
def releaseAborted (cfg : Config) (now : Time) (s : State) (job : Job) (ok : Bool) : State :=
  s.write ok (applyJobRecovery s.db now ⟨some cfg.hooks,cfg.workerId,job,cfg.workerId,.shutdownAborted,
    cfg.interruptedJobRetryDelayMs⟩).1

/-- `release_job`; a task is aborted and a batcher closes only after a shutdown signal. -/
def release (cfg : Config) (now : Time) (s : State) (job : Job) (outcome : Outcome) (closed ok : Bool) :
    Option State :=
  if closed && !s.shutdown then none
  else match outcome with
    | .completed => some (s.releaseCompleted cfg job closed ok)
    | .failed error replacementPayload => some (s.releaseFailed cfg now job error replacementPayload closed ok)
    | .aborted => if s.shutdown then some (s.releaseAborted cfg now job ok) else none

end State

/-- What a slot does next: the shared state and the slot afterwards, which is gone when its loop ends. -/
def slotStep (cfg : Config) (now : Time) (s : State) : Slot → SlotAction → Option (State × Option Slot)
  | .starting c, .start =>
    if s.fetchFailed then some ({ s with returned := s.returned ++ [c.number] },some (.returning c))
    else some ({ s with ran := s.ran ++ [c.number] },some (.running c))
  | .returning c, .returnClaim ok => some (s.write ok (returnJobs s.db [c.job] cfg.workerId now),none)
  | .running c, .finish outcome closed ok =>
    (s.release cfg now c.job outcome closed ok).map fun s' => (s',some (.released c))
  | .released c, .next =>
    if !c.job.jobQueueId.isSome || s.fetchFailed then some (s,none) else some (s,some (.reading c))
  | .reading c, .issue => if s.fetchFailed then some (s,none) else some (s,some (.fetching c .issued))
  | .fetching c .issued, .execute ok =>
    some ((s.executeQuery cfg now ok).1,some (.fetching c (s.executeQuery cfg now ok).2))
  | .fetching _ (.executed claim), .reply lost =>
    if lost then some (s.failFetch,none) else some (s,claim.map .starting)
  | .fetching _ .failed, .reply _ => some (s.failFetch,none)
  | _, _ => none

def takeSlot (slots : List Slot) (k : ℕ) : Option (Slot × List Slot) :=
  slots[k]?.map fun slot => (slot,slots.eraseIdx k)

def step (cfg : Config) (s : State) : Event → Option State
  | (_,.others db) => some { s with db := db }
  | (_,.shutdown) => some { s with shutdown := true }
  | (_,.pollStream) =>
    match s.stream with
    | .idle =>
      if cfg.concurrency = 0 ∨ s.slots.length < cfg.concurrency then
        if s.fetchFailed then some { s with stream := .ended } else some { s with stream := .fetching .issued }
      else none
    | _ => none
  | (now,.executeStream ok) =>
    match s.stream with
    | .fetching .issued =>
      some { (s.executeQuery cfg now ok).1 with stream := .fetching (s.executeQuery cfg now ok).2 }
    | _ => none
  | (_,.replyStream lost) =>
    match s.stream with
    | .fetching (.executed claim) =>
      if lost then some { s.failFetch with stream := .ended }
      else match claim with
        | none => some { s with stream := .ended }
        | some c => some { s with stream := .idle, slots := .starting c :: s.slots }
    | .fetching .failed => some { s.failFetch with stream := .ended }
    | _ => none
  | (_,.cancelStream) =>
    if s.shutdown then
      match s.stream with
      | .fetching .issued => some { s with stream := .ended, orphans := s.orphans + 1 }
      | .fetching _ => some { s with stream := .ended }
      | _ => none
    else none
  | (now,.executeOrphan) =>
    if s.orphans = 0 then none else some { (s.claimJob cfg now).1 with orphans := s.orphans - 1 }
  | (now,.slot k action) =>
    (takeSlot s.slots k).bind fun p =>
      (slotStep cfg now { s with slots := p.2 } p.1 action).map fun r =>
        { r.1 with slots := r.2.toList ++ r.1.slots }
  | (_,.flushQueued n ok) =>
    some { s with
      db := if ok then completeJobsWithQueues s.db cfg.workerId ((s.queued.take n).map CompletionRequest.jobId)
        else s.db
      queued := s.queued.drop n }
  | (_,.flushUnqueued n ok) =>
    some { s with
      db := if ok then completeJobsWithoutQueues s.db ((s.unqueued.take n).map CompletionRequest.jobId) else s.db
      unqueued := s.unqueued.drop n }
  | (now,.flushFailures n) =>
    some { s with db := failJobs s.db (s.failures.take n) cfg.workerId now, failures := s.failures.drop n }
  | (now,.failDirect ok) =>
    match s.failures with
    | [] => none
    | f :: rest => some { s with
        db := if ok then failJob s.db f.job cfg.workerId now f.error none else s.db
        failures := rest }
  | (_,.finish) =>
    match s.stream, s.slots with
    | .ended, [] => if s.finished then none else some { s with finished := true }
    | _, _ => none

variable {cfg : Config} {now : Time} {s t : State} {outcome : Outcome} {slot : Slot}

structure ReleaseFrame (s t : State) : Prop where
  stream : t.stream = s.stream
  slots : t.slots = s.slots
  shutdown : t.shutdown = s.shutdown
  orphans : t.orphans = s.orphans
  claims : t.claims = s.claims
  ran : t.ran = s.ran
  returned : t.returned = s.returned
  runError : s.runError = true → t.runError = true

theorem ReleaseFrame.write {ok : Bool} {db : Db} : ReleaseFrame s (s.write ok db) := by
  unfold State.write
  split
  · exact ⟨rfl,rfl,rfl,rfl,rfl,rfl,rfl,id⟩
  · exact ⟨rfl,rfl,rfl,rfl,rfl,rfl,rfl,fun _ => rfl⟩

theorem release_cases {job : Job} {closed ok : Bool} (h : s.release cfg now job outcome closed ok = some t) :
    (outcome = .completed ∧ t = s.releaseCompleted cfg job closed ok) ∨
    (∃ error payload, outcome = .failed error payload ∧ t = s.releaseFailed cfg now job error payload closed ok) ∨
    (outcome = .aborted ∧ s.shutdown = true ∧ t = s.releaseAborted cfg now job ok) := by
  obtain ⟨_,h⟩ := Option.ite_none_left_eq_some.mp h
  cases outcome with
  | completed =>
    cases h
    exact .inl ⟨rfl,rfl⟩
  | failed error payload =>
    cases h
    exact .inr (.inl ⟨error,payload,rfl,rfl⟩)
  | aborted =>
    obtain ⟨hs,h⟩ := Option.ite_none_right_eq_some.mp h
    cases h
    exact .inr (.inr ⟨rfl,hs,rfl⟩)

theorem ReleaseFrame.release {job : Job} {closed ok : Bool}
    (h : s.release cfg now job outcome closed ok = some t) : ReleaseFrame s t := by
  rcases release_cases h with ⟨_,rfl⟩ | ⟨error,payload,_,rfl⟩ | ⟨_,_,rfl⟩
  · unfold State.releaseCompleted
    split
    · split <;> exact ⟨rfl,rfl,rfl,rfl,rfl,rfl,rfl,id⟩
    · exact .write
  · unfold State.releaseFailed
    split
    · exact ⟨rfl,rfl,rfl,rfl,rfl,rfl,rfl,id⟩
    · exact .write
  · exact .write

inductive SlotStepped (cfg : Config) (now : Time) (s : State) : Slot → SlotAction → State → Option Slot → Prop
  | startReturn (c : Claim) (hf : s.fetchFailed = true) :
      SlotStepped cfg now s (.starting c) .start { s with returned := s.returned ++ [c.number] } (some (.returning c))
  | startRun (c : Claim) (hf : s.fetchFailed = false) :
      SlotStepped cfg now s (.starting c) .start { s with ran := s.ran ++ [c.number] } (some (.running c))
  | returnClaim (c : Claim) (ok : Bool) :
      SlotStepped cfg now s (.returning c) (.returnClaim ok)
        (s.write ok (returnJobs s.db [c.job] cfg.workerId now)) none
  | finish (c : Claim) (outcome : Outcome) (closed ok : Bool) (t : State)
      (h : s.release cfg now c.job outcome closed ok = some t) :
      SlotStepped cfg now s (.running c) (.finish outcome closed ok) t (some (.released c))
  | nextEnd (c : Claim) (h : c.job.jobQueueId = none ∨ s.fetchFailed = true) :
      SlotStepped cfg now s (.released c) .next s none
  | next (c : Claim) (hq : c.job.jobQueueId.isSome = true) (hf : s.fetchFailed = false) :
      SlotStepped cfg now s (.released c) .next s (some (.reading c))
  | issueEnd (c : Claim) (hf : s.fetchFailed = true) : SlotStepped cfg now s (.reading c) .issue s none
  | issue (c : Claim) (hf : s.fetchFailed = false) :
      SlotStepped cfg now s (.reading c) .issue s (some (.fetching c .issued))
  | execute (c : Claim) (ok : Bool) :
      SlotStepped cfg now s (.fetching c .issued) (.execute ok) (s.executeQuery cfg now ok).1
        (some (.fetching c (s.executeQuery cfg now ok).2))
  | lost (c : Claim) (claim : Option Claim) :
      SlotStepped cfg now s (.fetching c (.executed claim)) (.reply true) s.failFetch none
  | replyNone (c : Claim) : SlotStepped cfg now s (.fetching c (.executed none)) (.reply false) s none
  | replySome (c c' : Claim) :
      SlotStepped cfg now s (.fetching c (.executed (some c'))) (.reply false) s (some (.starting c'))
  | replyFailed (c : Claim) (lost : Bool) :
      SlotStepped cfg now s (.fetching c .failed) (.reply lost) s.failFetch none

theorem slotStep_cases {a : SlotAction} {slot' : Option Slot} :
    slotStep cfg now s slot a = some (t,slot') → SlotStepped cfg now s slot a t slot' := by
  fun_cases slotStep cfg now s slot a <;> intro h <;> try cases h
  case case1 c hf => exact .startReturn c hf
  case case2 c hf => exact .startRun c (eq_false_of_ne_true hf)
  case case3 => exact .returnClaim _ _
  case case4 =>
    obtain ⟨s',hs',he⟩ := Option.map_eq_some_iff.mp h
    cases he
    exact .finish _ _ _ _ _ hs'
  case case5 c he => exact .nextEnd c (by simpa using he)
  case case6 c he =>
    simp only [Bool.or_eq_true,not_or,Bool.not_eq_true,Bool.not_eq_false'] at he
    exact .next c he.1 he.2
  case case7 c hf => exact .issueEnd c hf
  case case8 c hf => exact .issue c (eq_false_of_ne_true hf)
  case case9 => exact .execute _ _
  case case10 c claim => exact .lost c claim
  case case11 c claim lost hl =>
    obtain rfl := eq_false_of_ne_true hl
    cases claim with
    | none => exact .replyNone c
    | some c' => exact .replySome c c'
  case case12 => exact .replyFailed _ _

theorem takeSlot_perm {slots rest : List Slot} {k : ℕ} (h : takeSlot slots k = some (slot,rest)) :
    slots.Perm (slot :: rest) := by
  obtain ⟨s,hs,he⟩ := Option.map_eq_some_iff.mp h
  cases he
  obtain ⟨hk,rfl⟩ := List.getElem?_eq_some_iff.mp hs
  exact (List.getElem_cons_eraseIdx_perm hk).symm

inductive Stepped (cfg : Config) (s : State) : Event → State → Prop
  | others (now : Time) (db : Db) : Stepped cfg s (now,.others db) { s with db := db }
  | shutdown (now : Time) : Stepped cfg s (now,.shutdown) { s with shutdown := true }
  | pollEnd (now : Time) (hst : s.stream = .idle) (hroom : cfg.concurrency = 0 ∨ s.slots.length < cfg.concurrency)
      (hf : s.fetchFailed = true) :
      Stepped cfg s (now,.pollStream) { s with stream := .ended }
  | poll (now : Time) (hst : s.stream = .idle) (hroom : cfg.concurrency = 0 ∨ s.slots.length < cfg.concurrency)
      (hf : s.fetchFailed = false) :
      Stepped cfg s (now,.pollStream) { s with stream := .fetching .issued }
  | executeStream (now : Time) (ok : Bool) (hst : s.stream = .fetching .issued) :
      Stepped cfg s (now,.executeStream ok)
        { (s.executeQuery cfg now ok).1 with stream := .fetching (s.executeQuery cfg now ok).2 }
  | lostStream (now : Time) (claim : Option Claim) (hst : s.stream = .fetching (.executed claim)) :
      Stepped cfg s (now,.replyStream true) { s.failFetch with stream := .ended }
  | streamEnd (now : Time) (hst : s.stream = .fetching (.executed none)) :
      Stepped cfg s (now,.replyStream false) { s with stream := .ended }
  | streamJob (now : Time) (c : Claim) (hst : s.stream = .fetching (.executed (some c))) :
      Stepped cfg s (now,.replyStream false) { s with stream := .idle, slots := .starting c :: s.slots }
  | failedStream (now : Time) (lost : Bool) (hst : s.stream = .fetching .failed) :
      Stepped cfg s (now,.replyStream lost) { s.failFetch with stream := .ended }
  | cancelIssued (now : Time) (hs : s.shutdown = true) (hst : s.stream = .fetching .issued) :
      Stepped cfg s (now,.cancelStream) { s with stream := .ended, orphans := s.orphans + 1 }
  | cancelAnswered (now : Time) (query : Query) (hs : s.shutdown = true) (hst : s.stream = .fetching query) :
      Stepped cfg s (now,.cancelStream) { s with stream := .ended }
  | executeOrphan (now : Time) (ho : s.orphans ≠ 0) :
      Stepped cfg s (now,.executeOrphan) { (s.claimJob cfg now).1 with orphans := s.orphans - 1 }
  | slot (now : Time) (k : ℕ) (a : SlotAction) (slot : Slot) (rest : List Slot) (t : State) (slot' : Option Slot)
      (hk : s.slots[k]? = some slot) (hp : s.slots.Perm (slot :: rest))
      (h : SlotStepped cfg now { s with slots := rest } slot a t slot') :
      Stepped cfg s (now,.slot k a) { t with slots := slot'.toList ++ t.slots }
  | flushQueued (now : Time) (n : ℕ) (ok : Bool) :
      Stepped cfg s (now,.flushQueued n ok) { s with
        db := if ok then completeJobsWithQueues s.db cfg.workerId ((s.queued.take n).map CompletionRequest.jobId)
          else s.db
        queued := s.queued.drop n }
  | flushUnqueued (now : Time) (n : ℕ) (ok : Bool) :
      Stepped cfg s (now,.flushUnqueued n ok) { s with
        db := if ok then completeJobsWithoutQueues s.db ((s.unqueued.take n).map CompletionRequest.jobId) else s.db
        unqueued := s.unqueued.drop n }
  | flushFailures (now : Time) (n : ℕ) :
      Stepped cfg s (now,.flushFailures n)
        { s with db := failJobs s.db (s.failures.take n) cfg.workerId now, failures := s.failures.drop n }
  | failDirect (now : Time) (ok : Bool) (f : FailedJob) (rest : List FailedJob) (hf : s.failures = f :: rest) :
      Stepped cfg s (now,.failDirect ok) { s with
        db := if ok then failJob s.db f.job cfg.workerId now f.error none else s.db
        failures := rest }
  | finish (now : Time) (hst : s.stream = .ended) (hsl : s.slots = []) (hfin : s.finished = false) :
      Stepped cfg s (now,.finish) { s with finished := true }

theorem step_cases {e : Event} : step cfg s e = some t → Stepped cfg s e t := by
  fun_cases step cfg s e <;> intro h <;> try cases h
  case case3 now hst hroom hf => exact .pollEnd now hst hroom hf
  case case4 now hst hroom hf => exact .poll now hst hroom (eq_false_of_ne_true hf)
  case case7 now ok hst => exact .executeStream now ok hst
  case case9 now claim hst => exact .lostStream now claim hst
  case case10 now lost hl hst =>
    obtain rfl := eq_false_of_ne_true hl
    exact .streamEnd now hst
  case case11 now lost hl c hst =>
    obtain rfl := eq_false_of_ne_true hl
    exact .streamJob now c hst
  case case12 now lost hst => exact .failedStream now lost hst
  case case14 now hs hst => exact .cancelIssued now hs hst
  case case15 now hs query _ hst => exact .cancelAnswered now query hs hst
  case case19 now ho => exact .executeOrphan now ho
  case case20 now k a =>
    obtain ⟨⟨slot,rest⟩,hk,h⟩ := Option.bind_eq_some_iff.mp h
    obtain ⟨⟨s',slot'⟩,hs',rfl⟩ := Option.map_eq_some_iff.mp h
    have hget : s.slots[k]? = some slot := by
      obtain ⟨x,hx,he⟩ := Option.map_eq_some_iff.mp hk
      cases he
      exact hx
    exact .slot now k a slot rest s' slot' hget (takeSlot_perm hk) (slotStep_cases hs')
  case case25 now ok f rest hf => exact .failDirect now ok f rest hf
  case case27 now hsl hst hfin => exact .finish now hst hsl (eq_false_of_ne_true hfin)
  -- a write of another worker, the shutdown and the three flushes
  all_goals constructor

end GraphileWorker.RunOnce
