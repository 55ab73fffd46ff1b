import GraphileWorker.Database.Statement
import GraphileWorker.Hooks.Interceptor

/-! # Recovering one interrupted job

`apply_job_recovery` asks the hooks and issues up to two statements. The one that sets the
schedule of a rescheduled job looks at the id alone.
-/
namespace GraphileWorker.Recovery
open Foundation Database Hooks

def recoveryLastError : String := "Job recovered after worker interruption"

def setSchedule (now runAt : Time) (attempts : Option ℤ) (r : Job) : Job :=
  { r with runAt := runAt, attempts := attempts.getD r.attempts, updatedAt := now }

theorem rowId_setSchedule (now runAt : Time) (attempts : Option ℤ) (r : Job) :
    rowId (setSchedule now runAt attempts r) = rowId r := rfl

def setRecoveredJobSchedule (db : Db) (jobId : JobId) (runAt : Time) (attempts : Option ℤ) (now : Time) : Db :=
  db.updateJobs (fun r => r.id == jobId) (setSchedule now runAt attempts) (rowId_setSchedule now runAt attempts)

/-- The statements a worker or an operator can issue, with the one that only recovery issues. -/
inductive RecoveryStatement
  | plain (st : Statement)
  | setRecoveredJobSchedule (jobId : JobId) (runAt : Time) (attempts : Option ℤ)

def RecoveryStatement.run (db : Db) (now : Time) : RecoveryStatement → Db
  | .plain st => st.run db now
  | .setRecoveredJobSchedule jobId runAt attempts =>
    Recovery.setRecoveredJobSchedule db jobId runAt attempts now

/-- `job` is the row as it was read, `recoveryDelayMs` the delay in whole milliseconds. -/
structure JobRecoveryRequest where
  hooks : Option HookRegistry
  workerId : WorkerId
  job : Job
  previousWorkerId : WorkerId
  reason : FailureReason
  recoveryDelayMs : ℤ

inductive JobRecoveryOutcome
  | recovered
  | failedWithBackoff
  | skipped
  deriving DecidableEq

def JobRecoveryOutcome.wasHandled : JobRecoveryOutcome → Bool
  | .skipped => false
  | _ => true

namespace JobRecoveryRequest

/-- What the hooks decide; an empty registry is not asked. -/
def action (req : JobRecoveryRequest) : JobRecoveryResult :=
  match req.hooks with
  | none => .default
  | some hooks =>
    if hooks.isEmpty then .default
    else hooks.interceptJobRecovery ⟨req.job,req.workerId,req.previousWorkerId,req.reason⟩

def outcome (req : JobRecoveryRequest) : JobRecoveryOutcome :=
  match req.action with
  | .default => .recovered
  | .reschedule _ _ => .recovered
  | .failWithBackoff => .failedWithBackoff
  | .skip => .skipped

def statements (req : JobRecoveryRequest) : List RecoveryStatement :=
  match req.action with
  | .default =>
    [.plain (.privateReturnJobs req.previousWorkerId [req.job.id]
      ⟨some req.recoveryDelayMs,some recoveryLastError,true⟩)]
  | .reschedule runAt attempts =>
    [.plain (.privateReturnJobs req.previousWorkerId [req.job.id] ⟨none,some recoveryLastError,true⟩),
      .setRecoveredJobSchedule req.job.id runAt attempts]
  | .failWithBackoff => [.plain (.failJob req.previousWorkerId req.job req.reason.toText none)]
  | .skip => []

end JobRecoveryRequest

/-- `apply_job_recovery` when nothing runs between its statements. -/
def applyJobRecovery (db : Db) (now : Time) (req : JobRecoveryRequest) : Db × JobRecoveryOutcome :=
  match req.action with
  | .default =>
    (returnJobForRecovery db req.job req.previousWorkerId now (some req.recoveryDelayMs)
      (some recoveryLastError),.recovered)
  | .reschedule runAt attempts =>
    (setRecoveredJobSchedule
      (returnJobForRecovery db req.job req.previousWorkerId now none (some recoveryLastError))
      req.job.id runAt attempts now,.recovered)
  | .failWithBackoff =>
    (failJob db req.job req.previousWorkerId now req.reason.toText none,.failedWithBackoff)
  | .skip => (db,.skipped)

variable {db : Db} {now : Time} {req : JobRecoveryRequest}

theorem wasHandled_outcome : req.outcome.wasHandled = false ↔ req.action = .skip := by
  unfold JobRecoveryRequest.outcome
  cases req.action <;> simp [JobRecoveryOutcome.wasHandled]

def SameRows (db db' : Db) : Prop :=
  db'.jobs.rows = db.jobs.rows ∧ db'.jobQueues.rows = db.jobQueues.rows

theorem SameRows.refl (db : Db) : SameRows db db := ⟨rfl,rfl⟩

theorem sameRows_updateJobs {p : Job → Bool} {f : Job → Job} {hf : ∀ r, rowId (f r) = rowId r} :
    SameRows db (db.updateJobs p f hf) ↔ ∀ r ∈ db.jobs.rows, p r = true → f r = r := by
  have hmap : db.jobs.rows.map (fun r => if p r then f r else r) = db.jobs.rows.map id ↔
      ∀ r ∈ db.jobs.rows, p r = true → f r = r := by
    rw [List.map_inj_left]
    simp
  rw [List.map_id] at hmap
  exact ⟨fun h => hmap.mp h.1,fun h => ⟨hmap.mpr h,rfl⟩⟩

variable {σ : ℕ → Db} {τ : ℕ → Time}

/-- Once the claim is lost the guarded statements do nothing; the one that sets
the schedule reaches the row whoever holds it. -/
theorem rows_kept_iff (hσ : ∀ k, lockedAs (σ k) req.previousWorkerId req.job.id = false) :
    (∀ k st, req.statements[k]? = some st → SameRows (σ k) (st.run (σ k) (τ k))) ↔
      ∀ runAt attempts, req.action = .reschedule runAt attempts →
        ∀ r ∈ (σ 1).jobs.rows, r.id = req.job.id → setSchedule (τ 1) runAt attempts r = r := by
  have hreturn : ∀ k o, privateReturnJobs (σ k) req.previousWorkerId [req.job.id] (τ k) o = σ k :=
    fun k o => privateReturnJobs_of_not_lockedAs _ (by simpa using hσ k)
  unfold JobRecoveryRequest.statements
  cases ha : req.action with
  | default =>
    refine iff_of_true ?_ (by simp)
    intro k st hst
    rw [List.mem_singleton.mp (List.mem_of_getElem? hst)]
    simp only [RecoveryStatement.run,Statement.run,hreturn]
    exact .refl _
  | reschedule runAt attempts =>
    have hset : SameRows (σ 1) (setRecoveredJobSchedule (σ 1) req.job.id runAt attempts (τ 1)) ↔
        ∀ r ∈ (σ 1).jobs.rows, r.id = req.job.id → setSchedule (τ 1) runAt attempts r = r := by
      unfold setRecoveredJobSchedule
      rw [sameRows_updateJobs]
      simp
    constructor
    · intro h runAt' attempts' he
      cases he
      exact hset.mp (h 1 _ rfl)
    · intro h k st hst
      match k, hst with
      | 0, hst =>
        cases hst
        simp only [RecoveryStatement.run,Statement.run,hreturn]
        exact .refl _
      | 1, hst =>
        cases hst
        exact hset.mpr (h runAt attempts rfl)
  | failWithBackoff =>
    refine iff_of_true ?_ (by simp)
    intro k st hst
    rw [List.mem_singleton.mp (List.mem_of_getElem? hst)]
    simp only [RecoveryStatement.run,Statement.run,failJob_of_not_lockedAs (hσ k)]
    exact .refl _
  | skip => simp

/-- The rows are left alone exactly when no reschedule writes the row, and the job is not counted exactly when
the hooks skip it; `σ k` is the state the steps of others have led to. -/
theorem lost_claim_left_alone_iff (req : JobRecoveryRequest) (σ : ℕ → Db) (τ : ℕ → Time)
    (hσ : ∀ k, lockedAs (σ k) req.previousWorkerId req.job.id = false) :
    ((∀ k st, req.statements[k]? = some st → SameRows (σ k) (st.run (σ k) (τ k))) ↔
      ∀ runAt attempts, req.action = .reschedule runAt attempts →
        ∀ r ∈ (σ 1).jobs.rows, r.id = req.job.id → setSchedule (τ 1) runAt attempts r = r) ∧
    ((∀ k st, req.statements[k]? = some st → SameRows (σ k) (st.run (σ k) (τ k))) ∧
      req.outcome.wasHandled = false ↔ req.action = .skip) := by
  refine ⟨rows_kept_iff hσ,?_⟩
  rw [wasHandled_outcome,rows_kept_iff hσ]
  constructor
  · exact And.right
  · intro ha
    refine ⟨?_,ha⟩
    intro runAt attempts he
    rw [ha] at he
    cases he

/-- Worker `dead` claims a job, its locks are removed, and `live` claims the job. -/
def reclaimed : Db :=
  after [(0,.addJob ⟨"task",.null,{}⟩ none),(1,.getJobWithFilter "dead" [1] .unrestricted),
    (2,.forceUnlockWorkers ["dead"]),(3,.getJobWithFilter "live" [1] .unrestricted)]

def readJob : Job where
  id := 1
  jobQueueId := none
  taskId := 1
  payload := .null
  priority := 0
  runAt := 0
  attempts := 1
  maxAttempts := 25
  lastError := none
  createdAt := 0
  updatedAt := 0
  key := none
  lock := some ⟨1,"dead"⟩
  revision := 0
  flags := none

def sweepRequest (answer : JobRecoveryResult) : JobRecoveryRequest where
  hooks := some { jobRecovery := [fun _ => answer] }
  workerId := "sweeper"
  job := readJob
  previousWorkerId := "dead"
  reason := .workerCrashed
  recoveryDelayMs := 0

theorem skipped_claim_left_alone :
    (∀ (k : ℕ) (st : RecoveryStatement), (sweepRequest .skip).statements[k]? = some st →
      SameRows reclaimed (st.run reclaimed 4)) ∧
      (sweepRequest .skip).outcome.wasHandled = false :=
  (lost_claim_left_alone_iff (sweepRequest .skip) (fun _ => reclaimed) (fun _ => 4)
    (fun _ => by decide)).2.mpr rfl

/-- A reschedule takes two attempts off the job that `live` is running; with each of the other answers the job
counts as recovered. -/
theorem reclaimed_job_rescheduled :
    lockedAs reclaimed "dead" 1 = false ∧ lockedAs reclaimed "live" 1 = true ∧
    reclaimed.jobs.rows.map (fun r => (r.attempts,r.runAt)) = [(2,0)] ∧
    (applyJobRecovery reclaimed 4 (sweepRequest (.reschedule 9 (some 0)))).1.jobs.rows.map
      (fun r => (r.attempts,r.runAt,r.lockedBy)) = [(0,9,some "live")] ∧
    ∀ answer ∈ [JobRecoveryResult.default,.reschedule 9 (some 0),.failWithBackoff],
      (applyJobRecovery reclaimed 4 (sweepRequest answer)).2.wasHandled = true := by
  decide

end GraphileWorker.Recovery
