import GraphileWorker.RunOnce.Model

/-! # From the result of a batch handler to the released job

`run_batch_task_from_worker_ctx`, `run_job`, the hooks around it and `release_job`. Errors of a
handler are given by their `Debug` text; `debug` is what it writes for a string.
-/
namespace GraphileWorker.Execution
open Foundation Database Hooks Recovery RunOnce

inductive BatchTaskResult
  | complete
  | failAll (error : String)
  | itemResults (results : List (Except String Unit))

inductive TaskHandlerOutcome
  | complete
  | failed (error : String) (replacementPayload : Option Json)

def isFailed : Except String Unit → Bool
  | .error _ => true
  | .ok _ => false

/-- The items at the positions that failed, and at the others. -/
def failedItems {α : Type} (items : List α) (results : List (Except String Unit)) : List α :=
  ((items.zip results).filter fun p => isFailed p.2).map Prod.fst

def okItems {α : Type} (items : List α) (results : List (Except String Unit)) : List α :=
  ((items.zip results).filter fun p => !isFailed p.2).map Prod.fst

def itemError : Except String Unit × ℕ → Option String
  | (.error error,index) => some (toString index ++ ": " ++ error)
  | (.ok _,_) => none

def batchResultToTaskOutcome (result : BatchTaskResult) (itemCount : ℕ) (itemPayloads : List Json) :
    TaskHandlerOutcome :=
  match result with
  | .complete => .complete
  | .failAll error => .failed error none
  | .itemResults results =>
    if results.length ≠ itemCount then
      .failed ("batch handler returned " ++ toString results.length ++ " results for " ++ toString itemCount ++
        " payload items") none
    else
      let failed := failedItems itemPayloads results
      if failed.isEmpty then .complete
      else .failed (toString failed.length ++ " batch item(s) failed: " ++
        String.intercalate ", " (results.zipIdx.filterMap itemError)) (some (.array failed))

/-- `deserialize` says whether the items have the type of the handler, `result` what it returns for them. -/
def runBatchTaskFromWorkerCtx (deserialize : List Json → Except String Unit) (result : BatchTaskResult) :
    Json → TaskHandlerOutcome
  | .array items =>
    match deserialize items with
    | .error error => .failed error none
    | .ok _ => batchResultToTaskOutcome result items.length items
  | _ => .failed "batch job payload must be a JSON array" none

inductive RunJobError
  | identifierNotFound (taskId : TaskId)
  | fnNotFound (identifier : String)
  | taskPanic (message : String)
  | taskError (message : String)
  | taskErrorWithReplacement (message : String) (replacementPayload : Json)
  | taskAborted

namespace RunJobError

/-- A partial failure is stored as a plain one. -/
def persistedError (debug : String → String) : RunJobError → String
  | .taskErrorWithReplacement message _ => "TaskError(" ++ debug message ++ ")"
  | .identifierNotFound taskId => "IdentifierNotFound(" ++ toString taskId ++ ")"
  | .fnNotFound identifier => "FnNotFound(" ++ debug identifier ++ ")"
  | .taskPanic message => "TaskPanic(" ++ debug message ++ ")"
  | .taskError message => "TaskError(" ++ debug message ++ ")"
  | .taskAborted => "TaskAborted"

def replacementPayload : RunJobError → Option Json
  | .taskErrorWithReplacement _ payload => some payload
  | _ => none

end RunJobError

inductive TaskRun
  | returned (outcome : TaskHandlerOutcome)
  | panicked (message : String)
  | aborted

/-- `isRegistered` says whether the worker has a task for the identifier. -/
def runJob (job : Job) (identifier : String) (isRegistered : String → Bool) (run : TaskRun) :
    Except RunJobError Unit :=
  if identifier.isEmpty then .error (.identifierNotFound job.taskId)
  else if !isRegistered identifier then .error (.fnNotFound identifier)
  else match run with
    | .returned .complete => .ok ()
    | .returned (.failed error (some payload)) => .error (.taskErrorWithReplacement error payload)
    | .returned (.failed error none) => .error (.taskError error)
    | .panicked message => .error (.taskPanic message)
    | .aborted => .error .taskAborted

/-- `after` is the answer of the `AfterJobRun` interceptors. -/
def runWithAfterHook (after : HookResult) (jobResult : Except RunJobError Unit) : Except RunJobError Unit :=
  match after with
  | .proceed => jobResult
  | .skip => .ok ()
  | .fail message => .error (.taskError message)

/-- `before` is the answer of the `BeforeJobRun` interceptors; no hooks answer `Continue`. -/
def runJobWithHooks (before after : HookResult) (jobResult : Except RunJobError Unit) : Except RunJobError Unit :=
  match before with
  | .proceed => runWithAfterHook after jobResult
  | .skip => .ok ()
  | .fail message => .error (.taskError message)

section
variable (debug : String → String) (cfg : Config)

/-- Failures without a replacement payload go through the batcher, if there is one. -/
def releaseFailedJob (now : Time) (db : Db) (job : Job) : RunJobError → Db
  | .taskAborted => (applyJobRecovery db now ⟨some cfg.hooks,cfg.workerId,job,cfg.workerId,.shutdownAborted,
      cfg.interruptedJobRetryDelayMs⟩).1
  | error =>
    if error.replacementPayload.isNone && cfg.failureBatcher then
      failJobs db [⟨job,error.persistedError debug⟩] cfg.workerId now
    else failJob db job cfg.workerId now (error.persistedError debug) error.replacementPayload

def releaseJob (now : Time) (db : Db) (job : Job) : Except RunJobError Unit → Db
  | .ok _ => completeJob db job cfg.workerId
  | .error error => releaseFailedJob debug cfg now db job error

end

variable {db : Db} {cfg : Config} {now : Time} {job : Job} {debug : String → String}

theorem find_completeJob : (completeJob db job cfg.workerId).jobs.find job.id = none := by
  have h : (db.jobs.deleteWhere fun r => [job.id].contains r.id).find job.id = none := by
    rw [IdTable.find_deleteWhere]
    cases hf : db.jobs.find job.id with
    | none => rfl
    | some r => simp [Option.filter,(find_job.mp hf).2]
  unfold completeJob
  split
  · exact h
  · exact h

theorem releaseFailedJob_eq {error : RunJobError} (ha : error ≠ .taskAborted) :
    releaseFailedJob debug cfg now db job error =
      if error.replacementPayload.isNone && cfg.failureBatcher then
        failJobs db [⟨job,error.persistedError debug⟩] cfg.workerId now
      else failJob db job cfg.workerId now (error.persistedError debug) error.replacementPayload := by
  cases error with
  | taskAborted => exact absurd rfl ha
  | _ => rfl

/-- The outcome that a slot of `run_once` releases its job with. -/
def RunJobError.outcome (debug : String → String) : RunJobError → Outcome
  | .taskAborted => .aborted
  | error => .failed (error.persistedError debug) error.replacementPayload

theorem RunJobError.outcome_of_ne {error : RunJobError} (ha : error ≠ .taskAborted) :
    error.outcome debug = .failed (error.persistedError debug) error.replacementPayload := by
  cases error with
  | taskAborted => exact absurd rfl ha
  | _ => rfl

/-- A slot of `run_once` leaves the same tables, at once or with the flush of what the batcher has accepted. -/
theorem releaseFailedJob_eq_release {s : State} {error : RunJobError} (hs : s.failures = [])
    (hshutdown : error = .taskAborted → s.shutdown = true) :
    ∃ t, s.release cfg now job (error.outcome debug) false true = some t ∧
      (t.db = releaseFailedJob debug cfg now s.db job error ∨
        ∃ u, step cfg t (now,.flushFailures 1) = some u ∧ u.db = releaseFailedJob debug cfg now s.db job error) := by
  by_cases ha : error = .taskAborted
  · subst ha
    exact ⟨s.releaseAborted cfg now job true,by simp [State.release,RunJobError.outcome,hshutdown rfl],.inl rfl⟩
  · rw [releaseFailedJob_eq ha,RunJobError.outcome_of_ne ha]
    refine ⟨_,rfl,?_⟩
    unfold State.releaseFailed
    rw [Bool.not_false,Bool.and_true]
    split
    · exact .inr ⟨_,rfl,by simp [hs]⟩
    · exact .inl rfl

theorem find_releaseFailedJob (debug : String → String) (now : Time) (job : Job) (error : RunJobError) {row : Job}
    (ha : error ≠ .taskAborted) (hf : db.jobs.find job.id = some row) (hw : row.lockedBy = some cfg.workerId) :
    ∃ row', (releaseFailedJob debug cfg now db job error).jobs.find job.id = some row' ∧
      row'.payload = error.replacementPayload.getD row.payload := by
  have ho : ownedBy cfg.workerId [job.id] row = true :=
    (ownedBy_iff _).mpr ⟨List.mem_singleton.mpr (find_job.mp hf).2,hw⟩
  rw [releaseFailedJob_eq ha]
  split
  · next hb =>
    have hn : error.replacementPayload = none := by simpa using (Bool.and_eq_true_iff.mp hb).1
    refine ⟨row.failWith now [⟨job,error.persistedError debug⟩],?_,by rw [hn]; rfl⟩
    rw [failJobs_jobs,IdTable.find_updateWhere,hf,Option.map_some,List.map_singleton,if_pos ho]
  · refine ⟨row.fail now (error.persistedError debug) error.replacementPayload,?_,rfl⟩
    rw [failJob_jobs,IdTable.find_updateWhere,hf,Option.map_some,if_pos ho]

end GraphileWorker.Execution
