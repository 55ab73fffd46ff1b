import GraphileWorker.Database.Admin
import GraphileWorker.Database.Claim
import GraphileWorker.Database.Outcome
import GraphileWorker.Foundation.Runs

/-! # Statements as atomic steps

Every statement that reads or writes a lock, executed against the tables at some instant.
`Effect` says once what each of them does to the locks.
-/
namespace GraphileWorker.Database
open Foundation

/-- Statements with their arguments. Completions of unnamed jobs do not send the
worker id to the database; it is kept here to say who reports. -/
inductive Statement
  | addJob (job : JobToAdd) (localNow : Option Time)
  | addJobs (jobs : List JobToAdd) (preserveRunAt : Bool) (localNow : Option Time)
  | getJobWithFilter (w : WorkerId) (taskIds : List TaskId) (filter : JobFlagFilter)
  | batchGetJobsWithFilter (w : WorkerId) (taskIds : List TaskId) (filter : JobFlagFilter) (batchSize : ℕ)
  | completeJob (w : WorkerId) (job : Job)
  | completeJobsWithQueues (w : WorkerId) (ids : List JobId)
  | completeJobsWithoutQueues (w : WorkerId) (ids : List JobId)
  | completeJobDirect (w : WorkerId) (req : CompletionRequest)
  | failJob (w : WorkerId) (job : Job) (message : String) (replacementPayload : Option Json)
  | failJobs (w : WorkerId) (jobs : List FailedJob)
  | privateReturnJobs (w : WorkerId) (ids : List JobId) (options : ReturnOptions)
  | recoverDeadWorkerJobs (workerIds : List WorkerId) (delayMs : ℤ)
  | forceUnlockWorkers (workerIds : List WorkerId)
  | completeJobs (ids : List JobId)
  | removeJob (key : String)
  | permanentlyFailJobs (ids : List JobId) (message : Option String)
  | rescheduleJobs (ids : List JobId) (options : RescheduleJobOptions)

def committed {ε α : Type} (db : Db) : Except ε (Db × α) → Db
  | .ok r => r.1
  | .error _ => db

def Statement.run (db : Db) (now : Time) : Statement → Db
  | .addJob job localNow => committed db (Database.addJob db job localNow now)
  | .addJobs jobs preserve localNow => committed db (Database.addJobs db jobs preserve localNow now)
  | .getJobWithFilter w taskIds filter => (Database.getJobWithFilter db taskIds w filter now).1
  | .batchGetJobsWithFilter w taskIds filter n =>
    (Database.batchGetJobsWithFilter db taskIds w filter n now).1
  | .completeJob w job => Database.completeJob db job w
  | .completeJobsWithQueues w ids => Database.completeJobsWithQueues db w ids
  | .completeJobsWithoutQueues _ ids => Database.completeJobsWithoutQueues db ids
  | .completeJobDirect w req => Database.completeJobDirect db req w
  | .failJob w job message payload => Database.failJob db job w now message payload
  | .failJobs w jobs => Database.failJobs db jobs w now
  | .privateReturnJobs w ids o => Database.privateReturnJobs db w ids now o
  | .recoverDeadWorkerJobs ws delayMs => (Database.recoverDeadWorkerJobs db ws delayMs now).1
  | .forceUnlockWorkers ws => Database.forceUnlockWorkers db ws
  | .completeJobs ids => (Database.completeJobs db ids now).1
  | .removeJob key => (Database.removeJob db key now).1
  | .permanentlyFailJobs ids message => (Database.permanentlyFailJobs db ids message now).1
  | .rescheduleJobs ids o => committed db (Database.rescheduleJobs db ids o now)

abbrev Call := Time × Statement

def step (db : Db) (c : Call) : Option Db := some (c.2.run db c.1)

def after (calls : List Call) : Db := calls.foldl (fun db c => c.2.run db c.1) Db.empty

variable {ok : Db → Call → Prop} {calls : List Call}

theorem exec_eq_foldl [∀ db c, Decidable (ok db c)] {db : Db} (h : (exec step ok db calls).isSome = true) :
    exec step ok db calls = some (calls.foldl (fun db c => c.2.run db c.1) db) := by
  induction calls generalizing db with
  | nil => rfl
  | cons c rest ih =>
    simp only [exec,step] at h ⊢
    split at h
    · next hok =>
      rw [if_pos hok]
      exact ih h
    · cases h

theorem reaches_after [∀ db c, Decidable (ok db c)]
    (h : (exec step ok Db.empty calls).isSome = true) : Reaches step ok Db.empty (after calls) :=
  reaches_exec (exec_eq_foldl h)

inductive Effect
  | keep
  | claim (w : WorkerId) (j : List Job)
  | drop (D : Set JobId) (R : Set QueueId)

noncomputable def Effect.apply (L : Locks JobId QueueId WorkerId) : Effect → Locks JobId QueueId WorkerId
  | .keep => L
  | .claim w j => L.claim w (claimed j)
  | .drop D R => L.drop D R

def completion (db : Db) (w : WorkerId) (ids : List JobId) (queued : Bool) : Effect :=
  .drop (selectedJobs db fun r => ids.contains r.id)
    (if queued then selectedQueues db (heldQueueOf w (db.jobs.rows.filter fun r => ids.contains r.id)) else ∅)

def release (db : Db) (w : WorkerId) (ids : List JobId) (queued : Bool) : Effect :=
  .drop (selectedJobs db (ownedBy w ids))
    (if queued then selectedQueues db (heldQueueOf w (db.jobs.rows.filter (ownedBy w ids))) else ∅)

def sweep (db : Db) (ws : List WorkerId) : Effect :=
  .drop (selectedJobs db (lockedJob ws)) (selectedQueues db (lockedQueue ws))

def Statement.effect (db : Db) (now : Time) : Statement → Effect
  | .addJob .. => .keep
  | .addJobs .. => .keep
  | .getJobWithFilter w taskIds filter => .claim w (candidates db taskIds filter now 1)
  | .batchGetJobsWithFilter w taskIds filter n => .claim w (batchRows db taskIds filter n now)
  | .completeJob w job => completion db w [job.id] job.jobQueueId.isSome
  | .completeJobsWithQueues w ids => completion db w ids true
  | .completeJobsWithoutQueues w ids => completion db w ids false
  | .completeJobDirect w req => completion db w [req.jobId] req.hasQueue
  | .failJob w job _ _ => release db w [job.id] job.jobQueueId.isSome
  | .failJobs w jobs =>
    release db w (jobs.map fun f => f.job.id) (jobs.any fun f => f.job.jobQueueId.isSome)
  | .privateReturnJobs w ids _ => release db w ids true
  | .recoverDeadWorkerJobs ws _ => sweep db ws
  | .forceUnlockWorkers ws => sweep db ws
  | .completeJobs ids => .drop (selectedJobs db (adminRow now ids)) ∅
  | .removeJob key => .drop (selectedJobs db (removable now key)) ∅
  | .permanentlyFailJobs .. => .keep
  | .rescheduleJobs .. => .keep

theorem committed_of_ok {ε α : Type} (P : Db → Prop) {db : Db} {x : Except ε (Db × α)} (hdb : P db)
    (h : ∀ db' a, x = .ok (db',a) → P db') : P (committed db x) := by
  cases x with
  | error e => exact hdb
  | ok r => exact h r.1 r.2 rfl

theorem completion_nil (db : Db) (w : WorkerId) (queued : Bool) :
    (completion db w [] queued).apply db.locks = db.locks := by
  have hq : selectedQueues db (heldQueueOf w []) = ∅ := by simp [selectedQueues,heldQueueOf]
  cases queued <;> simp [completion,Effect.apply,hq,Locks.drop]

theorem locks_completed (db : Db) (w : WorkerId) (ids : List JobId) (queued : Bool) :
    (if queued then completeQueued db ids w else completeUnqueued db ids).locks =
      (completion db w ids queued).apply db.locks := by
  cases queued with
  | true => exact locks_delete db _ _
  | false => exact locks_completeUnqueued db ids

theorem Statement.locks_run (db : Db) (now : Time) (st : Statement) :
    (st.run db now).locks = (st.effect db now).apply db.locks := by
  cases st with
  | addJob job localNow =>
    exact committed_of_ok (Db.locks · = _) rfl fun _ _ h => (added_addJobSql (mapError_eq_ok.mp h)).locks
  | addJobs jobs preserve localNow => exact committed_of_ok (Db.locks · = _) rfl fun _ _ h => (added_addJobs h).locks
  | getJobWithFilter w taskIds filter => exact selection_candidates_one.locks_claimRows
  | batchGetJobsWithFilter w taskIds filter n => exact (selection_batchRows n).locks_claimRows
  | completeJob w job => exact locks_completed db w [job.id] job.jobQueueId.isSome
  | completeJobsWithQueues w ids =>
    cases ids with
    | nil => exact (completion_nil db w true).symm
    | cons i rest => exact locks_completed db w (i :: rest) true
  | completeJobsWithoutQueues w ids =>
    cases ids with
    | nil => exact (completion_nil db w false).symm
    | cons i rest => exact locks_completed db w (i :: rest) false
  | completeJobDirect w req => exact locks_completed db w [req.jobId] req.hasQueue
  | failJob w job message payload => exact locks_release db w [job.id] _ _ (fun _ => rfl) _
  | failJobs w jobs => exact locks_failJobs db w now jobs
  | privateReturnJobs w ids o => exact locks_privateReturnJobs db w ids now o
  | recoverDeadWorkerJobs ws delayMs => exact locks_recoverDeadWorkerJobs db now ws delayMs
  | forceUnlockWorkers ws => exact locks_unlock db _ _ _ (fun _ _ => rfl) _
  | completeJobs ids => exact locks_deleteJobs db _
  | removeJob key => exact locks_removeJob db now key
  | permanentlyFailJobs ids message => exact locks_permanentlyFailJobs db now ids message
  | rescheduleJobs ids o => exact committed_of_ok (Db.locks · = _) rfl fun _ _ h => locks_rescheduleJobs h

end GraphileWorker.Database
