import GraphileWorker.Cron.Runner
import GraphileWorker.Database.Statement

/-! # Scheduling cron jobs

The statement of `schedule_cron_jobs` locks the entries it has not executed for this minute
yet and calls `add_job` for them. A minute is a whole number of microseconds.
-/
namespace GraphileWorker.Cron
open Database

def CronKeyMode.toText : CronKeyMode → String
  | .replace => "replace"
  | .preserveRunAt => "preserve_run_at"

def CronKeyMode.toJobKeyMode : CronKeyMode → JobKeyMode
  | .replace => .replace
  | .preserveRunAt => .preserveRunAt

structure CrontabJobInner where
  task : String
  payload : Option Json
  queueName : Option String
  runAt : Instant
  maxAttempts : Option ℕ
  priority : Option ℤ
  jobKey : Option String
  jobKeyMode : Option CronKeyMode

def CrontabJobInner.fromCrontabAndRunAt (crontab : Crontab) (runAt : Instant) : CrontabJobInner where
  task := crontab.taskIdentifier
  payload := crontab.payload
  queueName := crontab.options.queue
  runAt := runAt
  maxAttempts := crontab.options.max
  priority := crontab.options.priority
  jobKey := crontab.options.jobKey
  jobKeyMode := crontab.options.jobKeyMode

structure CrontabJob where
  identifier : String
  job : CrontabJobInner

/-- `Map::insert` into an object; other values have no fields to insert into. -/
def insertField (key : String) (value : Json) : Json → Json
  | .object fields => .object ((fields.filter fun f => f.1 != key) ++ [(key,value)])
  | payload => payload

/-- `debugText` is what `{ts:?}` writes. -/
def CrontabJob.forCron (debugText : Instant → String) (crontab : Crontab) (ts : Instant) (backfilled : Bool) :
    CrontabJob :=
  let job := CrontabJobInner.fromCrontabAndRunAt crontab ts
  { identifier := crontab.identifier
    job := { job with payload := job.payload.map (insertField "_cron"
      (.object [("ts",.string (debugText ts)),("backfilled",.bool backfilled)])) } }

def toTime (t : Instant) : Time := t / 1000

structure Store where
  db : Db
  known : List KnownCrontab

/-- One row of the upsert into `known_crontabs`; the identifiers are those it has returned. -/
def lockCrontab (ts : Instant) (s : List KnownCrontab × List String) (identifier : String) :
    Except SqlError (List KnownCrontab × List String) :=
  if s.2.contains identifier then .error .cardinalityViolation
  else match s.1.find? fun k => k.identifier == identifier with
    | none => .ok (s.1 ++ [⟨identifier,ts,some ts⟩],s.2 ++ [identifier])
    | some k =>
      if k.lastExecution.all fun e => decide (e < ts) then
        .ok (s.1.map fun k => if k.identifier == identifier then { k with lastExecution := some ts } else k,
          s.2 ++ [identifier])
      else .ok s

/-- The arguments of `add_job`; a missing payload is the JSON value null. -/
def CrontabJobInner.toDb (job : CrontabJobInner) : DbJobSpec where
  identifier := job.task
  payload := some (job.payload.getD .null)
  queueName := job.queueName
  runAt := some (toTime job.runAt)
  maxAttempts := job.maxAttempts.map Int.ofNat
  jobKey := job.jobKey
  priority := job.priority
  flags := none

def CrontabJobInner.add (now : Time) (db : Db) (job : CrontabJobInner) : Except SqlError Db :=
  (addJobSql db job.toDb (job.jobKeyMode.map CronKeyMode.toText) now).map Prod.fst

theorem add_eq_ok {now : Time} {db db' : Db} {job : CrontabJobInner} (h : job.add now db = .ok db') :
    ∃ row, addJobSql db job.toDb (job.jobKeyMode.map CronKeyMode.toText) now = .ok (db',row) := by
  obtain ⟨⟨_,row⟩,hadd,rfl⟩ := map_eq_ok.mp h
  exact ⟨row,hadd⟩

def CrontabJob.casts (job : CrontabJob) : Except SqlError Unit := do
  let _ ← toSmallintOpt job.job.toDb.maxAttempts
  let _ ← toSmallintOpt job.job.toDb.priority

/-- The statement of `schedule_cron_jobs`, with the entries that it locks. The casts of
the specs are made for every entry, locked or not. -/
def cronStatement (store : Store) (jobs : List CrontabJob) (lastExecution : Instant) (now : Time) :
    Except SqlError (Store × List String) := do
  jobs.forM CrontabJob.casts
  let (known,locked) ← (jobs.map CrontabJob.identifier).foldlM (lockCrontab lastExecution) (store.known,[])
  let db ← ((jobs.filter fun job => locked.contains job.identifier).map CrontabJob.job).foldlM
    (CrontabJobInner.add now) store.db
  return (⟨db,known⟩,locked)

def scheduleCronJobs (store : Store) (jobs : List CrontabJob) (lastExecution : Instant) (now : Time) :
    Except SqlError Store :=
  (cronStatement store jobs lastExecution now).map Prod.fst

end GraphileWorker.Cron
