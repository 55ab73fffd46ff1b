import GraphileWorker.Database.Tables
import Mathlib.Logic.Relation

/-! # Adding jobs

`add_jobs` and `add_job` of the last migrations, and the Rust functions that call them. A call
that raises an error changes nothing. A keyed row that is locked is retired, not replaced.
-/
namespace GraphileWorker.Database
open Foundation

inductive JobKeyMode
  | replace
  | preserveRunAt
  | unsafeDedupe
  deriving DecidableEq

def JobKeyMode.toText : JobKeyMode → String
  | .replace => "replace"
  | .preserveRunAt => "preserve_run_at"
  | .unsafeDedupe => "unsafe_dedupe"

structure DbJobSpec where
  identifier : String
  payload : Option Json
  queueName : Option String
  runAt : Option Time
  maxAttempts : Option ℤ
  jobKey : Option String
  priority : Option ℤ
  flags : Option (List String)

/-- Errors raised by the database, with the condition each of them reports. -/
inductive SqlError
  /-- `ON CONFLICT DO UPDATE command cannot affect row a second time`. -/
  | cardinalityViolation
  | checkViolation (constraint : String)
  | smallintOutOfRange
  | integerOutOfRange
  /-- `GWNOR`. -/
  | unableToSchedule (key : String)
  /-- `GWBKM`. -/
  | invalidJobKeyMode
  deriving DecidableEq

def SqlError.message : SqlError → String
  | .cardinalityViolation => "ON CONFLICT DO UPDATE command cannot affect row a second time"
  | .checkViolation constraint => "violates check constraint \"" ++ constraint ++ "\""
  | .smallintOutOfRange => "smallint out of range"
  | .integerOutOfRange => "integer out of range"
  | .unableToSchedule key => "Unable to schedule job for key \"" ++ key ++ "\""
  | .invalidJobKeyMode =>
    "Invalid job_key_mode value, expected 'replace', 'preserve_run_at' or 'unsafe_dedupe'."

def toSmallint (n : ℤ) : Except SqlError ℤ :=
  if -32768 ≤ n ∧ n ≤ 32767 then .ok n else .error .smallintOutOfRange

def toSmallintOpt : Option ℤ → Except SqlError (Option ℤ)
  | none => .ok none
  | some n => (toSmallint n).map some

def newTask (identifier : String) (n : ℕ) : Task := ⟨n,identifier⟩
def newQueue (queueName : String) (n : ℕ) : JobQueue := ⟨n,queueName,none⟩

theorem rowId_newTask (identifier : String) (n : ℕ) : rowId (newTask identifier n) = n := rfl
theorem rowId_newQueue (queueName : String) (n : ℕ) : rowId (newQueue queueName n) = n := rfl

def taskIdOf (db : Db) (identifier : String) : Option TaskId :=
  (db.tasks.rows.find? fun t => t.identifier == identifier).map Task.id

def queueIdOf (db : Db) (queueName : String) : Option QueueId :=
  (db.jobQueues.rows.find? fun q => q.queueName == queueName).map JobQueue.id

def insertTask (db : Db) (identifier : String) : Except SqlError Db :=
  if (taskIdOf db identifier).isSome then .ok db
  else if identifier.length ≤ 128 then
    .ok { db with tasks := db.tasks.insert (newTask identifier) (rowId_newTask identifier) }
  else .error (.checkViolation "tasks_identifier_check")

def insertQueue (db : Db) (queueName : String) : Except SqlError Db :=
  if (queueIdOf db queueName).isSome then .ok db
  else if queueName.length ≤ 128 then
    .ok { db with jobQueues := db.jobQueues.insert (newQueue queueName) (rowId_newQueue queueName) }
  else .error (.checkViolation "job_queues_queue_name_check")

/-- `select jsonb_object_agg(flag, true) from unnest(flags)`: NULL over no rows. -/
def flagsObject : Option (List String) → Option Json
  | none => none
  | some [] => none
  | some flags => some (.object (flags.dedup.map fun f => (f,.bool true)))

def proposedJob (db : Db) (spec : DbJobSpec) (taskId : TaskId) (now : Time) (n : ℕ) : Job where
  id := n
  jobQueueId := spec.queueName.bind (queueIdOf db)
  taskId := taskId
  payload := spec.payload.getD (.object [])
  priority := spec.priority.getD 0
  runAt := spec.runAt.getD now
  attempts := 0
  maxAttempts := spec.maxAttempts.getD 25
  lastError := none
  createdAt := now
  updatedAt := now
  key := spec.jobKey
  lock := none
  revision := 0
  flags := flagsObject spec.flags

theorem rowId_proposedJob (db : Db) (spec : DbJobSpec) (taskId : TaskId) (now : Time) (n : ℕ) :
    rowId (proposedJob db spec taskId now n) = n := rfl

/-- The check constraints of `_private_jobs`, made on the proposed row before any conflict. -/
def checkJob (r : Job) : Except SqlError Unit :=
  if r.maxAttempts < 1 then .error (.checkViolation "jobs_max_attempts_check")
  else match r.key with
    | none => .ok ()
    | some k =>
      if 0 < k.length ∧ k.length ≤ 512 then .ok () else .error (.checkViolation "jobs_key_check")

/-- Two arrays are joined, anything else is replaced. -/
def mergePayload : Json → Json → Json
  | .array old, .array new => .array (old ++ new)
  | _, new => new

/-- `on conflict (key) do update set` of `add_jobs`. -/
def Job.replaceWith (excluded : Job) (preserveRunAt : Bool) (now : Time) (r : Job) : Job :=
  { r with
    jobQueueId := excluded.jobQueueId
    taskId := excluded.taskId
    payload := mergePayload r.payload excluded.payload
    maxAttempts := excluded.maxAttempts
    runAt := if preserveRunAt && r.attempts == 0 then r.runAt else excluded.runAt
    priority := excluded.priority
    revision := r.revision + 1
    flags := excluded.flags
    attempts := 0
    lastError := none
    updatedAt := now }

/-- `on conflict (key) do update set` of the `unsafe_dedupe` branch. -/
def Job.dedupe (now : Time) (r : Job) : Job := { r with revision := r.revision + 1, updatedAt := now }

/-- A keyed row that cannot be replaced loses its key and its attempts. -/
def Job.retire (now : Time) (r : Job) : Job :=
  { r with key := none, attempts := r.maxAttempts, updatedAt := now }

theorem Job.rowId_replaceWith (excluded : Job) (preserve : Bool) (now : Time) (r : Job) :
    rowId (Job.replaceWith excluded preserve now r) = rowId r := rfl
theorem Job.rowId_dedupe (now : Time) (r : Job) : rowId (Job.dedupe now r) = rowId r := rfl
theorem Job.rowId_retire (now : Time) (r : Job) : rowId (r.retire now) = rowId r := rfl

def retires (specs : List DbJobSpec) (r : Job) : Bool :=
  (specs.any fun spec => spec.jobKey.isSome && r.key == spec.jobKey) && !r.isAvailable

def retireKeyed (db : Db) (specs : List DbJobSpec) (now : Time) : Db :=
  (db.updateJobs (retires specs) (Job.retire now) (Job.rowId_retire now)).retire
    ((db.jobs.rows.filter (retires specs)).map Job.id)

def conflicting (db : Db) (key : Option String) : Option Job :=
  key.bind fun k => db.jobs.rows.find? fun r => r.key == some k

/-- One row of the `INSERT`. `touched` are the rows this command has written;
the result is the row it returns, if any. -/
def insertOne (db : Db) (touched : List JobId) (spec : DbJobSpec) (preserveRunAt : Bool) (now : Time) :
    Except SqlError (Db × Option Job) := do
  -- the inner join drops a spec without a task
  let some taskId := taskIdOf db spec.identifier | return (db,none)
  checkJob (proposedJob db spec taskId now db.jobs.next)
  match conflicting db spec.jobKey with
  | none =>
    return ({ db with jobs := db.jobs.insert (proposedJob db spec taskId now) (rowId_proposedJob db spec taskId now) },
      some (proposedJob db spec taskId now db.jobs.next))
  | some r =>
    let excluded := proposedJob db spec taskId now db.jobs.next
    -- the proposed row has already drawn its identity
    let drawn := { db with jobs := db.jobs.skip }
    if touched.contains r.id then throw .cardinalityViolation
    else if r.lock.isSome then return (drawn,none)
    else if r.revision = 2147483647 then throw .integerOutOfRange
    else return (drawn.updateJobs (fun s => s.id == r.id && s.lock.isNone)
        (Job.replaceWith excluded preserveRunAt now) (Job.rowId_replaceWith excluded preserveRunAt now),
      some (Job.replaceWith excluded preserveRunAt now r))

def insertAll (preserveRunAt : Bool) (now : Time) : Db → List JobId → List DbJobSpec →
    Except SqlError (Db × List Job)
  | db, _, [] => .ok (db,[])
  | db, touched, spec :: rest => do
    let (db₁,row) ← insertOne db touched spec preserveRunAt now
    let (db₂,rows) ← insertAll preserveRunAt now db₁ (touched ++ row.toList.map Job.id) rest
    return (db₂,row.toList ++ rows)

def addJobsSql (db : Db) (specs : List DbJobSpec) (preserveRunAt : Bool) (now : Time) :
    Except SqlError (Db × List Job) := do
  let db₁ ← (specs.map DbJobSpec.identifier).dedup.foldlM insertTask db
  let db₂ ← (specs.filterMap DbJobSpec.queueName).dedup.foldlM insertQueue db₁
  insertAll preserveRunAt now (retireKeyed db₂ specs now) [] specs

/-- The `unsafe_dedupe` branch of `add_job`: a conflict only bumps the revision,
whether or not the row is locked. -/
def addDeduped (db : Db) (spec : DbJobSpec) (now : Time) : Except SqlError (Db × Option Job) := do
  let db₁ ← insertTask db spec.identifier
  let db₂ ← spec.queueName.toList.foldlM insertQueue db₁
  let some taskId := taskIdOf db₂ spec.identifier | return (db₂,none)
  checkJob (proposedJob db₂ spec taskId now db₂.jobs.next)
  match conflicting db₂ spec.jobKey with
  | none =>
    return ({ db₂ with
        jobs := db₂.jobs.insert (proposedJob db₂ spec taskId now) (rowId_proposedJob db₂ spec taskId now) },
      some (proposedJob db₂ spec taskId now db₂.jobs.next))
  | some r =>
    if r.revision = 2147483647 then throw .integerOutOfRange
    else
      let drawn := { db₂ with jobs := db₂.jobs.skip }
      return (drawn.updateJobs (fun s => s.id == r.id) (Job.dedupe now) (Job.rowId_dedupe now),
        some (r.dedupe now))

def addJobSql (db : Db) (spec : DbJobSpec) (jobKeyMode : Option String) (now : Time) :
    Except SqlError (Db × Option Job) := do
  if spec.jobKey.isNone || jobKeyMode.isNone || jobKeyMode == some "replace" ||
      jobKeyMode == some "preserve_run_at" then
    let maxAttempts ← toSmallintOpt spec.maxAttempts
    let priority ← toSmallintOpt spec.priority
    let (db₁,rows) ← addJobsSql db [{ spec with maxAttempts := maxAttempts, priority := priority }]
      (jobKeyMode == some "preserve_run_at") now
    match rows.head? with
    | none => throw (.unableToSchedule (spec.jobKey.getD "<null>"))
    | some job => return (db₁,some job)
  else if jobKeyMode == some "unsafe_dedupe" then
    let maxAttempts ← toSmallintOpt spec.maxAttempts
    let priority ← toSmallintOpt spec.priority
    addDeduped db { spec with maxAttempts := maxAttempts, priority := priority } now
  else throw .invalidJobKeyMode

structure JobSpec where
  queueName : Option String := none
  runAt : Option Time := none
  maxAttempts : Option ℤ := none
  jobKey : Option String := none
  jobKeyMode : Option JobKeyMode := none
  priority : Option ℤ := none
  flags : Option (List String) := none

structure JobToAdd where
  identifier : String
  payload : Json
  spec : JobSpec

inductive GraphileWorkerError
  | jobScheduleSkipped
  | jobScheduleFailed (message : String)
  | sql (error : SqlError)
  deriving DecidableEq

/-- `localNow` is the client's clock when `use_local_time` is set. -/
def JobToAdd.toDb (job : JobToAdd) (localNow : Option Time) : DbJobSpec where
  identifier := job.identifier
  payload := some job.payload
  queueName := job.spec.queueName
  runAt := job.spec.runAt.or localNow
  maxAttempts := job.spec.maxAttempts
  jobKey := job.spec.jobKey
  priority := job.spec.priority
  flags := job.spec.flags

def addJob (db : Db) (job : JobToAdd) (localNow : Option Time) (now : Time) :
    Except GraphileWorkerError (Db × Option Job) :=
  (addJobSql db (job.toDb localNow) (job.spec.jobKeyMode.map JobKeyMode.toText) now).mapError .sql

def validateBatchJobKeyModes (jobs : List JobToAdd) : Except GraphileWorkerError Unit :=
  if jobs.any fun job => job.spec.jobKeyMode == some .unsafeDedupe then
    .error (.jobScheduleFailed "UnsafeDedupe job_key_mode is not supported in batch add_jobs")
  else .ok ()

/-- `json_populate_recordset` turns a JSON null into NULL, in a column of type `json` too. -/
def Json.populated : Json → Option Json
  | .null => none
  | j => some j

/-- One entry of the JSON text that `add_jobs` sends, as the server reads it. -/
def JobToAdd.toBatchDb (job : JobToAdd) (localNow : Option Time) : DbJobSpec :=
  { job.toDb localNow with payload := job.payload.populated }

def addJobs (db : Db) (jobs : List JobToAdd) (preserveRunAt : Bool) (localNow : Option Time) (now : Time) :
    Except GraphileWorkerError (Db × List Job) := do
  if jobs.isEmpty then return (db,[])
  validateBatchJobKeyModes jobs
  (addJobsSql db (jobs.map fun job => job.toBatchDb localNow) preserveRunAt now).mapError .sql

section Except
variable {ε α β : Type} {x : Except ε α}

theorem bind_eq_ok {f : α → Except ε β} {b : β} (h : (x >>= f) = .ok b) : ∃ a, x = .ok a ∧ f a = .ok b := by
  cases x with
  | error e => exact absurd h (by simp [bind,Except.bind])
  | ok a => exact ⟨a,rfl,h⟩

theorem bind_of_ok {a : α} (h : x = .ok a) (f : α → Except ε β) : (x >>= f) = f a := by
  rw [h]
  rfl

theorem map_eq_ok {f : α → β} {b : β} : x.map f = .ok b ↔ ∃ a, x = .ok a ∧ f a = b := by
  cases x with
  | error e => simp [Except.map]
  | ok a => simp [Except.map]

theorem mapError_eq_ok {ε' : Type} {g : ε → ε'} {a : α} : x.mapError g = .ok a ↔ x = .ok a := by
  cases x with
  | error e => simp [Except.mapError]
  | ok b => simp [Except.mapError]

theorem foldlM_invariant {I : β → Prop} {f : β → α → Except ε β}
    (hf : ∀ b a b', I b → f b a = .ok b' → I b') {xs : List α} {b b' : β} (hb : I b)
    (h : xs.foldlM f b = .ok b') : I b' := by
  induction xs generalizing b with
  | nil =>
    cases h
    exact hb
  | cons a rest ih =>
    obtain ⟨c,hc,hr⟩ := bind_eq_ok h
    exact ih (hf b a c hb hc) hr

end Except

variable {db db' : Db} {now : Time} {spec : DbJobSpec} {specs : List DbJobSpec} {preserve : Bool}
  {identifier queueName : String} {r : Job} {touched : List JobId} {row : Option Job} {rows : List Job}

theorem insertTask_cases (h : insertTask db identifier = .ok db') :
    db' = db ∨ db' = { db with tasks := db.tasks.insert (newTask identifier) (rowId_newTask identifier) } := by
  unfold insertTask at h
  split at h
  · cases h
    exact .inl rfl
  · split at h
    · cases h
      exact .inr rfl
    · cases h

theorem insertQueue_cases (h : insertQueue db queueName = .ok db') : db' = db ∨
      db' = { db with jobQueues := db.jobQueues.insert (newQueue queueName) (rowId_newQueue queueName) } := by
  unfold insertQueue at h
  split at h
  · cases h
    exact .inl rfl
  · split at h
    · cases h
      exact .inr rfl
    · cases h

theorem jobs_insertTasks {identifiers : List String} (h : identifiers.foldlM insertTask db = .ok db') :
    db'.jobs = db.jobs ∧ db'.jobRetirements = db.jobRetirements := by
  refine foldlM_invariant (I := fun b => b.jobs = db.jobs ∧ b.jobRetirements = db.jobRetirements) ?_ ⟨rfl,rfl⟩ h
  intro b identifier b' hb he
  rcases insertTask_cases he with rfl | rfl
  · exact hb
  · exact hb

theorem jobs_insertQueues {queueNames : List String} (h : queueNames.foldlM insertQueue db = .ok db') :
    db'.jobs = db.jobs ∧ db'.jobRetirements = db.jobRetirements := by
  refine foldlM_invariant (I := fun b => b.jobs = db.jobs ∧ b.jobRetirements = db.jobRetirements) ?_ ⟨rfl,rfl⟩ h
  intro b queueName b' hb he
  rcases insertQueue_cases he with rfl | rfl
  · exact hb
  · exact hb

theorem conflicting_eq_some {key : Option String} (h : conflicting db key = some r) :
    r ∈ db.jobs.rows ∧ key.isSome = true ∧ r.key = key := by
  obtain ⟨k,rfl,hf⟩ := Option.bind_eq_some_iff.mp h
  exact ⟨List.mem_of_find?_eq_some hf,rfl,by simpa using List.find?_some hf⟩

/-- What one row of the `INSERT` did, and the row it returned. -/
inductive Inserted (db : Db) (touched : List JobId) (spec : DbJobSpec) (preserve : Bool) (now : Time) :
    Db → Option Job → Prop
  | unknown (ht : taskIdOf db spec.identifier = none) : Inserted db touched spec preserve now db none
  | inserted (taskId : TaskId) (ht : taskIdOf db spec.identifier = some taskId)
      (hcheck : checkJob (proposedJob db spec taskId now db.jobs.next) = .ok ())
      (hc : conflicting db spec.jobKey = none) : Inserted db touched spec preserve now
        { db with jobs := db.jobs.insert (proposedJob db spec taskId now) (rowId_proposedJob db spec taskId now) }
        (some (proposedJob db spec taskId now db.jobs.next))
  | skipped (r : Job) (hc : conflicting db spec.jobKey = some r) (hl : r.lock.isSome = true) :
      Inserted db touched spec preserve now { db with jobs := db.jobs.skip } none
  | replaced (taskId : TaskId) (r : Job) (ht : taskIdOf db spec.identifier = some taskId)
      (hcheck : checkJob (proposedJob db spec taskId now db.jobs.next) = .ok ())
      (hc : conflicting db spec.jobKey = some r) (htouched : r.id ∉ touched) (hl : r.lock = none) :
      Inserted db touched spec preserve now
        (Db.updateJobs { db with jobs := db.jobs.skip } (fun s => s.id == r.id && s.lock.isNone)
          (Job.replaceWith (proposedJob db spec taskId now db.jobs.next) preserve now)
          (Job.rowId_replaceWith (proposedJob db spec taskId now db.jobs.next) preserve now))
        (some (Job.replaceWith (proposedJob db spec taskId now db.jobs.next) preserve now r))

theorem insertOne_cases (h : insertOne db touched spec preserve now = .ok (db',row)) :
    Inserted db touched spec preserve now db' row := by
  unfold insertOne at h
  cases ht : taskIdOf db spec.identifier with
  | none =>
    simp only [ht] at h
    cases h
    exact .unknown ht
  | some taskId =>
    simp only [ht] at h
    obtain ⟨_,hcheck,h⟩ := bind_eq_ok h
    cases hc : conflicting db spec.jobKey with
    | none =>
      simp only [hc] at h
      cases h
      exact .inserted taskId ht hcheck hc
    | some r =>
      simp only [hc] at h
      split at h
      · cases h
      · next htouched =>
        split at h
        · next hl =>
          cases h
          exact .skipped r hc hl
        · next hl =>
          split at h
          · cases h
          · cases h
            refine .replaced taskId r ht hcheck hc (fun hm => htouched (List.contains_iff_mem.mpr hm)) ?_
            simpa using hl

theorem maxAttempts_of_checkJob (h : checkJob r = .ok ()) : 1 ≤ r.maxAttempts := by
  by_contra hlt
  rw [checkJob,if_pos (not_le.mp hlt)] at h
  cases h

/-- Rows that hold a key of the specs are available. -/
def KeyedAvailable (specs : List DbJobSpec) (db : Db) : Prop :=
  ∀ r ∈ db.jobs.rows, ∀ spec ∈ specs, spec.jobKey.isSome = true → r.key = spec.jobKey → r.isAvailable = true

theorem keyedAvailable_retireKeyed : KeyedAvailable specs (retireKeyed db specs now) := by
  intro r hr spec hspec hsome hkey
  obtain ⟨s,hs,rfl⟩ := List.mem_map.mp hr
  by_cases hret : retires specs s = true
  · -- a row that was retired has no key
    rw [if_pos hret] at hkey
    rw [← hkey] at hsome
    cases hsome
  · rw [if_neg hret] at hkey ⊢
    by_contra hna
    refine hret ?_
    simp only [retires,Bool.and_eq_true,List.any_eq_true,Bool.not_eq_true']
    exact ⟨⟨spec,hspec,hsome,by simp [hkey]⟩,by simpa using hna⟩

theorem KeyedAvailable.conflicting (hk : KeyedAvailable specs db) (hspec : spec ∈ specs)
    (h : conflicting db spec.jobKey = some r) : r.isAvailable = true :=
  hk r (conflicting_eq_some h).1 spec hspec (conflicting_eq_some h).2.1 (conflicting_eq_some h).2.2

theorem unlocked_of_isAvailable (h : r.isAvailable = true) : r.lock = none := by
  simpa using (Bool.and_eq_true_iff.mp h).1

theorem isAvailable_of_zero (hl : r.lock = none) (ha : r.attempts = 0) (hm : 1 ≤ r.maxAttempts) :
    r.isAvailable = true := by
  have hlt : (0 : ℤ) < r.maxAttempts := by omega
  simp [Job.isAvailable,hl,ha,hlt]

theorem keyedAvailable_insertOne (hk : KeyedAvailable specs db)
    (h : insertOne db touched spec preserve now = .ok (db',row)) : KeyedAvailable specs db' := by
  cases insertOne_cases h with
  | unknown | skipped => exact hk
  | inserted taskId _ hcheck =>
    intro s hs spec' hspec' hsome hkey
    rcases List.mem_append.mp hs with hs | hs
    · exact hk s hs spec' hspec' hsome hkey
    · rw [List.mem_singleton.mp hs]
      exact isAvailable_of_zero rfl rfl (maxAttempts_of_checkJob hcheck)
  | replaced taskId r _ hcheck =>
    intro s hs spec' hspec' hsome hkey
    obtain ⟨t,ht,rfl⟩ := List.mem_map.mp hs
    by_cases hsel : (t.id == r.id && t.lock.isNone) = true
    · rw [if_pos hsel]
      have hl : t.lock = none := by simpa using (Bool.and_eq_true_iff.mp hsel).2
      have hm := maxAttempts_of_checkJob hcheck
      exact isAvailable_of_zero hl rfl hm
    · rw [if_neg hsel] at hkey ⊢
      exact hk t ht spec' hspec' hsome hkey

/-- One write of `add_jobs` or `add_job`. Only an available row is replaced: other rows with a key
of the specs have lost it before. -/
inductive Adds (now : Time) (db : Db) : Db → Prop
  | task (identifier : String) :
      Adds now db { db with tasks := db.tasks.insert (newTask identifier) (rowId_newTask identifier) }
  | queue (queueName : String) :
      Adds now db { db with jobQueues := db.jobQueues.insert (newQueue queueName) (rowId_newQueue queueName) }
  | retire (specs : List DbJobSpec) : Adds now db (retireKeyed db specs now)
  | insert (spec : DbJobSpec) (taskId : TaskId)
      (hcheck : checkJob (proposedJob db spec taskId now db.jobs.next) = .ok ()) : Adds now db
        { db with jobs := db.jobs.insert (proposedJob db spec taskId now) (rowId_proposedJob db spec taskId now) }
  | skip : Adds now db { db with jobs := db.jobs.skip }
  | replace (excluded r : Job) (preserve : Bool) (hr : r ∈ db.jobs.rows) (ha : r.isAvailable = true)
      (hm : 1 ≤ excluded.maxAttempts) (hk : r.key.isSome = true) : Adds now db
        (db.updateJobs (fun s => s.id == r.id && s.lock.isNone) (Job.replaceWith excluded preserve now)
          (Job.rowId_replaceWith excluded preserve now))
  | dedupe (i : JobId) :
      Adds now db (db.updateJobs (fun s => s.id == i) (Job.dedupe now) (Job.rowId_dedupe now))

abbrev Added (now : Time) : Db → Db → Prop := Relation.ReflTransGen (Adds now)

theorem added_insertTask (h : insertTask db identifier = .ok db') : Added now db db' := by
  rcases insertTask_cases h with rfl | rfl
  · exact .refl
  · exact .single (.task identifier)

theorem added_insertQueue (h : insertQueue db queueName = .ok db') : Added now db db' := by
  rcases insertQueue_cases h with rfl | rfl
  · exact .refl
  · exact .single (.queue queueName)

theorem added_foldlM {α ε : Type} {f : Db → α → Except ε Db} {xs : List α}
    (hf : ∀ db a db', f db a = .ok db' → Added now db db') (h : xs.foldlM f db = .ok db') : Added now db db' :=
  foldlM_invariant (I := Added now db) (fun _ _ _ hb he => hb.trans (hf _ _ _ he)) .refl h

theorem added_insertOne (hk : KeyedAvailable specs db)
    (hspec : spec ∈ specs) (h : insertOne db touched spec preserve now = .ok (db',row)) : Added now db db' := by
  cases insertOne_cases h with
  | unknown => exact .refl
  | inserted taskId _ hcheck => exact .single (.insert spec taskId hcheck)
  | skipped => exact .single .skip
  | replaced taskId r _ hcheck hc =>
    exact (Relation.ReflTransGen.single .skip).tail (.replace _ r preserve (conflicting_eq_some hc).1
      (hk.conflicting hspec hc) (maxAttempts_of_checkJob hcheck)
      ((conflicting_eq_some hc).2.2 ▸ (conflicting_eq_some hc).2.1))

theorem added_insertAll {todo : List DbJobSpec} (hsub : todo ⊆ specs)
    (hk : KeyedAvailable specs db) (h : insertAll preserve now db touched todo = .ok (db',rows)) :
    Added now db db' := by
  induction todo generalizing db touched rows with
  | nil =>
    cases h
    exact .refl
  | cons spec rest ih =>
    obtain ⟨⟨db₁,row⟩,h₁,h⟩ := bind_eq_ok h
    obtain ⟨⟨db₂,rows₂⟩,h₂,h⟩ := bind_eq_ok h
    cases h
    exact (added_insertOne hk (hsub List.mem_cons_self) h₁).trans
      (ih (fun x hx => hsub (List.mem_cons_of_mem spec hx)) (keyedAvailable_insertOne hk h₁) h₂)

theorem added_addJobsSql (h : addJobsSql db specs preserve now = .ok (db',rows)) : Added now db db' := by
  obtain ⟨db₁,h₁,h⟩ := bind_eq_ok h
  obtain ⟨db₂,h₂,h⟩ := bind_eq_ok h
  have hnames : Added now db db₂ :=
    (added_foldlM (fun _ _ _ => added_insertTask) h₁).trans (added_foldlM (fun _ _ _ => added_insertQueue) h₂)
  exact (hnames.tail (.retire specs)).trans
    (added_insertAll (List.Subset.refl specs) keyedAvailable_retireKeyed h)

theorem added_addDeduped (h : addDeduped db spec now = .ok (db',row)) : Added now db db' := by
  obtain ⟨db₁,h₁,h⟩ := bind_eq_ok h
  obtain ⟨db₂,h₂,h⟩ := bind_eq_ok h
  have hnames : Added now db db₂ := (added_insertTask h₁).trans (added_foldlM (fun _ _ _ => added_insertQueue) h₂)
  cases ht : taskIdOf db₂ spec.identifier with
  | none =>
    simp only [ht] at h
    cases h
    exact hnames
  | some taskId =>
    simp only [ht] at h
    obtain ⟨_,hcheck,h⟩ := bind_eq_ok h
    cases hc : conflicting db₂ spec.jobKey with
    | none =>
      simp only [hc] at h
      cases h
      exact hnames.tail (.insert spec taskId hcheck)
    | some r =>
      simp only [hc] at h
      split at h
      · cases h
      · cases h
        exact (hnames.tail .skip).tail (.dedupe r.id)

theorem added_addJobSql {mode : Option String}
    (h : addJobSql db spec mode now = .ok (db',row)) : Added now db db' := by
  unfold addJobSql at h
  split at h
  · obtain ⟨_,_,h⟩ := bind_eq_ok h
    obtain ⟨_,_,h⟩ := bind_eq_ok h
    obtain ⟨⟨db₁,rows⟩,h₁,h⟩ := bind_eq_ok h
    cases hr : rows.head? with
    | none =>
      simp only [hr] at h
      cases h
    | some job =>
      simp only [hr] at h
      cases h
      exact added_addJobsSql h₁
  · split at h
    · obtain ⟨_,_,h⟩ := bind_eq_ok h
      obtain ⟨_,_,h⟩ := bind_eq_ok h
      exact added_addDeduped h
    · cases h

theorem added_addJobs {jobs : List JobToAdd} {localNow : Option Time}
    (h : addJobs db jobs preserve localNow now = .ok (db',rows)) : Added now db db' := by
  unfold addJobs at h
  split at h
  · cases h
    exact .refl
  · obtain ⟨_,_,h⟩ := bind_eq_ok h
    exact added_addJobsSql (mapError_eq_ok.mp h)

theorem Adds.locks (h : Adds now db db') : db'.locks = db.locks := by
  cases h with
  | task | skip => rfl
  | queue queueName =>
    ext1
    · rfl
    · funext g
      by_cases hg : g = db.jobQueues.next
      · have hn : db.jobQueues.find g = none := IdTable.find_next _ hg.ge
        simp [Db.locks,hg,newQueue,JobQueue.lockedBy,hg ▸ hn]
      · simp [Db.locks,hg]
  | retire specs => exact locks_updateJobs db _ _ (Job.rowId_retire now) fun _ _ => rfl
  | insert spec taskId =>
    ext1
    · funext i
      by_cases hi : i = db.jobs.next
      · have hn : db.jobs.find i = none := IdTable.find_next _ hi.ge
        simp [Db.locks,hi,proposedJob,Job.held,hi ▸ hn]
      · simp [Db.locks,hi]
    · rfl
  | replace excluded r preserve =>
    -- only an unlocked row is replaced, so moving it to another queue moves no lock
    refine locks_updateJobs db _ _ (Job.rowId_replaceWith _ _ _) ?_
    intro s hs
    have hl : s.lock = none := by simpa using (Bool.and_eq_true_iff.mp hs).2
    simp [Job.held,Job.replaceWith,hl]
  | dedupe i => exact locks_updateJobs db _ _ (Job.rowId_dedupe now) fun _ _ => rfl

theorem Added.locks (h : Added now db db') : db'.locks = db.locks := by
  induction h with
  | refl => rfl
  | tail _ hs ih => exact hs.locks.trans ih

end GraphileWorker.Database
