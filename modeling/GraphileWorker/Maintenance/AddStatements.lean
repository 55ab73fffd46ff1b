import GraphileWorker.Database.AddNames

/-! # Adding jobs, statement by statement

`add_jobs` and `add_job` as sequences of statements, each of which says which rows it has
written. The advisory locks, the `FOR UPDATE` on keyed rows and the notification write nothing
and are left out.
-/
namespace GraphileWorker.Maintenance
open Foundation Database

inductive NamedTable
  | tasks
  | jobQueues
  deriving DecidableEq

def entries (db : Db) : NamedTable → List (ℕ × String)
  | .tasks => db.tasks.rows.map fun t => (t.id,t.identifier)
  | .jobQueues => db.jobQueues.rows.map fun q => (q.id,q.queueName)

def nextOf (db : Db) : NamedTable → ℕ
  | .tasks => db.tasks.next
  | .jobQueues => db.jobQueues.next

def ref (r : Job) : NamedTable → Option ℕ
  | .tasks => some r.taskId
  | .jobQueues => r.jobQueueId

structure Written where
  tasks : List TaskId := []
  jobQueues : List QueueId := []
  jobs : List JobId := []
  jobRetirements : List JobId := []

namespace Written

def of (w : Written) : NamedTable → List ℕ
  | .tasks => w.tasks
  | .jobQueues => w.jobQueues

def append (w w' : Written) : Written where
  tasks := w.tasks ++ w'.tasks
  jobQueues := w.jobQueues ++ w'.jobQueues
  jobs := w.jobs ++ w'.jobs
  jobRetirements := w.jobRetirements ++ w'.jobRetirements

theorem mem_append {w w' : Written} {τ : NamedTable} {i : ℕ} :
    i ∈ (w.append w').of τ ↔ i ∈ w.of τ ∨ i ∈ w'.of τ := by
  cases τ with
  | tasks => exact List.mem_append
  | jobQueues => exact List.mem_append

end Written

/-- What a statement leaves: the tables, the rows it has written, and the specs of the jobs
it has added. -/
structure Change where
  db : Db
  written : Written := {}
  added : List (DbJobSpec × Job) := []

namespace Change

/-- The queue name with which the statement has added the job. -/
def asked (c : Change) (i : JobId) : Option (Option String) :=
  (c.added.find? fun p => p.2.id == i).map fun p => p.1.queueName

def names (c : Change) (τ : NamedTable) : List String :=
  ((entries c.db τ).filter fun p => (c.written.of τ).contains p.1).map Prod.snd

def keys (c : Change) : List String :=
  (c.db.jobs.rows.filter fun r => c.written.jobs.contains r.id).filterMap Job.key

end Change

inductive AddStatement
  | insertTasks (identifiers : List String)
  | insertQueues (queueNames : List String)
  | retireKeyed (specs : List DbJobSpec)
  /-- `required`: `add_job` raises if no row comes back. -/
  | insertJobs (specs : List DbJobSpec) (preserveRunAt required : Bool)
  | insertDeduped (spec : DbJobSpec)

/-- `insertAll` with the spec of each row that it returns. -/
def insertRows (preserveRunAt : Bool) (now : Time) : Db → List JobId → List DbJobSpec →
    Except SqlError (Db × List (DbJobSpec × Job))
  | db, _, [] => .ok (db,[])
  | db, touched, spec :: rest => do
    let (db₁,row) ← insertOne db touched spec preserveRunAt now
    let (db₂,rows) ← insertRows preserveRunAt now db₁ (touched ++ row.toList.map Job.id) rest
    return (db₂,row.toList.map (fun r => (spec,r)) ++ rows)

/-- The last statement of the `unsafe_dedupe` branch. -/
def dedupeRow (db : Db) (spec : DbJobSpec) (now : Time) : Except SqlError (Db × Option Job) := do
  let some taskId := taskIdOf db spec.identifier | return (db,none)
  checkJob (proposedJob db spec taskId now db.jobs.next)
  match conflicting db spec.jobKey with
  | none =>
    return ({ db with
        jobs := db.jobs.insert (proposedJob db spec taskId now) (rowId_proposedJob db spec taskId now) },
      some (proposedJob db spec taskId now db.jobs.next))
  | some r =>
    if r.revision = 2147483647 then throw .integerOutOfRange
    else
      let drawn := { db with jobs := db.jobs.skip }
      return (drawn.updateJobs (fun s => s.id == r.id) (Job.dedupe now) (Job.rowId_dedupe now),
        some (r.dedupe now))

/-- Identities of `db'` that `db` had not handed out. -/
def newIds (db db' : Db) (τ : NamedTable) : List ℕ :=
  ((entries db' τ).map Prod.fst).filter fun i => decide (nextOf db τ ≤ i)

/-- A row that was only bumped has not been added. -/
def dedupedAs (db : Db) (spec : DbJobSpec) (row : Option Job) : List (DbJobSpec × Job) :=
  if (conflicting db spec.jobKey).isNone then row.toList.map fun r => (spec,r) else []

def AddStatement.run (db : Db) (now : Time) : AddStatement → Except SqlError Change
  | .insertTasks identifiers => do
    let db' ← identifiers.foldlM insertTask db
    return { db := db', written := { tasks := newIds db db' .tasks } }
  | .insertQueues queueNames => do
    let db' ← queueNames.foldlM insertQueue db
    return { db := db', written := { jobQueues := newIds db db' .jobQueues } }
  | .retireKeyed specs =>
    let retired := (db.jobs.rows.filter (retires specs)).map Job.id
    return { db := Database.retireKeyed db specs now, written := { jobs := retired, jobRetirements := retired } }
  | .insertJobs specs preserveRunAt required => do
    let (db',added) ← insertRows preserveRunAt now db [] specs
    if required && added.isEmpty then
      throw (.unableToSchedule ((specs.head?.bind DbJobSpec.jobKey).getD "<null>"))
    return { db := db', written := { jobs := added.map fun p => p.2.id }, added := added }
  | .insertDeduped spec => do
    let (db',row) ← dedupeRow db spec now
    return { db := db', written := { jobs := row.toList.map Job.id }, added := dedupedAs db spec row }

def AddStatement.table : AddStatement → Option NamedTable
  | .insertTasks _ => some .tasks
  | .insertQueues _ => some .jobQueues
  | _ => none

/-- The specs that the statement may add a job for. -/
def AddStatement.specs : AddStatement → List DbJobSpec
  | .insertJobs specs _ _ => specs
  | .insertDeduped spec => [spec]
  | _ => []

inductive AddCall
  | addJobs (specs : List DbJobSpec) (preserveRunAt : Bool)
  | addJob (spec : DbJobSpec) (jobKeyMode : Option String)

def addJobsStatements (specs : List DbJobSpec) (preserveRunAt required : Bool) : List AddStatement :=
  [.insertTasks (specs.map DbJobSpec.identifier).dedup,.insertQueues (specs.filterMap DbJobSpec.queueName).dedup,
    .retireKeyed specs,.insertJobs specs preserveRunAt required]

/-- Only a spec with a queue name makes this branch insert a queue. -/
def dedupeStatements (spec : DbJobSpec) : List AddStatement :=
  .insertTasks [spec.identifier] :: spec.queueName.toList.map (fun q => .insertQueues [q]) ++ [.insertDeduped spec]

def AddCall.statements : AddCall → Except SqlError (List AddStatement)
  | .addJobs specs preserveRunAt => return addJobsStatements specs preserveRunAt false
  | .addJob spec jobKeyMode => do
    if spec.jobKey.isNone || jobKeyMode.isNone || jobKeyMode == some "replace" ||
        jobKeyMode == some "preserve_run_at" then
      let maxAttempts ← toSmallintOpt spec.maxAttempts
      let priority ← toSmallintOpt spec.priority
      return addJobsStatements [{ spec with maxAttempts := maxAttempts, priority := priority }]
        (jobKeyMode == some "preserve_run_at") true
    else if jobKeyMode == some "unsafe_dedupe" then
      let maxAttempts ← toSmallintOpt spec.maxAttempts
      let priority ← toSmallintOpt spec.priority
      return dedupeStatements { spec with maxAttempts := maxAttempts, priority := priority }
    else throw .invalidJobKeyMode

def runAll (db : Db) (now : Time) (statements : List AddStatement) : Except SqlError Db :=
  statements.foldlM (fun d st => (st.run d now).map Change.db) db

def AddCall.run (db : Db) (now : Time) : AddCall → Except SqlError Db
  | .addJobs specs preserveRunAt => (addJobsSql db specs preserveRunAt now).map Prod.fst
  | .addJob spec jobKeyMode => (addJobSql db spec jobKeyMode now).map Prod.fst

variable {db db' : Db} {now : Time} {specs : List DbJobSpec} {spec : DbJobSpec} {preserve : Bool}

theorem AddCall.statements_cases {call : AddCall} {statements : List AddStatement}
    (h : call.statements = .ok statements) :
    (∃ specs preserve required, statements = addJobsStatements specs preserve required) ∨
    ∃ spec, statements = dedupeStatements spec := by
  cases call with
  | addJobs specs preserve =>
    cases h
    exact .inl ⟨specs,preserve,false,rfl⟩
  | addJob spec mode =>
    simp only [AddCall.statements] at h
    split at h
    · obtain ⟨_,_,h⟩ := bind_eq_ok h
      obtain ⟨_,_,h⟩ := bind_eq_ok h
      cases h
      exact .inl ⟨_,_,true,rfl⟩
    · split at h
      · obtain ⟨_,_,h⟩ := bind_eq_ok h
        obtain ⟨_,_,h⟩ := bind_eq_ok h
        cases h
        exact .inr ⟨_,rfl⟩
      · cases h

theorem insertAll_eq (touched : List JobId) : insertAll preserve now db touched specs =
    (insertRows preserve now db touched specs).map fun p => (p.1,p.2.map Prod.snd) := by
  induction specs generalizing db touched with
  | nil => rfl
  | cons spec rest ih =>
    rw [insertAll,insertRows]
    cases insertOne db touched spec preserve now with
    | error e => rfl
    | ok p =>
      obtain ⟨db₁,row⟩ := p
      show (insertAll preserve now db₁ (touched ++ row.toList.map Job.id) rest >>= _) =
        (insertRows preserve now db₁ (touched ++ row.toList.map Job.id) rest >>= _).map _
      rw [ih]
      cases insertRows preserve now db₁ (touched ++ row.toList.map Job.id) rest with
      | error e => rfl
      | ok q => cases row <;> rfl

theorem runAll_cons (st : AddStatement) (rest : List AddStatement) :
    runAll db now (st :: rest) = st.run db now >>= fun c => runAll c.db now rest := by
  show ((st.run db now).map Change.db >>= _) = _
  cases st.run db now with
  | error e => rfl
  | ok c => rfl

theorem runAll_insertTasks (identifiers : List String) (rest : List AddStatement) :
    runAll db now (.insertTasks identifiers :: rest) =
      identifiers.foldlM insertTask db >>= fun d => runAll d now rest := by
  rw [runAll_cons,AddStatement.run]
  cases identifiers.foldlM insertTask db with
  | error e => rfl
  | ok d => rfl

theorem runAll_insertQueues (queueNames : List String) (rest : List AddStatement) :
    runAll db now (.insertQueues queueNames :: rest) =
      queueNames.foldlM insertQueue db >>= fun d => runAll d now rest := by
  rw [runAll_cons,AddStatement.run]
  cases queueNames.foldlM insertQueue db with
  | error e => rfl
  | ok d => rfl

theorem runAll_addJobsStatements (required : Bool) : runAll db now (addJobsStatements specs preserve required) =
    addJobsSql db specs preserve now >>= fun p =>
      if required && p.2.isEmpty then .error (.unableToSchedule ((specs.head?.bind DbJobSpec.jobKey).getD "<null>"))
      else .ok p.1 := by
  rw [addJobsStatements,runAll_insertTasks,addJobsSql,bind_assoc]
  congr 1
  funext db₁
  rw [runAll_insertQueues,bind_assoc]
  congr 1
  funext db₂
  rw [runAll_cons]
  show runAll (retireKeyed db₂ specs now) now [.insertJobs specs preserve required] = _
  rw [runAll_cons,AddStatement.run,insertAll_eq]
  cases insertRows preserve now (retireKeyed db₂ specs now) [] specs with
  | error e => rfl
  | ok q =>
    obtain ⟨d,added⟩ := q
    cases required with
    | false => rfl
    | true => cases added <;> rfl

theorem runAll_dedupeStatements :
    runAll db now (dedupeStatements spec) = (addDeduped db spec now).map Prod.fst := by
  have hlast : ∀ d, runAll d now [.insertDeduped spec] = (dedupeRow d spec now).map Prod.fst := by
    intro d
    rw [runAll_cons,AddStatement.run]
    cases dedupeRow d spec now with
    | error e => rfl
    | ok p => rfl
  have hone : insertTask db spec.identifier = [spec.identifier].foldlM insertTask db := by
    rw [List.foldlM_cons]
    cases insertTask db spec.identifier with
    | error e => rfl
    | ok d => rfl
  have hsql : addDeduped db spec now = (insertTask db spec.identifier >>= fun d =>
      spec.queueName.toList.foldlM insertQueue d >>= fun d => dedupeRow d spec now) := rfl
  rw [dedupeStatements,List.cons_append,runAll_insertTasks,hsql,hone]
  cases [spec.identifier].foldlM insertTask db with
  | error e => rfl
  | ok d =>
    show runAll d now _ = (spec.queueName.toList.foldlM insertQueue d >>= _).map _
    cases hq : spec.queueName with
    | none => exact hlast d
    | some q =>
      show runAll d now (.insertQueues [q] :: [.insertDeduped spec]) = _
      rw [runAll_insertQueues]
      show ([q].foldlM insertQueue d >>= _) = ([q].foldlM insertQueue d >>= _).map _
      cases [q].foldlM insertQueue d with
      | error e => rfl
      | ok d' => exact hlast d'

/-- Nothing is lost by the cut into statements. -/
theorem AddCall.run_eq (call : AddCall) : call.run db now = call.statements >>= runAll db now := by
  cases call with
  | addJobs specs preserve =>
    show _ = runAll db now (addJobsStatements specs preserve false)
    rw [runAll_addJobsStatements,AddCall.run]
    cases addJobsSql db specs preserve now <;> rfl
  | addJob spec mode =>
    rw [AddCall.run,addJobSql,AddCall.statements]
    split
    · cases toSmallintOpt spec.maxAttempts with
      | error e => rfl
      | ok maxAttempts =>
        cases toSmallintOpt spec.priority with
        | error e => rfl
        | ok priority =>
          show (addJobsSql db _ _ now >>= _).map _ = runAll db now (addJobsStatements _ _ true)
          rw [runAll_addJobsStatements]
          cases addJobsSql db [{ spec with maxAttempts := maxAttempts, priority := priority }]
              (mode == some "preserve_run_at") now with
          | error e => rfl
          | ok p =>
            obtain ⟨d,rows⟩ := p
            cases rows <;> rfl
    · split
      · cases toSmallintOpt spec.maxAttempts with
        | error e => rfl
        | ok maxAttempts =>
          cases toSmallintOpt spec.priority with
          | error e => rfl
          | ok priority => exact runAll_dedupeStatements.symm
      · rfl

end GraphileWorker.Maintenance
