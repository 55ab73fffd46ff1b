import GraphileWorker.Database.AddJobOk
import GraphileWorker.Database.PutRow

/-! # One batch against repeated adds

Both are a registration of names and puts of rows into the jobs table. The puts are the same;
the names come in another order, so only generated ids differ.
-/
namespace GraphileWorker.Database
open Foundation
variable {db d : Db} {spec : DbJobSpec} {specs rest : List DbJobSpec} {now : Time} {preserve : Bool}

/-- The columns `max_attempts` and `priority` of `job_spec` are `smallint`. -/
def DbJobSpec.Smallints (spec : DbJobSpec) : Prop :=
  (∀ m ∈ spec.maxAttempts, -32768 ≤ m ∧ m ≤ 32767) ∧ ∀ p ∈ spec.priority, -32768 ≤ p ∧ p ≤ 32767

section Calls
variable {mode : Option String} {t : IdTable Job}

/-- `limit 1`, with the error for a call that gave no row. -/
def firstRow (key : Option String) (p : Db × List Job) : Except SqlError (Db × Option Job) :=
  match p.2.head? with
  | none => .error (.unableToSchedule (key.getD "<null>"))
  | some job => .ok (p.1,some job)

theorem addJobSql_of_smallints (hm : ReplacingMode mode) (hs : spec.Smallints) : addJobSql db spec mode now =
    addJobsSql db [spec] (mode == some "preserve_run_at") now >>= firstRow spec.jobKey := by
  rw [addJobSql,if_pos hm.replaces,bind_of_ok (toSmallintOpt_ok hs.1),bind_of_ok (toSmallintOpt_ok hs.2)]
  rfl

def marked (specs : List DbJobSpec) (t : IdTable Job) (i : JobId) : Bool :=
  t.rows.any fun r => r.id == i && retires specs r

end Calls

/-- Two outcomes of the same specs differ by a renaming of the ids that were generated for
tasks and queues; `rows` are the rows that the first one has written. Job ids need no
renaming, since both draw one for each spec in turn. -/
structure SameUpTo (db : Db) (ρ : Renaming) (rows : List Job) (a b : Db) : Prop where
  task_before : ∀ i < db.tasks.next, ρ.task i = i
  queue_before : ∀ i < db.jobQueues.next, ρ.queue i = i
  tasks : (a.tasks.rows.map (Task.rename ρ)).Perm b.tasks.rows ∧ a.tasks.next = b.tasks.next
  jobQueues : (a.jobQueues.rows.map (JobQueue.rename ρ)).Perm b.jobQueues.rows ∧ a.jobQueues.next = b.jobQueues.next
  jobs : b.jobs = renamed ρ (rows.map Job.id) a.jobs
  jobRetirements : ∀ i, a.isRetired i = b.isRetired i

end GraphileWorker.Database
