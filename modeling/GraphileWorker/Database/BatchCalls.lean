import GraphileWorker.Database.BatchAdd

/-! # The Rust calls for one batch and for its jobs one by one

`add_jobs` sends its list as JSON text, and the server reads a payload that is JSON null as
NULL; `add_job` passes JSON null on. A payload decides nothing else of what a call writes.
-/
namespace GraphileWorker.Database
open Foundation
variable {db d : Db} {spec : DbJobSpec} {specs rest specs' : List DbJobSpec} {now : Time} {preserve : Bool}

def Job.blank (r : Job) : Job := { r with payload := .null }
def DbJobSpec.blank (spec : DbJobSpec) : DbJobSpec := { spec with payload := some .null }

section Rows
variable {t t' : IdTable Job} {names : Db} {rows : List Job} {r row : Job}

end Rows

section Batches
variable {a : Db} {rows : List Job}

theorem SameUpTo.payload {ρ : Renaming} {b : Db} (h : SameUpTo db ρ rows a b) (i : JobId) :
    (b.jobs.find i).map Job.payload = (a.jobs.find i).map Job.payload := by
  rw [h.jobs,renamed,IdTable.find_updateWhere,Option.map_map]
  refine congrArg (fun f => Option.map f _) (funext fun r => ?_)
  rw [Function.comp_apply]
  split <;> rfl

end Batches

section Calls
variable {jobs : List JobToAdd} {job : JobToAdd} {localNow : Option Time}

/-- The values of a spec that are of type `i16`, one setting of `preserve_run_at` for all, and no
mode that a batch does not take. -/
structure JobToAdd.Batchable (preserve : Bool) (job : JobToAdd) : Prop where
  maxAttempts : ∀ m ∈ job.spec.maxAttempts, -32768 ≤ m ∧ m ≤ 32767
  priority : ∀ p ∈ job.spec.priority, -32768 ≤ p ∧ p ≤ 32767
  mode : job.spec.jobKeyMode ≠ some .unsafeDedupe
  preserves : job.spec.jobKeyMode = some .preserveRunAt ↔ preserve = true

def modeText (preserve : Bool) : Option String := if preserve then some "preserve_run_at" else none

theorem replacingMode_modeText (preserve : Bool) : ReplacingMode (modeText preserve) := by
  cases preserve
  · exact .inl rfl
  · exact .inr (.inr rfl)

theorem modeText_beq : (modeText preserve == some "preserve_run_at") = preserve := by
  cases preserve <;> rfl

theorem JobToAdd.Batchable.addJob (h : job.Batchable preserve) :
    Database.addJob db job localNow now =
      (addJobSql db (job.toDb localNow) (modeText preserve) now).mapError .sql := by
  have hsmall : (job.toDb localNow).Smallints := ⟨h.maxAttempts,h.priority⟩
  have hmode : ReplacingMode (job.spec.jobKeyMode.map JobKeyMode.toText) ∧
      (job.spec.jobKeyMode.map JobKeyMode.toText == some "preserve_run_at") = preserve := by
    have hpreserves := h.preserves
    cases hm : job.spec.jobKeyMode with
    | none => cases preserve <;> simp_all [ReplacingMode]
    | some m =>
      cases m with
      | unsafeDedupe => exact absurd hm h.mode
      | replace | preserveRunAt => cases preserve <;> simp_all [ReplacingMode,JobKeyMode.toText]
  rw [Database.addJob,addJobSql_of_smallints hmode.1 hsmall,
    addJobSql_of_smallints (replacingMode_modeText preserve) hsmall,hmode.2,modeText_beq]

theorem SameUpTo.refl (db : Db) : SameUpTo db ⟨.refl _,.refl _⟩ [] db db where
  task_before _ _ := rfl
  queue_before _ _ := rfl
  tasks := ⟨by rw [show Task.rename ⟨.refl _,.refl _⟩ = id from rfl,List.map_id],rfl⟩
  jobQueues := ⟨by rw [show JobQueue.rename ⟨.refl _,.refl _⟩ = id from rfl,List.map_id],rfl⟩
  jobs := (IdTable.updateWhere_none _ _ _ _ fun _ _ => rfl).symm
  jobRetirements _ := rfl

end Calls
end GraphileWorker.Database
