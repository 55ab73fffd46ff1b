import GraphileWorker.Database.AddNames

/-! # Putting rows into the jobs table

One row of the `INSERT` of `add_jobs`, as a step of the jobs table alone: the task and the
queue are looked up in tables that are given beforehand.
-/
namespace GraphileWorker.Database
open Foundation
variable {db d : Db} {spec : DbJobSpec} {specs rest : List DbJobSpec} {now : Time} {preserve : Bool}

/-- The row of a spec, with its task and its queue looked up in `names`. -/
def rowOf (names : Db) (spec : DbJobSpec) (now : Time) (n : ℕ) : Job :=
  proposedJob names spec ((taskIdOf names spec.identifier).getD 0) now n

theorem rowId_rowOf (names : Db) (spec : DbJobSpec) (now : Time) (n : ℕ) : rowId (rowOf names spec now n) = n := rfl

def keyed (t : IdTable Job) (key : Option String) : Option Job :=
  key.bind fun k => t.rows.find? fun r => r.key == some k

/-- Puts the row of a spec into the jobs table, in the place of the row that has its key. -/
def put (names : Db) (preserve : Bool) (now : Time) (t : IdTable Job) (spec : DbJobSpec) :
    Except SqlError (IdTable Job × Job) := do
  checkJob (rowOf names spec now t.next)
  match keyed t spec.jobKey with
  | none => .ok (t.insert (rowOf names spec now) (rowId_rowOf names spec now),rowOf names spec now t.next)
  | some r =>
    if r.revision = 2147483647 then .error .integerOutOfRange
    else .ok (t.skip.updateWhere (fun s => s.id == r.id) (Job.replaceWith (rowOf names spec now t.next) preserve now)
        (Job.rowId_replaceWith (rowOf names spec now t.next) preserve now),
      Job.replaceWith (rowOf names spec now t.next) preserve now r)

/-- The jobs table without the keys that cannot be replaced. -/
def retired (now : Time) (t : IdTable Job) (specs : List DbJobSpec) : IdTable Job :=
  t.updateWhere (retires specs) (Job.retire now) (Job.rowId_retire now)

section Rows
variable {t : IdTable Job} {names names' : Db} {key : Option String} {r : Job}

theorem keyed_eq_some (h : keyed t key = some r) : r ∈ t.rows ∧ r.key = key ∧ key.isSome = true := by
  obtain ⟨k,rfl,hf⟩ := Option.bind_eq_some_iff.mp h
  exact ⟨List.mem_of_find?_eq_some hf,by simpa using List.find?_some hf,rfl⟩

theorem retires_eq_false (h : ∀ spec ∈ specs, spec.jobKey.isSome = true → r.key ≠ spec.jobKey) :
    retires specs r = false := by
  have hany : (specs.any fun spec => spec.jobKey.isSome && r.key == spec.jobKey) = false := by
    rw [List.any_eq_false]
    intro spec hspec hc
    obtain ⟨hsome,he⟩ := Bool.and_eq_true_iff.mp hc
    exact h spec hspec hsome (by simpa using he)
  rw [retires,hany,Bool.false_and]

def Apart (spec : DbJobSpec) (rest : List DbJobSpec) : Prop :=
  ∀ other ∈ rest, other.jobKey.isSome = true → spec.jobKey ≠ other.jobKey

theorem Apart.retires (h : Apart spec rest) (hr : r.key = spec.jobKey) : Database.retires rest r = false :=
  retires_eq_false fun other ho hs => hr ▸ h other ho hs

end Rows

section Inserts
variable {t : IdTable Job} {names : Db} {touched : List JobId}

/-- Rows that have one of the keys are unlocked, and the command has not written them. -/
def Untouched (t : IdTable Job) (specs : List DbJobSpec) (touched : List JobId) : Prop :=
  ∀ r ∈ t.rows, ∀ spec ∈ specs, spec.jobKey.isSome = true → r.key = spec.jobKey → r.lock = none ∧ r.id ∉ touched

theorem Untouched.put {p : IdTable Job × Job} (h : Untouched t (spec :: rest) touched)
    (hapart : Apart spec rest) (hp : put names preserve now t spec = .ok p) :
    Untouched p.1 rest (touched ++ [p.2.id]) := by
  obtain ⟨_,_,hp⟩ := bind_eq_ok hp
  intro r hr other ho hs hkey
  cases hk : keyed t spec.jobKey with
  | none =>
    rw [hk] at hp
    cases hp
    rcases List.mem_append.mp hr with hr | hr
    · obtain ⟨hl,hi⟩ := h r hr other (List.mem_cons_of_mem spec ho) hs hkey
      have hlt : r.id < t.next := t.lt_next r hr
      refine ⟨hl,fun hmem => ?_⟩
      rcases List.mem_append.mp hmem with hmem | hmem
      · exact hi hmem
      · exact absurd (List.mem_singleton.mp hmem) (Nat.ne_of_lt hlt)
    · rw [List.mem_singleton.mp hr] at hkey
      exact absurd hkey (hapart other ho hs)
  | some old =>
    obtain ⟨hold,hkeyold,-⟩ := keyed_eq_some hk
    simp only [hk] at hp
    split at hp
    · cases hp
    · cases hp
      obtain ⟨s,hmem,rfl⟩ := List.mem_map.mp hr
      have hmem : s ∈ t.rows := hmem
      by_cases hid : s.id = old.id
      · have hse : s = old := IdTable.eq_of_rowId hmem hold hid
        rw [if_pos (beq_iff_eq.mpr hid)] at hkey
        have hkey : old.key = other.jobKey := hse ▸ hkey
        exact absurd (hkeyold.symm.trans hkey) (hapart other ho hs)
      · rw [if_neg (by simpa using hid)] at hkey ⊢
        obtain ⟨hl,hi⟩ := h s hmem other (List.mem_cons_of_mem spec ho) hs hkey
        refine ⟨hl,fun hin => ?_⟩
        rcases List.mem_append.mp hin with hin | hin
        · exact hi hin
        · exact hid (List.mem_singleton.mp hin)

end Inserts

structure Renaming where
  task : Equiv.Perm TaskId
  queue : Equiv.Perm QueueId

def Job.rename (ρ : Renaming) (r : Job) : Job :=
  { r with jobQueueId := r.jobQueueId.map ρ.queue, taskId := ρ.task r.taskId }
def Task.rename (ρ : Renaming) (t : Task) : Task := { t with id := ρ.task t.id }
def JobQueue.rename (ρ : Renaming) (q : JobQueue) : JobQueue := { q with id := ρ.queue q.id }

theorem Job.rowId_rename (ρ : Renaming) (r : Job) : rowId (r.rename ρ) = rowId r := rfl

/-- The jobs table with the references of the listed rows renamed. -/
def renamed (ρ : Renaming) (written : List JobId) (t : IdTable Job) : IdTable Job :=
  t.updateWhere (fun r => written.contains r.id) (Job.rename ρ) (Job.rowId_rename ρ)

section Renamed
variable {t : IdTable Job} {names names' : Db} {ρ : Renaming} {written : List JobId}

end Renamed

end GraphileWorker.Database
