import GraphileWorker.Hooks.Schedule
import GraphileWorker.Recovery.RowWrites
import Mathlib.Data.List.Dedup
import Mathlib.Logic.Function.Basic

/-! # The jobs that the helpers return

The identifier of a returned `Job` is looked up under the id of its task: in the cached
details for the typed `add_jobs`, in details that were just read for `add_raw_jobs`.
-/
namespace GraphileWorker.Hooks
open Foundation Database Recovery

abbrev TaskDetails := TaskId → Option String

namespace TaskDetails

def new : TaskDetails := fun _ => none

def insert (details : TaskDetails) (id : TaskId) (identifier : String) : TaskDetails :=
  Function.update details id (some identifier)

def getOrEmpty (details : TaskDetails) (taskId : TaskId) : String := (details taskId).getD ""

end TaskDetails

def taskRowsToDetails (tasks : List Task) : TaskDetails :=
  tasks.foldl (fun details row => details.insert row.id row.identifier) .new

def getTasksDetails (db : Db) (taskNames : List String) : Except SqlError (Db × TaskDetails) := do
  if taskNames.isEmpty then return (db,.new)
  let db₁ ← taskNames.dedup.foldlM insertTask db
  return (db₁,taskRowsToDetails (db₁.tasks.rows.filter fun row => taskNames.contains row.identifier))

def uniqueIdentifiers (jobs : List JobToAdd) : List String := (jobs.map JobToAdd.identifier).eraseDups

/-- `Job::from_db_job`. -/
structure AddedJob where
  row : Job
  taskIdentifier : String

/-- `add_jobs` of the query layer. -/
def insertJobs (db : Db) (jobs : List JobToAdd) (details : TaskDetails) (preserveRunAt : Bool)
    (localNow : Option Time) (now : Time) : Except GraphileWorkerError (Db × List AddedJob) := do
  let (db',rows) ← Database.addJobs db jobs preserveRunAt localNow now
  return (db',rows.map fun row => ⟨row,details.getOrEmpty row.taskId⟩)

namespace WorkerUtils
variable (utils : WorkerUtils)

/-- `add_jobs::<T>`, with the cached details and `T::IDENTIFIER`. -/
def addedJobs (details : TaskDetails) (clock now : Time) (db : Db) (identifier : String)
    (jobs : List (Json × JobSpec)) : Except GraphileWorkerError (Db × List AddedJob) := do
  if jobs.isEmpty then return (db,[])
  let (jobsToAdd,preserveRunAt) ← utils.prepareBatchJobs (jobs.map fun job => ⟨identifier,job.1,job.2⟩) [] false
  insertJobs db jobsToAdd details preserveRunAt (utils.localNow clock) now

/-- `add_raw_jobs`; `others` is what other processes do between its two requests. -/
def addedRawJobs (others : Db → Db) (clock now : Time) (db : Db) (jobs : List JobToAdd) :
    Except GraphileWorkerError (Db × List AddedJob) := do
  if jobs.isEmpty then return (db,[])
  let (jobsToAdd,preserveRunAt) ← utils.prepareBatchJobs jobs [] false
  let (db₁,details) ← (getTasksDetails db (uniqueIdentifiers jobs)).mapError .sql
  insertJobs (others db₁) jobsToAdd details preserveRunAt (utils.localNow clock) now

/-- `add_job` and `add_raw_job`. -/
def addedJob (clock now : Time) (db : Db) (job : JobToAdd) : Except GraphileWorkerError (Db × Option AddedJob) := do
  let payload ← utils.invokeBeforeJobSchedule job
  let (db',row) ← Database.addJob db { job with payload := payload } (utils.localNow clock) now
  return (db',row.map fun row => ⟨row,job.identifier⟩)

end WorkerUtils

variable {db db' : Db} {now : Time} {spec : DbJobSpec} {specs : List DbJobSpec} {preserve : Bool} {i : TaskId}
  {identifiers : List String} {touched : List JobId} {rows : List Job} {details : TaskDetails}

theorem taskIdOf_insertTask {identifier y : String} (h : insertTask db identifier = .ok db')
    (hy : taskIdOf db y = some i) : taskIdOf db' y = some i := by
  obtain ⟨t,ht,rfl⟩ := Option.map_eq_some_iff.mp hy
  obtain rfl | rfl := insertTask_cases h
  · exact hy
  · simp [taskIdOf,IdTable.insert,List.find?_append,ht]

theorem taskIdOf_insertTasks {y : String}
    (h : identifiers.foldlM insertTask db = .ok db') (hy : taskIdOf db y = some i) : taskIdOf db' y = some i :=
  foldlM_invariant (I := fun d => taskIdOf d y = some i) (fun _ _ _ hb he => taskIdOf_insertTask he hb) hy h

/-- A task that was missing gets the next id. -/
def assignedTaskId (db : Db) (identifier : String) : TaskId := (taskIdOf db identifier).getD db.tasks.next

theorem taskIdOf_inserted {identifier : String} (h : insertTask db identifier = .ok db') :
    taskIdOf db' identifier = some (assignedTaskId db identifier) := by
  unfold insertTask at h
  split at h
  · rename_i hsome
    obtain ⟨i,hi⟩ := Option.isSome_iff_exists.mp hsome
    cases h
    rw [assignedTaskId,hi]
    rfl
  · rename_i hnone
    have hnone : taskIdOf db identifier = none := by simpa using hnone
    have hfind : db.tasks.rows.find? (fun t => t.identifier == identifier) = none := by simpa [taskIdOf] using hnone
    split at h
    · cases h
      rw [assignedTaskId,hnone]
      simp [taskIdOf,IdTable.insert,List.find?_append,hfind,newTask]
    · cases h

theorem isSome_taskIdOf_insertTasks (h : identifiers.foldlM insertTask db = .ok db') :
    ∀ y ∈ identifiers, (taskIdOf db' y).isSome = true := by
  induction identifiers generalizing db with
  | nil => exact nofun
  | cons x rest ih =>
    obtain ⟨db₁,h₁,hrest⟩ := bind_eq_ok h
    refine List.forall_mem_cons.mpr ⟨?_,ih hrest⟩
    rw [taskIdOf_insertTasks hrest (taskIdOf_inserted h₁)]
    rfl

theorem taskId_of_insertOne {row : Option Job}
    (ht : taskIdOf db spec.identifier = some i) (hl : ∀ r, conflicting db spec.jobKey = some r → r.lock = none)
    (h : insertOne db touched spec preserve now = .ok (db',row)) :
    (∃ r, row = some r ∧ r.taskId = i) ∧ db'.tasks = db.tasks := by
  cases insertOne_cases h with
  | unknown hnone =>
    rw [ht] at hnone
    cases hnone
  | skipped r hc hlocked =>
    rw [hl r hc] at hlocked
    cases hlocked
  | inserted taskId htask | replaced taskId _ htask =>
    cases ht.symm.trans htask
    exact ⟨⟨_,rfl,rfl⟩,rfl⟩

theorem taskIds_of_insertAll {todo : List DbJobSpec} (hsub : todo ⊆ specs)
    (hk : KeyedAvailable specs db) (ht : ∀ s ∈ todo, (taskIdOf db s.identifier).isSome = true)
    (h : insertAll preserve now db touched todo = .ok (db',rows)) :
    List.Forall₂ (fun s r => taskIdOf db s.identifier = some r.taskId) todo rows := by
  induction todo generalizing db touched rows with
  | nil =>
    cases h
    exact .nil
  | cons spec rest ih =>
    obtain ⟨⟨db₁,row⟩,h₁,h⟩ := bind_eq_ok h
    obtain ⟨⟨db₂,rows₂⟩,h₂,h⟩ := bind_eq_ok h
    cases h
    have hspec := hsub List.mem_cons_self
    obtain ⟨i,hi⟩ := Option.isSome_iff_exists.mp (ht spec List.mem_cons_self)
    obtain ⟨⟨r,rfl,hr⟩,htasks⟩ := taskId_of_insertOne hi (fun r hc => unlocked_of_isAvailable (hk.conflicting hspec hc)) h₁
    have hsame : ∀ y, taskIdOf db₁ y = taskIdOf db y := fun y => by rw [taskIdOf,htasks,taskIdOf]
    have hrest := ih (fun x hx => hsub (List.mem_cons_of_mem spec hx)) (keyedAvailable_insertOne hk h₁)
      (fun s hs => by rw [hsame]; exact ht s (List.mem_cons_of_mem spec hs)) h₂
    simp only [hsame] at hrest
    exact .cons (by rw [hi,hr]) hrest

theorem taskIds_of_addJobsSql (h : addJobsSql db specs preserve now = .ok (db',rows)) :
    ∃ db₁, (specs.map DbJobSpec.identifier).dedup.foldlM insertTask db = .ok db₁ ∧
      List.Forall₂ (fun s r => taskIdOf db₁ s.identifier = some r.taskId) specs rows := by
  obtain ⟨db₁,h₁,h⟩ := bind_eq_ok h
  obtain ⟨db₂,h₂,h⟩ := bind_eq_ok h
  have htasks : db₂.tasks = db₁.tasks := by
    refine foldlM_invariant (I := fun d => d.tasks = db₁.tasks) (fun b a b' hb he => ?_) rfl h₂
    obtain rfl | rfl := insertQueue_cases he
    · exact hb
    · exact hb
  have hsame : ∀ y, taskIdOf (retireKeyed db₂ specs now) y = taskIdOf db₁ y := by
    intro y
    have hretire : (retireKeyed db₂ specs now).tasks = db₂.tasks := rfl
    rw [taskIdOf,hretire,htasks,taskIdOf]
  have hsome : ∀ s ∈ specs, (taskIdOf (retireKeyed db₂ specs now) s.identifier).isSome = true := by
    intro s hs
    rw [hsame]
    exact isSome_taskIdOf_insertTasks h₁ _ (List.mem_dedup.mpr (List.mem_map_of_mem hs))
  have hrows := taskIds_of_insertAll (List.Subset.refl specs) keyedAvailable_retireKeyed hsome h
  simp only [hsame] at hrows
  exact ⟨db₁,h₁,hrows⟩

theorem map_identifier_prepared {utils : WorkerUtils} {jobs acc jobsToAdd : List JobToAdd} {b b' : Bool}
    (h : utils.prepareBatchJobs jobs acc b = .ok (jobsToAdd,b')) :
    jobsToAdd.map JobToAdd.identifier = acc.map JobToAdd.identifier ++ jobs.map JobToAdd.identifier := by
  induction jobs generalizing acc b with
  | nil =>
    cases h
    simp
  | cons job rest ih =>
    obtain ⟨payload,-,h⟩ := bind_eq_ok h
    rw [ih h]
    simp

theorem identifiers_of_insertJobs {jobs : List JobToAdd} {localNow : Option Time}
    {added : List AddedJob} (hne : jobs ≠ []) (h : insertJobs db jobs details preserve localNow now = .ok (db',added)) :
    ∃ db₁, (jobs.map JobToAdd.identifier).dedup.foldlM insertTask db = .ok db₁ ∧
      List.Forall₂ (fun x j => ∃ i, taskIdOf db₁ x = some i ∧ j.taskIdentifier = details.getOrEmpty i)
        (jobs.map JobToAdd.identifier) added := by
  obtain ⟨⟨d,rows⟩,hadd,h⟩ := bind_eq_ok h
  cases h
  rw [Database.addJobs,if_neg (by simpa using hne)] at hadd
  obtain ⟨_,_,hadd⟩ := bind_eq_ok hadd
  obtain ⟨db₁,h₁,hrows⟩ := taskIds_of_addJobsSql (mapError_eq_ok.mp hadd)
  have hmap : (jobs.map fun job => job.toBatchDb localNow).map DbJobSpec.identifier = jobs.map JobToAdd.identifier := by
    rw [List.map_map]
    rfl
  rw [hmap] at h₁
  refine ⟨db₁,h₁,?_⟩
  rw [List.forall₂_map_left_iff] at hrows
  rw [List.forall₂_map_left_iff,List.forall₂_map_right_iff]
  exact hrows.imp fun job r hr => ⟨r.taskId,hr,rfl⟩

theorem taskRowsToDetails_of_mem {tasks : List Task} (hn : (tasks.map Task.id).Nodup) {t : Task} (ht : t ∈ tasks) :
    taskRowsToDetails tasks t.id = some t.identifier := by
  have hfold : ∀ (tasks : List Task) (details : TaskDetails), (tasks.map Task.id).Nodup →
      (∀ t ∈ tasks, tasks.foldl (fun details row => details.insert row.id row.identifier) details t.id =
        some t.identifier) ∧ ∀ i, i ∉ tasks.map Task.id →
        tasks.foldl (fun details row => details.insert row.id row.identifier) details i = details i := by
    intro tasks
    induction tasks with
    | nil => exact fun details _ => ⟨nofun,fun _ _ => rfl⟩
    | cons s rest ih =>
      intro details hn
      obtain ⟨hs,hrest⟩ := List.nodup_cons.mp hn
      obtain ⟨hin,hout⟩ := ih (details.insert s.id s.identifier) hrest
      constructor
      · refine List.forall_mem_cons.mpr ⟨?_,hin⟩
        rw [List.foldl_cons,hout s.id hs,TaskDetails.insert,Function.update_self]
      · intro i hi
        rw [List.map_cons,List.mem_cons,not_or] at hi
        rw [List.foldl_cons,hout i hi.2,TaskDetails.insert,Function.update_of_ne hi.1]
  exact (hfold tasks .new hn).1 t ht

theorem getOrEmpty_of_getTasksDetails {names : List String}
    (h : getTasksDetails db names = .ok (db',details)) {x : String} (hx : x ∈ names) :
    ∃ i, taskIdOf db' x = some i ∧ details.getOrEmpty i = x := by
  have hne : ¬names.isEmpty = true := by
    rw [List.isEmpty_iff]
    rintro rfl
    cases hx
  rw [getTasksDetails,if_neg hne] at h
  obtain ⟨db₁,h₁,h⟩ := bind_eq_ok h
  cases h
  obtain ⟨i,hi⟩ := Option.isSome_iff_exists.mp (isSome_taskIdOf_insertTasks h₁ x (List.mem_dedup.mpr hx))
  obtain ⟨t,ht,rfl⟩ := Option.map_eq_some_iff.mp hi
  have hmem := List.mem_of_find?_eq_some ht
  have hname : t.identifier = x := by simpa using List.find?_some ht
  have hids : ((db'.tasks.rows.filter fun row => names.contains row.identifier).map Task.id).Nodup :=
    db'.tasks.nodup.sublist ((List.filter_sublist).map rowId)
  refine ⟨t.id,hi,?_⟩
  rw [TaskDetails.getOrEmpty,taskRowsToDetails_of_mem hids (List.mem_filter.mpr ⟨hmem,by simp [hname,hx]⟩),hname]
  rfl

theorem forall_of_forall₂_replicate {α β : Type} {R : α → β → Prop} {n : ℕ} {x : α} {ys : List β}
    (h : List.Forall₂ R (List.replicate n x) ys) : ∀ y ∈ ys, R x y := by
  induction n generalizing ys with
  | zero =>
    cases h
    exact nofun
  | succ n ih =>
    rw [List.replicate_succ] at h
    cases h with
    | cons hR hrest => exact List.forall_mem_cons.mpr ⟨hR,ih hrest⟩

/-- The jobs returned by the typed `add_jobs` have its identifier exactly if the cache has the id of the task
under it; those of `add_raw_jobs` if no task that was just read is replaced before the insert. -/
theorem returned_jobs_carry_task_iff (utils : WorkerUtils) (clock now : Time) (db : Db) :
    (∀ details identifier jobs db' added, jobs ≠ [] →
      utils.addedJobs details clock now db identifier jobs = .ok (db',added) →
      ((∀ j ∈ added, j.taskIdentifier = identifier) ↔
        details.getOrEmpty (assignedTaskId db identifier) = identifier)) ∧
    (∀ others jobs db' added, jobs ≠ [] → utils.addedRawJobs others clock now db jobs = .ok (db',added) →
      (∀ db₁ details, getTasksDetails db (uniqueIdentifiers jobs) = .ok (db₁,details) →
        ∀ job ∈ jobs, taskIdOf (others db₁) job.identifier = taskIdOf db₁ job.identifier) →
      List.Forall₂ (fun job j => j.taskIdentifier = job.identifier) jobs added) ∧
    ∀ job db' added, utils.addedJob clock now db job = .ok (db',some added) →
      added.taskIdentifier = job.identifier := by
  refine ⟨?_,?_,?_⟩
  · intro details identifier jobs db' added hne h
    rw [WorkerUtils.addedJobs,if_neg (by simpa using hne)] at h
    obtain ⟨⟨jobsToAdd,preserve⟩,hprepared,h⟩ := bind_eq_ok h
    have hnames : jobsToAdd.map JobToAdd.identifier = List.replicate jobs.length identifier := by
      rw [map_identifier_prepared hprepared,List.map_nil,List.nil_append,List.map_map]
      exact List.map_const' ..
    have hlength : jobs.length ≠ 0 := by simpa using hne
    have hnonempty : jobsToAdd ≠ [] := by
      rintro rfl
      exact hlength (by simpa using hnames)
    obtain ⟨db₁,h₁,hall⟩ := identifiers_of_insertJobs hnonempty h
    rw [hnames] at h₁ hall
    rw [List.replicate_dedup hlength] at h₁
    obtain ⟨db₂,h₂,hnil⟩ := bind_eq_ok h₁
    cases hnil
    have hassigned := taskIdOf_inserted h₂
    have heach : ∀ j ∈ added, j.taskIdentifier = details.getOrEmpty (assignedTaskId db identifier) := by
      intro j hj
      obtain ⟨i,hi,hj⟩ := forall_of_forall₂_replicate hall j hj
      rw [hassigned] at hi
      cases hi
      exact hj
    constructor
    · intro hcarry
      have hlen := hall.length_eq
      rw [List.length_replicate] at hlen
      obtain ⟨j,hj⟩ := List.exists_mem_of_length_pos (hlen ▸ Nat.pos_of_ne_zero hlength)
      exact (heach j hj).symm.trans (hcarry j hj)
    · exact fun hcached j hj => (heach j hj).trans hcached
  · intro others jobs db' added hne h hkept
    rw [WorkerUtils.addedRawJobs,if_neg (by simpa using hne)] at h
    obtain ⟨⟨jobsToAdd,preserve⟩,hprepared,h⟩ := bind_eq_ok h
    obtain ⟨⟨db₁,details⟩,hdetails,h⟩ := bind_eq_ok h
    have hdetails := mapError_eq_ok.mp hdetails
    have hnames : jobsToAdd.map JobToAdd.identifier = jobs.map JobToAdd.identifier := map_identifier_prepared hprepared
    have hnonempty : jobsToAdd ≠ [] := by
      rintro rfl
      exact hne (List.map_eq_nil_iff.mp hnames.symm)
    obtain ⟨db₂,h₂,hall⟩ := identifiers_of_insertJobs hnonempty h
    rw [hnames,List.forall₂_map_left_iff] at hall
    have hmem : ∀ job ∈ jobs, job ∈ jobs := fun _ hjob => hjob
    have hboth := (List.forall₂_and_left jobs added).mpr ⟨hmem,hall⟩
    refine hboth.imp fun job j hj => ?_
    obtain ⟨hjob,i,hi,hj⟩ := hj
    have hasked : job.identifier ∈ uniqueIdentifiers jobs := List.mem_eraseDups.mpr (List.mem_map_of_mem hjob)
    obtain ⟨i',hi',hname⟩ := getOrEmpty_of_getTasksDetails hdetails hasked
    have hstays := taskIdOf_insertTasks h₂ ((hkept db₁ details hdetails job hjob).trans hi')
    rw [hi] at hstays
    cases hstays
    exact hj.trans hname
  · intro job db' added h
    obtain ⟨payload,-,h⟩ := bind_eq_ok h
    obtain ⟨⟨d,row⟩,-,h⟩ := bind_eq_ok h
    cases row with
    | none => cases h
    | some row =>
      cases h
      rfl

theorem cached_task_carried : ∃ db' added,
    ({} : WorkerUtils).addedJobs (TaskDetails.new.insert 1 "task") 0 0 .empty "task" [(.null,{})] = .ok (db',added) ∧
      (∀ j ∈ added, j.taskIdentifier = "task") ∧ added.length = 1 :=
  ⟨_,_,rfl,((returned_jobs_carry_task_iff {} 0 0 .empty).1 (TaskDetails.new.insert 1 "task") "task" [(.null,{})] _ _
    (List.cons_ne_nil _ _) rfl).mpr rfl,rfl⟩

/-- With an empty cache the returned job has the empty identifier, though its row has the task. -/
theorem uncached_task_lost : ∃ db' added job,
    ({} : WorkerUtils).addedJobs .new 0 0 .empty "task" [(.object [],{})] = .ok (db',added) ∧
      added.map AddedJob.taskIdentifier = [""] ∧ ¬(∀ j ∈ added, j.taskIdentifier = "task") ∧
      ({} : WorkerUtils).addedJob 0 0 .empty ⟨"task",.object [],{}⟩ = .ok (db',some job) ∧ job.taskIdentifier = "task" :=
  ⟨_,_,_,rfl,rfl,fun h => absurd (h _ List.mem_cons_self) (by decide),rfl,rfl⟩

end GraphileWorker.Hooks
