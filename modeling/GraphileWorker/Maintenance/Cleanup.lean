import GraphileWorker.Recovery.RowWrites

/-! # Cleanup of the tables

The cleanup of failed jobs asks for `attempts = max_attempts`, while a job is dead as soon as
`attempts >= max_attempts`; only a schedule that is set by hand can go beyond.
-/
namespace GraphileWorker.Maintenance
open Foundation Database Recovery

/-- The deprecated misspelling of the last one does the same. -/
inductive CleanupTask
  | gcTaskIdentifiers
  | gcJobQueues
  | deletePermanentlyFailedJobs
  deriving DecidableEq

def permanentlyFailed (r : Job) : Bool := decide (r.attempts = r.maxAttempts) && r.lock.isNone

def unusedTask (db : Db) (keep : List String) (t : Task) : Bool :=
  !(db.jobs.rows.any fun r => r.taskId == t.id) && !keep.contains t.identifier

def unusedQueue (db : Db) (q : JobQueue) : Bool :=
  q.lock.isNone && !(db.jobs.rows.any fun r => r.jobQueueId == some q.id)

def CleanupTask.execute (db : Db) (taskIdentifiersToKeep : List String) : CleanupTask → Db
  | .deletePermanentlyFailedJobs => db.deleteJobs permanentlyFailed
  | .gcTaskIdentifiers => { db with tasks := db.tasks.deleteWhere (unusedTask db taskIdentifiersToKeep) }
  | .gcJobQueues => { db with jobQueues := db.jobQueues.deleteWhere (unusedQueue db) }

structure JobStats where
  total : ℕ
  ready : ℕ
  scheduled : ℕ
  locked : ℕ
  failed : ℕ
  deriving DecidableEq

def isFailed (r : Job) : Bool := r.lock.isNone && decide (r.maxAttempts ≤ r.attempts)

def getStats (db : Db) (now : Time) : JobStats where
  total := db.jobs.rows.length
  ready := db.jobs.rows.countP fun r => r.lock.isNone && decide (r.attempts < r.maxAttempts) && decide (r.runAt ≤ now)
  scheduled :=
    db.jobs.rows.countP fun r => r.lock.isNone && decide (r.attempts < r.maxAttempts) && decide (now < r.runAt)
  locked := db.jobs.rows.countP fun r => r.lock.isSome
  failed := db.jobs.rows.countP isFailed

def WithinMax (db : Db) : Prop := ∀ r ∈ db.jobs.rows, r.lock = none → r.attempts ≤ r.maxAttempts

instance (db : Db) : Decidable (WithinMax db) := inferInstanceAs (Decidable (∀ r ∈ db.jobs.rows, _))

def AllWithinMax (db : Db) : Prop := ∀ r ∈ db.jobs.rows, r.attempts ≤ r.maxAttempts

instance (db : Db) : Decidable (AllWithinMax db) := inferInstanceAs (Decidable (∀ r ∈ db.jobs.rows, _))

/-- A statement that sets a schedule leaves no job beyond its maximum. -/
def LeavesWithin (db : Db) (c : RecoveryCall) : Prop := reschedules c.2 ≠ [] → AllWithinMax (c.2.run db c.1)

instance (db : Db) (c : RecoveryCall) : Decidable (LeavesWithin db c) :=
  inferInstanceAs (Decidable (reschedules c.2 ≠ [] → _))

/-- Bounds that every row has; `max_attempts` is checked wherever it is written. -/
def Bounded (r : Job) : Prop := 1 ≤ r.maxAttempts ∧ r.attempts ≤ r.maxAttempts

variable {db db' : Db} {now : Time} {r r' : Job} {st : RecoveryStatement} {keep : List String}

theorem bounded_write (h : Write now st r r') (hs : reschedules st = []) (hr : Bounded r) : Bounded r' := by
  obtain ⟨hmax,hle⟩ := hr
  cases h with
  | replaced excluded preserve ha hm => exact ⟨hm,by simp only [Job.replaceWith]; omega⟩
  | deduped => exact ⟨hmax,hle⟩
  | retired => exact ⟨hmax,le_refl _⟩
  | claimed w ha =>
    have : r.attempts < r.maxAttempts := by simpa using (Bool.and_eq_true_iff.mp ha).2
    exact ⟨hmax,by simp only [Job.claim]; omega⟩
  | failed => exact ⟨hmax,hle⟩
  | released w r' hl hg hid hn hm ha =>
    rw [Bounded,hm]
    refine ⟨hmax,?_⟩
    rcases ha with ha | ⟨-,ha⟩
    · omega
    · rw [ha]
      omega
  | failedPermanently message => exact ⟨hmax,le_refl _⟩
  | rescheduled o hi hm => simp [hs] at hi
  | scheduled runAt attempts hi => simp [hs] at hi

theorem one_le_maxAttempts_write (h : Write now st r r')
    (hr : 1 ≤ r.maxAttempts) : 1 ≤ r'.maxAttempts := by
  cases h with
  | replaced excluded preserve ha hm => exact hm
  | released w r' hl hg hid hn hm ha => rw [hm]; exact hr
  | rescheduled o hi hm => exact hm
  | deduped | retired | claimed | failed | failedPermanently | scheduled => exact hr

theorem bounded_run {c : RecoveryCall} (hc : LeavesWithin db c) (h : ∀ r ∈ db.jobs.rows, Bounded r) :
    ∀ r ∈ (c.2.run db c.1).jobs.rows, Bounded r := by
  have hrw := rewrites_run db c
  by_cases hs : reschedules c.2 = []
  · refine hrw.forall_rows (fun r hf => ⟨hf.maxAttempts,?_⟩) (fun r r' hr hw => bounded_write hw hs hr) h
    have := hf.maxAttempts
    rw [hf.attempts]
    omega
  · have hmax := hrw.forall_rows (P := fun r => 1 ≤ r.maxAttempts) (fun r hf => hf.maxAttempts)
      (fun r r' hr hw => one_le_maxAttempts_write hw hr) fun r hr => (h r hr).1
    exact fun r hr => ⟨hmax r hr,hc hs r hr⟩

theorem withinMax_reaches (h : Reaches recoveryStep LeavesWithin Db.empty db) : WithinMax db := by
  have hb : ∀ r ∈ db.jobs.rows, Bounded r := by
    refine h.invariant (I := fun db => ∀ r ∈ db.jobs.rows, Bounded r) ?_ fun r hr => absurd hr List.not_mem_nil
    intro t c u hc he hi
    rw [← Option.some.inj he]
    exact bounded_run hc hi
  exact fun r hr _ => (hb r hr).2

def Dead (r : Job) : Prop := r.lock = none ∧ r.isAvailable = false

theorem dead_iff : Dead r ↔ r.lock = none ∧ r.maxAttempts ≤ r.attempts := by
  unfold Dead Job.isAvailable
  constructor
  · rintro ⟨hl,ha⟩
    simp only [hl,Option.isNone_none,Bool.true_and,decide_eq_false_iff_not,not_lt] at ha
    exact ⟨hl,ha⟩
  · rintro ⟨hl,ha⟩
    simp [hl,ha]

theorem isFailed_iff : isFailed r = true ↔ Dead r := by
  rw [dead_iff]
  simp [isFailed]

theorem permanentlyFailed_iff : permanentlyFailed r = true ↔ r.lock = none ∧ r.attempts = r.maxAttempts := by
  simp [permanentlyFailed,and_comm]

theorem dead_write (h : Write now st r r') (hn : r.id ∉ reschedules st) (hr : Dead r) : Dead r' := by
  obtain ⟨hl,hge⟩ := dead_iff.mp hr
  have hna : ¬r.isAvailable = true := by simp [hr.2]
  cases h with
  | replaced excluded preserve ha hm => exact absurd ha hna
  | deduped => exact hr
  | retired => exact dead_iff.mpr ⟨hl,le_refl _⟩
  | claimed w ha => exact absurd ha hna
  | failed w error payload hs hg => simp [Job.lockedBy,hl] at hs
  | released w r' hs hg hid hn hm ha => simp [Job.lockedBy,hl] at hs
  | failedPermanently message => exact dead_iff.mpr ⟨hl,le_refl _⟩
  | rescheduled o hi hm => exact absurd hi hn
  | scheduled runAt attempts hi => exact absurd hi hn

theorem dead_reaches {i : JobId} (hi : i < db.jobs.next) (hd : ∀ r ∈ db.jobs.rows, r.id = i → Dead r)
    (h : Reaches recoveryStep (fun _ c => i ∉ reschedules c.2) db db') :
    ∀ r ∈ db'.jobs.rows, r.id = i → Dead r :=
  reaches_row (fun _ _ _ _ hc hri hr hw => dead_write hw (hri ▸ hc) hr) hi hd h

theorem not_claimed_of_dead {i : JobId} (hd : ∀ r ∈ db.jobs.rows, r.id = i → Dead r) (taskIds : List TaskId)
    (w : WorkerId) (filter : JobFlagFilter) (now : Time) (n : ℕ) :
    (∀ job ∈ (getJobWithFilter db taskIds w filter now).2, job.id ≠ i) ∧
      ∀ job ∈ (batchGetJobsWithFilter db taskIds w filter n now).2, job.id ≠ i :=
  not_claimed (fun r hr hri => eligible_of_not_available (hd r hr hri).2) w n

abbrev cleaned (db : Db) (keep : List String) : Db := CleanupTask.deletePermanentlyFailedJobs.execute db keep

theorem mem_cleaned : r ∈ (cleaned db keep).jobs.rows ↔ r ∈ db.jobs.rows ∧ ¬permanentlyFailed r = true := by
  simp [CleanupTask.execute,Db.deleteJobs,IdTable.deleteWhere]

def RemovesDead (db : Db) (keep : List String) : Prop :=
  ∀ r ∈ db.jobs.rows, r ∈ (cleaned db keep).jobs.rows ↔ ¬Dead r

theorem removesDead_iff : RemovesDead db keep ↔ WithinMax db := by
  constructor
  · intro h r hr hl
    by_contra hgt
    have hdead : Dead r := dead_iff.mpr ⟨hl,by omega⟩
    have hkept : r ∈ (cleaned db keep).jobs.rows := by
      rw [mem_cleaned,permanentlyFailed_iff]
      exact ⟨hr,fun hp => hgt hp.2.le⟩
    exact (h r hr).mp hkept hdead
  · intro h r hr
    rw [mem_cleaned,permanentlyFailed_iff,dead_iff]
    constructor
    · rintro ⟨-,hn⟩ ⟨hl,hge⟩
      have hle := h r hr hl
      exact hn ⟨hl,by omega⟩
    · intro hn
      exact ⟨hr,fun hp => hn ⟨hp.1,hp.2.ge⟩⟩

theorem length_cleaned (h : WithinMax db) (now : Time) :
    (cleaned db keep).jobs.rows.length + (getStats db now).failed = (getStats db now).total := by
  have hsame : db.jobs.rows.countP isFailed = db.jobs.rows.countP permanentlyFailed := by
    refine List.countP_congr fun r hr => ?_
    rw [isFailed_iff,permanentlyFailed_iff,dead_iff]
    constructor
    · rintro ⟨hl,hge⟩
      have hle := h r hr hl
      exact ⟨hl,by omega⟩
    · rintro ⟨hl,he⟩
      exact ⟨hl,he.ge⟩
  have hrows : (cleaned db keep).jobs.rows.length = db.jobs.rows.countP fun r => !permanentlyFailed r :=
    List.countP_eq_length_filter.symm
  have htotal : db.jobs.rows.length =
      db.jobs.rows.countP permanentlyFailed + db.jobs.rows.countP fun r => !permanentlyFailed r := by
    simpa using List.length_eq_countP_add_countP permanentlyFailed
  show (cleaned db keep).jobs.rows.length + db.jobs.rows.countP isFailed = db.jobs.rows.length
  omega

/-- Rows that stay are unchanged, and the markers that go are those of deleted jobs. -/
structure OnlyDeletes (db db' : Db) : Prop where
  jobs : db'.jobs.rows.Sublist db.jobs.rows
  next : db'.jobs.next = db.jobs.next
  jobQueues : db'.jobQueues = db.jobQueues
  tasks : db'.tasks = db.tasks
  markers : ∀ i, i ∈ db'.jobRetirements ↔ i ∈ db.jobRetirements ∧
    ∀ r ∈ db.jobs.rows, r.id = i → r ∈ db'.jobs.rows

theorem onlyDeletes_cleaned (keep : List String) : OnlyDeletes db (cleaned db keep) where
  jobs := List.filter_sublist
  next := rfl
  jobQueues := rfl
  tasks := rfl
  markers i := by
    have hmarkers : i ∈ (cleaned db keep).jobRetirements ↔
        i ∈ db.jobRetirements ∧ ∀ r ∈ db.jobs.rows, r.id = i → ¬permanentlyFailed r = true := by
      simp [CleanupTask.execute,Db.deleteJobs]
    rw [hmarkers]
    refine and_congr_right fun _ => forall₂_congr fun r hr => ?_
    rw [mem_cleaned]
    simp [hr]

/-- The cleanup deletes exactly the dead jobs if and only if no unlocked job has more attempts than its maximum,
which holds after every run whose schedules leave attempts within their maximum. -/
theorem cleanup_removes_dead (db : Db) (keep : List String) :
    (RemovesDead db keep ↔ WithinMax db) ∧
    (Reaches recoveryStep LeavesWithin Db.empty db → WithinMax db) ∧
    (WithinMax db → ∀ now,
      (cleaned db keep).jobs.rows.length + (getStats db now).failed = (getStats db now).total) ∧
    OnlyDeletes db (cleaned db keep) ∧
    ∀ r ∈ db.jobs.rows, Dead r → ∀ db', Reaches recoveryStep (fun _ c => r.id ∉ reschedules c.2) db db' →
      ∀ taskIds w filter now n, (∀ job ∈ (getJobWithFilter db' taskIds w filter now).2, job.id ≠ r.id) ∧
        ∀ job ∈ (batchGetJobsWithFilter db' taskIds w filter n now).2, job.id ≠ r.id := by
  refine ⟨removesDead_iff,withinMax_reaches,length_cleaned,onlyDeletes_cleaned keep,?_⟩
  intro r hr hdead db' hreach taskIds w filter now n
  have hsame : ∀ s ∈ db.jobs.rows, s.id = r.id → Dead s := by
    intro s hs hid
    rwa [IdTable.eq_of_rowId hs hr hid]
  exact not_claimed_of_dead (dead_reaches (db.jobs.lt_next r hr) hsame hreach) taskIds w filter now n

def exhaustedCalls : List RecoveryCall :=
  [(0,.plain (.addJob ⟨"task",.null,{ maxAttempts := some 1 }⟩ none)),
    (1,.plain (.getJobWithFilter "w" [1] .unrestricted)),(2,.plain (.failJobs "w" [⟨readJob,"boom"⟩])),
    (3,.plain (.addJob ⟨"task",.null,{}⟩ none))]

theorem exhausted_job_removed : ∃ db, exec recoveryStep LeavesWithin Db.empty exhaustedCalls = some db ∧
    RemovesDead db [] ∧ (cleaned db []).jobs.rows.map Job.id = [2] ∧ (getStats db 4).failed = 1 := by
  have hrun : exec recoveryStep LeavesWithin Db.empty exhaustedCalls = some (recoveryAfter exhaustedCalls) := by rfl
  have h := cleanup_removes_dead (recoveryAfter exhaustedCalls) []
  exact ⟨_,hrun,h.1.mpr (h.2.1 (reaches_exec hrun)),by decide,by decide⟩

/-- A job is added, and an operator sets its attempts to thirty; its maximum is twenty-five. -/
def beyondMax : List RecoveryCall :=
  [(0,.plain (.addJob ⟨"task",.null,{}⟩ none)),(1,.plain (.rescheduleJobs [1] { attempts := some 30 }))]

theorem beyond_max_kept :
    let db := recoveryAfter beyondMax
    db.jobs.rows.map (fun r => (r.id,r.attempts,r.maxAttempts,r.isAvailable)) = [(1,30,25,false)] ∧
    (getStats db 2).failed = 1 ∧ (cleaned db []).jobs.rows.map Job.id = [1] := by
  decide

end GraphileWorker.Maintenance
