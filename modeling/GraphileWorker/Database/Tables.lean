import GraphileWorker.Foundation.IdTable
import GraphileWorker.Foundation.GroupLock
import Mathlib.Data.Rat.Defs

/-! # The private tables of the worker schema

The tables after the last migration. Every statement writes `locked_at` and `locked_by`
together, so they are one optional lock. `smallint` and `int` columns are integers, and the
statements that can leave their range say so. Instants and intervals are microseconds.
-/
namespace GraphileWorker.Database
open Foundation

abbrev JobId := ℕ
abbrev QueueId := ℕ
abbrev TaskId := ℕ
abbrev WorkerId := String
abbrev Time := ℤ

/-- JSON values up to the equality of `jsonb`. -/
inductive Json
  | null
  | bool (b : Bool)
  | number (q : ℚ)
  | string (s : String)
  | array (items : List Json)
  | object (fields : List (String × Json))
  deriving Inhabited

/-- `locked_at` and `locked_by` of a locked row. -/
structure Lock where
  lockedAt : Time
  lockedBy : WorkerId
  deriving DecidableEq

/-- A row of `_private_jobs`. -/
structure Job where
  id : JobId
  jobQueueId : Option QueueId
  taskId : TaskId
  payload : Json
  priority : ℤ
  runAt : Time
  attempts : ℤ
  maxAttempts : ℤ
  lastError : Option String
  createdAt : Time
  updatedAt : Time
  key : Option String
  lock : Option Lock
  revision : ℤ
  flags : Option Json

structure JobQueue where
  id : QueueId
  queueName : String
  lock : Option Lock
  deriving DecidableEq

structure Task where
  id : TaskId
  identifier : String
  deriving DecidableEq

instance : RowId Job := ⟨Job.id⟩
instance : RowId JobQueue := ⟨JobQueue.id⟩
instance : RowId Task := ⟨Task.id⟩

@[simp] theorem rowId_job (r : Job) : rowId r = r.id := rfl
@[simp] theorem rowId_jobQueue (q : JobQueue) : rowId q = q.id := rfl

namespace Job

def lockedAt (r : Job) : Option Time := r.lock.map Lock.lockedAt
def lockedBy (r : Job) : Option WorkerId := r.lock.map Lock.lockedBy

/-- The generated column: unlocked and with an attempt left. -/
def isAvailable (r : Job) : Bool := r.lock.isNone && decide (r.attempts < r.maxAttempts)

/-- `locked_at is null or locked_at < now() - interval '4 hours'`. -/
def isUnlockedOrStale (now : Time) (r : Job) : Bool :=
  match r.lock with
  | none => true
  | some l => decide (l.lockedAt < now - 4 * 3600 * 1000000)

def held (r : Job) : Option (WorkerId × Option QueueId) := r.lock.map fun l => (l.lockedBy,r.jobQueueId)

end Job

namespace JobQueue

def lockedBy (q : JobQueue) : Option WorkerId := q.lock.map Lock.lockedBy

def isAvailable (q : JobQueue) : Bool := q.lock.isNone

def unlock (q : JobQueue) : JobQueue := { q with lock := none }

theorem rowId_unlock (q : JobQueue) : rowId q.unlock = rowId q := rfl

end JobQueue

structure Db where
  jobs : IdTable Job
  jobQueues : IdTable JobQueue
  tasks : IdTable Task
  jobRetirements : List JobId

namespace Db

def empty : Db := ⟨.empty,.empty,.empty,[]⟩

/-- Who holds which job and which named queue. -/
def locks (db : Db) : Locks JobId QueueId WorkerId where
  item i := (db.jobs.find i).bind Job.held
  group g := (db.jobQueues.find g).bind JobQueue.lockedBy

/-- `DELETE` on jobs, with the cascade to the retirement markers. -/
def deleteJobs (db : Db) (p : Job → Bool) : Db where
  jobs := db.jobs.deleteWhere p
  jobQueues := db.jobQueues
  tasks := db.tasks
  jobRetirements := db.jobRetirements.filter fun i => !db.jobs.rows.any fun r => r.id == i && p r

def updateJobs (db : Db) (p : Job → Bool) (f : Job → Job) (hf : ∀ r, rowId (f r) = rowId r) : Db :=
  { db with jobs := db.jobs.updateWhere p f hf }

/-- `UPDATE job_queues SET locked_by = NULL, locked_at = NULL WHERE ...`. -/
def unlockQueues (db : Db) (p : JobQueue → Bool) : Db :=
  { db with jobQueues := db.jobQueues.updateWhere p JobQueue.unlock JobQueue.rowId_unlock }

def isRetired (db : Db) (i : JobId) : Bool := db.jobRetirements.contains i

/-- `INSERT INTO _private_job_retirements ... ON CONFLICT DO NOTHING`. -/
def retire (db : Db) (ids : List JobId) : Db :=
  { db with jobRetirements := db.jobRetirements ++ ids.filter fun i => !db.isRetired i }

end Db

variable {i : JobId} {g : QueueId} {q : JobQueue}

theorem find_job {db : Db} {r : Job} : db.jobs.find i = some r ↔ r ∈ db.jobs.rows ∧ r.id = i := IdTable.find_eq_some

theorem find_queue {db : Db} :
    db.jobQueues.find g = some q ↔ q ∈ db.jobQueues.rows ∧ q.id = g := IdTable.find_eq_some

variable (db : Db) {w : WorkerId} {p : JobQueue → Bool}

theorem locks_item_some {g : Option QueueId} : db.locks.item i = some (w,g) ↔
      ∃ r ∈ db.jobs.rows, r.id = i ∧ r.jobQueueId = g ∧ ∃ l, r.lock = some l ∧ l.lockedBy = w := by
  constructor
  · intro h
    obtain ⟨r,hr,hh⟩ := Option.bind_eq_some_iff.mp h
    obtain ⟨l,hl,he⟩ := Option.map_eq_some_iff.mp hh
    obtain ⟨hm,hi⟩ := find_job.mp hr
    cases he
    exact ⟨r,hm,hi,rfl,l,hl,rfl⟩
  · rintro ⟨r,hm,rfl,rfl,l,hl,rfl⟩
    have hr : db.jobs.find r.id = some r := find_job.mpr ⟨hm,rfl⟩
    simp [Db.locks,hr,Job.held,hl]

theorem locks_group_some : db.locks.group g = some w ↔ ∃ q ∈ db.jobQueues.rows, q.id = g ∧ q.lockedBy = some w := by
  constructor
  · intro h
    obtain ⟨q,hq,hh⟩ := Option.bind_eq_some_iff.mp h
    obtain ⟨hm,hi⟩ := find_queue.mp hq
    exact ⟨q,hm,hi,hh⟩
  · rintro ⟨q,hm,rfl,hw⟩
    have hq : db.jobQueues.find q.id = some q := find_queue.mpr ⟨hm,rfl⟩
    simp [Db.locks,hq,hw]

def selectedJobs (p : Job → Bool) : Set JobId := {i | ∃ r ∈ db.jobs.rows, r.id = i ∧ p r = true}

def selectedQueues (p : JobQueue → Bool) : Set QueueId :=
  {g | ∃ q ∈ db.jobQueues.rows, q.id = g ∧ p q = true}

theorem mem_selectedJobs {p : Job → Bool} {r : Job} (h : db.jobs.find i = some r) :
    i ∈ selectedJobs db p ↔ p r = true := by
  constructor
  · rintro ⟨s,hs,rfl,hp⟩
    rw [Option.some.inj (h.symm.trans (find_job.mpr ⟨hs,rfl⟩))]
    exact hp
  · intro hp
    obtain ⟨hr,hi⟩ := find_job.mp h
    exact ⟨r,hr,hi,hp⟩

theorem mem_selectedQueues (h : db.jobQueues.find g = some q) : g ∈ selectedQueues db p ↔ p q = true := by
  constructor
  · rintro ⟨s,hs,rfl,hp⟩
    rw [Option.some.inj (h.symm.trans (find_queue.mpr ⟨hs,rfl⟩))]
    exact hp
  · intro hp
    obtain ⟨hq,hi⟩ := find_queue.mp h
    exact ⟨q,hq,hi,hp⟩

theorem not_mem_selectedJobs {p : Job → Bool} (h : db.jobs.find i = none) : i ∉ selectedJobs db p := by
  rintro ⟨s,hs,rfl,_⟩
  exact absurd (h.symm.trans (find_job.mpr ⟨hs,rfl⟩)) (by simp)

theorem not_mem_selectedQueues (h : db.jobQueues.find g = none) : g ∉ selectedQueues db p := by
  rintro ⟨s,hs,rfl,_⟩
  exact absurd (h.symm.trans (find_queue.mpr ⟨hs,rfl⟩)) (by simp)

theorem group_unlockQueues (pq : JobQueue → Bool) :
    (db.unlockQueues pq).locks.group = (db.locks.drop ∅ (selectedQueues db pq)).group := by
  funext g
  simp only [Db.locks,Db.unlockQueues,Locks.drop,IdTable.find_updateWhere]
  cases h : db.jobQueues.find g with
  | none => simp [not_mem_selectedQueues db h]
  | some q =>
    by_cases hp : pq q = true
    · simp [mem_selectedQueues db h,hp,JobQueue.lockedBy,JobQueue.unlock]
    · simp [mem_selectedQueues db h,hp]

theorem locks_unlock (p : Job → Bool) (f : Job → Job) (hf : ∀ r, rowId (f r) = rowId r)
    (hl : ∀ r, p r = true → (f r).lock = none) (pq : JobQueue → Bool) :
    ((db.updateJobs p f hf).unlockQueues pq).locks =
      db.locks.drop (selectedJobs db p) (selectedQueues db pq) := by
  ext1
  · funext i
    simp only [Db.locks,Db.updateJobs,Db.unlockQueues,Locks.drop,IdTable.find_updateWhere]
    cases h : db.jobs.find i with
    | none => simp [not_mem_selectedJobs db h]
    | some r =>
      by_cases hp : p r = true
      · simp [mem_selectedJobs db h,hp,Job.held,hl r hp]
      · simp [mem_selectedJobs db h,hp]
  · exact group_unlockQueues db pq

theorem locks_delete (p : Job → Bool) (pq : JobQueue → Bool) :
    ((db.deleteJobs p).unlockQueues pq).locks =
      db.locks.drop (selectedJobs db p) (selectedQueues db pq) := by
  ext1
  · funext i
    simp only [Db.locks,Db.deleteJobs,Db.unlockQueues,Locks.drop,IdTable.find_deleteWhere]
    cases h : db.jobs.find i with
    | none => simp [not_mem_selectedJobs db h]
    | some r => cases hp : p r <;> simp [mem_selectedJobs db h,hp,Option.filter]
  · exact group_unlockQueues db pq

theorem unlockQueues_none : db.unlockQueues (fun _ => false) = db := by
  cases db
  simp [Db.unlockQueues,IdTable.updateWhere]

@[simp] theorem selectedQueues_none : selectedQueues db (fun _ => false) = ∅ := by
  simp [selectedQueues]

@[simp] theorem selectedJobs_none : selectedJobs db (fun _ => false) = ∅ := by
  simp [selectedJobs]

theorem locks_updateJobs (p : Job → Bool) (f : Job → Job) (hf : ∀ r, rowId (f r) = rowId r)
    (hl : ∀ r, p r = true → (f r).held = r.held) : (db.updateJobs p f hf).locks = db.locks := by
  ext1
  · funext i
    simp only [Db.locks,Db.updateJobs,IdTable.find_updateWhere]
    cases db.jobs.find i with
    | none => rfl
    | some r =>
      by_cases hp : p r = true
      · simp [hp,hl r hp]
      · simp [hp]
  · rfl

@[simp] theorem locks_retire (ids : List JobId) : (db.retire ids).locks = db.locks := rfl

end GraphileWorker.Database
