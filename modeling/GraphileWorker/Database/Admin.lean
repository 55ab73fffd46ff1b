import GraphileWorker.Database.AddJobs

/-! # Sweeps and administrative functions

The administrative functions select rows that are unlocked or whose lock is older than four
hours, and write no queue row.
-/
namespace GraphileWorker.Database
open Foundation

/-- `locked_by = any(worker_ids)`. -/
def lockedByAny (workerIds : List WorkerId) (holder : Option WorkerId) : Bool :=
  holder.any fun w => workerIds.contains w

def lockedJob (workerIds : List WorkerId) (r : Job) : Bool := lockedByAny workerIds r.lockedBy
def lockedQueue (workerIds : List WorkerId) (q : JobQueue) : Bool := lockedByAny workerIds q.lockedBy

def Job.recover (retired : JobId → Bool) (now : Time) (delayMs : ℤ) (r : Job) : Job :=
  { r with
    attempts := if retired r.id then r.attempts else max 0 (r.attempts - 1)
    lock := none
    runAt := max r.runAt (now + delayMs * 1000)
    lastError := some "Job recovered after worker interruption"
    updatedAt := now }

theorem Job.rowId_recover (retired : JobId → Bool) (now : Time) (delayMs : ℤ) (r : Job) :
    rowId (Job.recover retired now delayMs r) = rowId r := rfl

def recoverDeadWorkerJobs (db : Db) (workerIds : List WorkerId) (delayMs : ℤ) (now : Time) : Db × ℕ :=
  if workerIds.isEmpty then (db,0)
  else
    ((db.updateJobs (lockedJob workerIds) (Job.recover db.isRetired now delayMs)
        (Job.rowId_recover db.isRetired now delayMs)).unlockQueues (lockedQueue workerIds),
      (db.jobs.rows.filter (lockedJob workerIds)).length)

def Job.unlock (r : Job) : Job := { r with lock := none }

theorem Job.rowId_unlock (r : Job) : rowId r.unlock = rowId r := rfl

def forceUnlockWorkers (db : Db) (workerIds : List WorkerId) : Db :=
  (db.updateJobs (lockedJob workerIds) Job.unlock Job.rowId_unlock).unlockQueues (lockedQueue workerIds)

def adminRow (now : Time) (ids : List JobId) (r : Job) : Bool := ids.contains r.id && r.isUnlockedOrStale now

def completeJobs (db : Db) (ids : List JobId) (now : Time) : Db × List Job :=
  (db.deleteJobs (adminRow now ids),db.jobs.rows.filter (adminRow now ids))

def removable (now : Time) (key : String) (r : Job) : Bool := r.key == some key && r.isUnlockedOrStale now

def hasKey (key : String) (r : Job) : Bool := r.key == some key

def removeJob (db : Db) (key : String) (now : Time) : Db × Option Job :=
  match db.jobs.rows.find? (removable now key) with
  | some job => (db.deleteJobs (removable now key),some job)
  | none =>
    let kept := db.jobs.rows.find? (hasKey key)
    ((db.updateJobs (hasKey key) (Job.retire now) (Job.rowId_retire now)).retire (kept.toList.map Job.id),
      kept.map (Job.retire now))

def Job.failPermanently (now : Time) (message : Option String) (r : Job) : Job :=
  { r with
    lastError := some (message.getD "Manually marked as failed")
    attempts := r.maxAttempts
    updatedAt := now }

theorem Job.rowId_failPermanently (now : Time) (message : Option String) (r : Job) :
    rowId (Job.failPermanently now message r) = rowId r := rfl

def permanentlyFailJobs (db : Db) (ids : List JobId) (message : Option String) (now : Time) :
    Db × List Job :=
  ((db.updateJobs (adminRow now ids) (Job.failPermanently now message)
      (Job.rowId_failPermanently now message)).retire
      ((db.jobs.rows.filter (adminRow now ids)).map Job.id),
    (db.jobs.rows.filter (adminRow now ids)).map (Job.failPermanently now message))

structure RescheduleJobOptions where
  runAt : Option Time := none
  priority : Option ℤ := none
  attempts : Option ℤ := none
  maxAttempts : Option ℤ := none

def Job.reschedule (now : Time) (o : RescheduleJobOptions) (r : Job) : Job :=
  { r with
    runAt := o.runAt.getD r.runAt
    priority := o.priority.getD r.priority
    attempts := o.attempts.getD r.attempts
    maxAttempts := o.maxAttempts.getD r.maxAttempts
    updatedAt := now }

theorem Job.rowId_reschedule (now : Time) (o : RescheduleJobOptions) (r : Job) :
    rowId (Job.reschedule now o r) = rowId r := rfl

/-- `reschedule_jobs`, with the updated rows. Revival clears the retirement markers. -/
def rescheduleJobs (db : Db) (ids : List JobId) (o : RescheduleJobOptions) (now : Time) :
    Except SqlError (Db × List Job) := do
  let priority ← toSmallintOpt o.priority
  let attempts ← toSmallintOpt o.attempts
  let maxAttempts ← toSmallintOpt o.maxAttempts
  let o' : RescheduleJobOptions := ⟨o.runAt,priority,attempts,maxAttempts⟩
  let rows := db.jobs.rows.filter (adminRow now ids)
  if rows.any fun r => decide ((Job.reschedule now o' r).maxAttempts < 1) then
    throw (.checkViolation "jobs_max_attempts_check")
  let updated := db.updateJobs (adminRow now ids) (Job.reschedule now o') (Job.rowId_reschedule now o')
  return ({ updated with
      jobRetirements := db.jobRetirements.filter fun i => !rows.any fun r => r.id == i },
    rows.map (Job.reschedule now o'))

variable (db : Db) (now : Time) {ids : List JobId} {o : RescheduleJobOptions} {rows : List Job}

theorem locks_recoverDeadWorkerJobs (workerIds : List WorkerId) (delayMs : ℤ) :
    (recoverDeadWorkerJobs db workerIds delayMs now).1.locks =
      db.locks.drop (selectedJobs db (lockedJob workerIds)) (selectedQueues db (lockedQueue workerIds)) := by
  unfold recoverDeadWorkerJobs
  by_cases h : workerIds.isEmpty = true
  · have hw : workerIds = [] := List.isEmpty_iff.mp h
    subst hw
    have hn : ∀ o, lockedByAny [] o = false := fun o => by cases o <;> rfl
    simp [Locks.drop,selectedJobs,selectedQueues,lockedJob,lockedQueue,hn]
  · rw [if_neg h]
    exact locks_unlock db _ _ _ (fun _ _ => rfl) _

theorem locks_deleteJobs (p : Job → Bool) :
    (db.deleteJobs p).locks = db.locks.drop (selectedJobs db p) ∅ := by
  have h := locks_delete db p fun _ => false
  rwa [unlockQueues_none,selectedQueues_none] at h

theorem locks_removeJob (key : String) :
    (removeJob db key now).1.locks = db.locks.drop (selectedJobs db (removable now key)) ∅ := by
  unfold removeJob
  cases hf : db.jobs.rows.find? (removable now key) with
  | some job => exact locks_deleteJobs db _
  | none =>
    have hs : selectedJobs db (removable now key) = ∅ := by
      ext i
      simp only [selectedJobs,Set.mem_ofPred_eq,Set.mem_empty_iff_false,iff_false]
      rintro ⟨r,hr,_,hp⟩
      exact List.find?_eq_none.mp hf r hr hp
    have hl : (db.updateJobs (hasKey key) (Job.retire now) (Job.rowId_retire now)).locks = db.locks :=
      locks_updateJobs db _ _ (Job.rowId_retire now) fun _ _ => rfl
    simp [hl,hs,Locks.drop]

theorem locks_permanentlyFailJobs (ids : List JobId) (message : Option String) :
    (permanentlyFailJobs db ids message now).1.locks = db.locks :=
  locks_updateJobs db _ _ (Job.rowId_failPermanently now message) fun _ _ => rfl

variable {db now}

theorem rescheduleJobs_ok {db' : Db}
    (h : rescheduleJobs db ids o now = .ok (db',rows)) : ∃ o' : RescheduleJobOptions, db' = { db.updateJobs
      (adminRow now ids) (Job.reschedule now o') (Job.rowId_reschedule now o') with
        jobRetirements := db.jobRetirements.filter fun i => !(db.jobs.rows.filter (adminRow now ids)).any
          fun r => r.id == i } ∧
      ∀ r ∈ db.jobs.rows, adminRow now ids r = true → 1 ≤ (Job.reschedule now o' r).maxAttempts := by
  obtain ⟨priority,_,h⟩ := bind_eq_ok h
  obtain ⟨attempts,_,h⟩ := bind_eq_ok h
  obtain ⟨maxAttempts,_,h⟩ := bind_eq_ok h
  dsimp only at h
  split at h
  · cases h
  · next hmax =>
    cases h
    refine ⟨⟨o.runAt,priority,attempts,maxAttempts⟩,rfl,fun r hr hsel => ?_⟩
    by_contra hlt
    exact hmax (List.any_eq_true.mpr ⟨r,List.mem_filter.mpr ⟨hr,hsel⟩,by simpa using hlt⟩)

theorem locks_rescheduleJobs {db' : Db}
    (h : rescheduleJobs db ids o now = .ok (db',rows)) : db'.locks = db.locks := by
  obtain ⟨o',rfl,_⟩ := rescheduleJobs_ok h
  exact locks_updateJobs db _ _ (Job.rowId_reschedule now o') fun _ _ => rfl

end GraphileWorker.Database
