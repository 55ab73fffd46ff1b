import GraphileWorker.Recovery.Jobs
import Mathlib.Data.List.Sort

/-! # Recovering the jobs of dead workers

Without hooks it is one SQL function over the jobs and the queues of the dead workers, with
hooks a loop that returns the jobs one by one, each with its own queue.
-/
namespace GraphileWorker.Recovery
open Foundation Database Hooks

/-- The inner join with the tasks keeps the row. -/
def hasTask (db : Db) (r : Job) : Bool := db.tasks.rows.any fun t => t.id == r.taskId

/-- `get_locked_jobs_for_recovery`, in the order of the ids. -/
def getLockedJobsForRecovery (db : Db) (workerIds : List WorkerId) : List Job :=
  if workerIds.isEmpty then []
  else (db.jobs.rows.filter fun r => lockedJob workerIds r && hasTask db r).insertionSort
    fun a b => a.id ≤ b.id

def recoverOne (hooks : Option HookRegistry) (workerId : WorkerId) (recoveryDelayMs : ℤ) (now : Time)
    (acc : Db × ℕ) (job : Job) : Db × ℕ :=
  match job.lockedBy with
  | none => acc
  | some previousWorkerId =>
    let result := applyJobRecovery acc.1 now
      ⟨hooks,workerId,job,previousWorkerId,.workerCrashed,recoveryDelayMs⟩
    (result.1,if result.2.wasHandled then acc.2 + 1 else acc.2)

/-- `recover_jobs_from_workers`, with the number of recovered jobs. -/
def recoverJobsFromWorkers (db : Db) (hooks : Option HookRegistry) (workerId : WorkerId)
    (workerIds : List WorkerId) (recoveryDelayMs : ℤ) (now : Time) : Db × ℕ :=
  if workerIds.isEmpty then (db,0)
  else if hooks.any fun hooks => !hooks.isEmpty then
    (getLockedJobsForRecovery db workerIds).foldl (recoverOne hooks workerId recoveryDelayMs now) (db,0)
  else recoverDeadWorkerJobs db workerIds recoveryDelayMs now

def queueOf (jobs : List Job) (q : JobQueue) : Bool :=
  jobs.any fun j => j.jobQueueId == some q.id && q.lockedBy == j.lockedBy

theorem rowId_recoverIn (db : Db) (delayMs : ℤ) (now : Time) (r : Job) :
    rowId (Job.recover db.isRetired now delayMs r) = rowId r := Job.rowId_recover db.isRetired now delayMs r

/-- The tables after the listed jobs were returned by default. -/
def returned (db : Db) (delayMs : ℤ) (now : Time) (jobs : List Job) : Db :=
  (db.updateJobs (fun r => (jobs.map Job.id).contains r.id) (Job.recover db.isRetired now delayMs)
    (rowId_recoverIn db delayMs now)).unlockQueues (queueOf jobs)

variable {db : Db} {delayMs : ℤ} {now : Time} {done : List Job} {job r : Job} {w : WorkerId} {q : JobQueue}

theorem returned_nil : returned db delayMs now [] = db := by
  have hq : queueOf [] = fun _ => false := rfl
  unfold returned
  rw [hq,unlockQueues_none]
  unfold Db.updateJobs
  rw [IdTable.updateWhere_none _ _ _ _ (by simp)]

theorem mem_returned_owned (hj : job ∈ db.jobs.rows) (hw : job.lockedBy = some w) (hd : job.id ∉ done.map Job.id) :
    (r ∈ (returned db delayMs now done).jobs.rows ∧ ownedBy w [job.id] r = true) ↔ r = job := by
  constructor
  · rintro ⟨hr,ho⟩
    obtain ⟨s,hs,rfl⟩ := List.mem_map.mp hr
    obtain ⟨hi,hl⟩ := (ownedBy_iff _).mp ho
    split at hl
    · cases hl
    · next hn =>
      rw [if_neg hn] at hi ⊢
      exact IdTable.eq_of_rowId hs hj (List.mem_singleton.mp hi)
  · rintro rfl
    refine ⟨List.mem_map.mpr ⟨r,hj,?_⟩,(ownedBy_iff _).mpr ⟨List.mem_singleton_self _,hw⟩⟩
    simp [hd]

theorem heldQueueOf_returned (hj : job ∈ db.jobs.rows) (hw : job.lockedBy = some w)
    (hd : job.id ∉ done.map Job.id) (q : JobQueue) :
    heldQueueOf w ((returned db delayMs now done).jobs.rows.filter (ownedBy w [job.id])) q =
      (q.lockedBy == some w && job.jobQueueId == some q.id) := by
  unfold heldQueueOf
  congr 1
  rw [Bool.eq_iff_iff,List.any_eq_true]
  simp only [List.mem_filter,mem_returned_owned hj hw hd]
  simp

theorem privateReturnJobs_returned (hj : job ∈ db.jobs.rows) (hw : job.lockedBy = some w)
    (hd : job.id ∉ done.map Job.id) :
    privateReturnJobs (returned db delayMs now done) w [job.id] now
      ⟨some delayMs,some recoveryLastError,true⟩ = returned db delayMs now (done ++ [job]) := by
  have hjobs : ((returned db delayMs now done).jobs.updateWhere (ownedBy w [job.id])
      (Job.recover db.isRetired now delayMs) (Job.rowId_recover db.isRetired now delayMs)) =
      (returned db delayMs now (done ++ [job])).jobs := by
    have hid := Job.rowId_recover db.isRetired now delayMs
    refine IdTable.updateWhere_updateWhere _ _ _ hid hid hid ?_
    intro r hr
    by_cases hm : r.id ∈ done.map Job.id
    · -- already returned: the row is unlocked and no longer selected
      have ho : ownedBy w [job.id] (Job.recover db.isRetired now delayMs r) = false := by
        simp [ownedBy,Job.lockedBy,Job.recover]
      simp [hm,ho]
    · by_cases hi : r.id = job.id
      · obtain rfl : r = job := IdTable.eq_of_rowId hr hj hi
        simp [hm,ownedBy,hw]
      · have ho : ownedBy w [job.id] r = false := by simp [ownedBy,hi]
        simp [hm,hi,ho]
  have hqueues : (returned db delayMs now done).jobQueues.updateWhere
      (heldQueueOf w ((returned db delayMs now done).jobs.rows.filter (ownedBy w [job.id])))
      JobQueue.unlock JobQueue.rowId_unlock = (returned db delayMs now (done ++ [job])).jobQueues := by
    have hid := JobQueue.rowId_unlock
    refine IdTable.updateWhere_updateWhere _ _ _ hid hid hid ?_
    intro q _
    simp only [heldQueueOf_returned hj hw hd]
    have happ : queueOf (done ++ [job]) q =
        (queueOf done q || (q.lockedBy == some w && job.jobQueueId == some q.id)) := by
      simp [queueOf,hw,Bool.and_comm]
    rw [happ]
    cases hq : queueOf done q with
    | true => simp [JobQueue.unlock,JobQueue.lockedBy]
    | false => simp
  -- a return with these options writes to a row what the set-based recovery writes
  calc privateReturnJobs (returned db delayMs now done) w [job.id] now
        ⟨some delayMs,some recoveryLastError,true⟩
      = ⟨(returned db delayMs now done).jobs.updateWhere (ownedBy w [job.id])
            (Job.recover db.isRetired now delayMs) (Job.rowId_recover db.isRetired now delayMs),
          (returned db delayMs now done).jobQueues.updateWhere
            (heldQueueOf w ((returned db delayMs now done).jobs.rows.filter (ownedBy w [job.id])))
            JobQueue.unlock JobQueue.rowId_unlock,db.tasks,db.jobRetirements⟩ := rfl
    _ = returned db delayMs now (done ++ [job]) := by
      rw [hjobs,hqueues]
      rfl

variable {hooks : HookRegistry} {workerId : WorkerId} {workerIds : List WorkerId} {jobs : List Job}

/-- The handlers never ask for anything but the default recovery. -/
def AnswersDefault (hooks : HookRegistry) : Prop := ∀ handler ∈ hooks.jobRecovery, ∀ ctx, handler ctx = .default

theorem recoverOne_default (hd : AnswersDefault hooks) (hw : job.lockedBy = some w) (acc : Db × ℕ) :
    recoverOne (some hooks) workerId delayMs now acc job =
      (privateReturnJobs acc.1 w [job.id] now ⟨some delayMs,some recoveryLastError,true⟩,acc.2 + 1) := by
  have ha : JobRecoveryRequest.action ⟨some hooks,workerId,job,w,.workerCrashed,delayMs⟩ = .default := by
    have hi : hooks.interceptJobRecovery ⟨job,workerId,w,.workerCrashed⟩ = .default :=
      HookRegistry.interceptJobRecovery_default fun handler hh => hd handler hh _
    simp only [JobRecoveryRequest.action,hi,ite_self]
  simp only [recoverOne,hw,applyJobRecovery,ha]
  rfl

theorem foldl_recoverOne (hd : AnswersDefault hooks) (hj : ∀ j ∈ jobs, j ∈ db.jobs.rows ∧ j.lockedBy.isSome = true)
    (hn : ((done ++ jobs).map Job.id).Nodup) (n : ℕ) :
    jobs.foldl (recoverOne (some hooks) workerId delayMs now) (returned db delayMs now done,n) =
      (returned db delayMs now (done ++ jobs),n + jobs.length) := by
  induction jobs generalizing done n with
  | nil => simp
  | cons job rest ih =>
    obtain ⟨hm,hs⟩ := hj job List.mem_cons_self
    obtain ⟨w,hw⟩ := Option.isSome_iff_exists.mp hs
    have hfresh : job.id ∉ done.map Job.id := by
      rw [List.map_append,List.nodup_append] at hn
      exact fun h => hn.2.2 _ h _ (by simp) rfl
    have hassoc : done ++ job :: rest = (done ++ [job]) ++ rest := by simp
    rw [List.foldl_cons,recoverOne_default hd hw]
    dsimp only
    rw [privateReturnJobs_returned hm hw hfresh,hassoc,
      ih (fun j h => hj j (List.mem_cons_of_mem job h)) (hassoc ▸ hn)]
    simp only [List.length_cons]
    congr 1
    omega

theorem mem_getLockedJobsForRecovery (h : workerIds.isEmpty = false) : r ∈ getLockedJobsForRecovery db workerIds ↔
      r ∈ db.jobs.rows ∧ lockedJob workerIds r = true ∧ hasTask db r = true := by
  unfold getLockedJobsForRecovery
  rw [if_neg (by simp [h]),List.mem_insertionSort,List.mem_filter,Bool.and_eq_true]

theorem nodup_getLockedJobsForRecovery : ((getLockedJobsForRecovery db workerIds).map Job.id).Nodup := by
  unfold getLockedJobsForRecovery
  split
  · exact List.nodup_nil
  · have hp := (List.perm_insertionSort (fun a b : Job => a.id ≤ b.id)
      (db.jobs.rows.filter fun r => lockedJob workerIds r && hasTask db r)).map Job.id
    exact hp.nodup_iff.mpr (db.jobs.nodup.sublist (List.filter_sublist.map _))

theorem isSome_of_lockedJob (h : lockedJob workerIds r = true) : r.lockedBy.isSome = true := by
  unfold lockedJob lockedByAny at h
  cases hl : r.lockedBy with
  | none => simp [hl] at h
  | some w => rfl

theorem recoverJobsFromWorkers_default (he : hooks.isEmpty = false) (hd : AnswersDefault hooks)
    (hw : workerIds.isEmpty = false) :
    recoverJobsFromWorkers db (some hooks) workerId workerIds delayMs now =
      (returned db delayMs now (getLockedJobsForRecovery db workerIds),
        (getLockedJobsForRecovery db workerIds).length) := by
  have hj : ∀ j ∈ getLockedJobsForRecovery db workerIds, j ∈ db.jobs.rows ∧ j.lockedBy.isSome = true := by
    intro j h
    obtain ⟨hm,hl,_⟩ := (mem_getLockedJobsForRecovery hw).mp h
    exact ⟨hm,isSome_of_lockedJob hl⟩
  have hn : (([] ++ getLockedJobsForRecovery db workerIds).map Job.id).Nodup := nodup_getLockedJobsForRecovery
  unfold recoverJobsFromWorkers
  rw [if_neg (by simp [hw]),if_pos (by simp [he])]
  calc (getLockedJobsForRecovery db workerIds).foldl (recoverOne (some hooks) workerId delayMs now) (db,0)
      = (getLockedJobsForRecovery db workerIds).foldl (recoverOne (some hooks) workerId delayMs now)
          (returned db delayMs now [],0) := by rw [returned_nil]
    _ = _ := by rw [foldl_recoverOne hd hj hn,List.nil_append,Nat.zero_add]

/-- The job and queue rows, the retirement markers and the counts are the same. -/
def SameRecovery (a b : Db × ℕ) : Prop :=
  a.1.jobs.rows = b.1.jobs.rows ∧ a.1.jobQueues.rows = b.1.jobQueues.rows ∧
    a.1.jobRetirements = b.1.jobRetirements ∧ a.2 = b.2

def LockedJobsHaveTasks (db : Db) (workerIds : List WorkerId) : Prop :=
  ∀ r ∈ db.jobs.rows, lockedJob workerIds r = true → hasTask db r = true

def LockedQueuesHaveJobs (db : Db) (workerIds : List WorkerId) : Prop :=
  ∀ q ∈ db.jobQueues.rows, lockedQueue workerIds q = true →
    ∃ r ∈ db.jobs.rows, r.lockedBy = q.lockedBy ∧ r.jobQueueId = some q.id

theorem contains_getLockedJobsForRecovery (hw : workerIds.isEmpty = false) (hr : r ∈ db.jobs.rows) :
    ((getLockedJobsForRecovery db workerIds).map Job.id).contains r.id =
      (lockedJob workerIds r && hasTask db r) := by
  rw [Bool.eq_iff_iff,List.contains_iff_mem,Bool.and_eq_true,List.mem_map]
  constructor
  · rintro ⟨j,hj,he⟩
    obtain ⟨hm,hl⟩ := (mem_getLockedJobsForRecovery hw).mp hj
    rwa [← IdTable.eq_of_rowId hm hr he]
  · intro h
    exact ⟨r,(mem_getLockedJobsForRecovery hw).mpr ⟨hr,h⟩,rfl⟩

theorem sameJobs_iff (hw : workerIds.isEmpty = false) :
    (returned db delayMs now (getLockedJobsForRecovery db workerIds)).jobs.rows =
      (recoverDeadWorkerJobs db workerIds delayMs now).1.jobs.rows ↔ LockedJobsHaveTasks db workerIds := by
  unfold recoverDeadWorkerJobs
  rw [if_neg (by simp [hw])]
  refine List.map_inj_left.trans (forall₂_congr fun r hr => ?_)
  simp only [contains_getLockedJobsForRecovery hw hr]
  cases hl : lockedJob workerIds r with
  | false => simp
  | true =>
    have hne : Job.recover db.isRetired now delayMs r ≠ r := by
      intro he
      have hs := isSome_of_lockedJob hl
      rw [← he] at hs
      cases hs
    cases ht : hasTask db r with
    | true => simp
    | false => simpa using hne.symm

theorem queueOf_iff : queueOf jobs q = true ↔ ∃ j ∈ jobs, q.lockedBy = j.lockedBy ∧ j.jobQueueId = some q.id := by
  simp [queueOf,and_comm]

theorem ne_unlock (h : q.lockedBy.isSome = true) : q.unlock ≠ q := by
  intro he
  rw [← he] at h
  cases h

theorem sameQueues_iff (hw : workerIds.isEmpty = false) (ht : LockedJobsHaveTasks db workerIds) :
    (returned db delayMs now (getLockedJobsForRecovery db workerIds)).jobQueues.rows =
      (recoverDeadWorkerJobs db workerIds delayMs now).1.jobQueues.rows ↔
        LockedQueuesHaveJobs db workerIds := by
  unfold recoverDeadWorkerJobs
  rw [if_neg (by simp [hw])]
  refine List.map_inj_left.trans (forall₂_congr fun q hq => ?_)
  cases hl : lockedQueue workerIds q with
  | false =>
    have hn : queueOf (getLockedJobsForRecovery db workerIds) q = false := by
      rw [Bool.eq_false_iff,ne_eq,queueOf_iff]
      rintro ⟨j,hj,hb,_⟩
      have := ((mem_getLockedJobsForRecovery hw).mp hj).2.1
      unfold lockedQueue at hl
      unfold lockedJob at this
      rw [hb,this] at hl
      cases hl
    simp [hn]
  | true =>
    have hs : q.lockedBy.isSome = true := by
      unfold lockedQueue lockedByAny at hl
      cases hb : q.lockedBy with
      | none => simp [hb] at hl
      | some w => rfl
    have hiff : queueOf (getLockedJobsForRecovery db workerIds) q = true ↔
        ∃ r ∈ db.jobs.rows, r.lockedBy = q.lockedBy ∧ r.jobQueueId = some q.id := by
      rw [queueOf_iff]
      constructor
      · rintro ⟨j,hj,hb,hq⟩
        exact ⟨j,((mem_getLockedJobsForRecovery hw).mp hj).1,hb.symm,hq⟩
      · rintro ⟨r,hr,hb,hq⟩
        have hlr : lockedJob workerIds r = true := by
          unfold lockedJob
          rw [hb]
          exact hl
        exact ⟨r,(mem_getLockedJobsForRecovery hw).mpr ⟨hr,hlr,ht r hr hlr⟩,hb.symm,hq⟩
    rw [← hiff]
    cases hqo : queueOf (getLockedJobsForRecovery db workerIds) q with
    | true => simp
    | false => simpa using (ne_unlock hs).symm

theorem sameCount (hw : workerIds.isEmpty = false) (ht : LockedJobsHaveTasks db workerIds) :
    (getLockedJobsForRecovery db workerIds).length = (recoverDeadWorkerJobs db workerIds delayMs now).2 := by
  unfold getLockedJobsForRecovery recoverDeadWorkerJobs
  rw [if_neg (by simp [hw]),if_neg (by simp [hw]),List.length_insertionSort]
  dsimp only
  congr 1
  refine List.filter_congr fun r hr => ?_
  cases hl : lockedJob workerIds r with
  | false => rfl
  | true => simpa using ht r hr hl

/-- Exactly when each job of a dead worker has its task and each queue of one has a job of it. -/
theorem default_hooks_recover_alike_iff (db : Db) (hooks : HookRegistry) (workerId : WorkerId)
    (workerIds : List WorkerId) (delayMs : ℤ) (now : Time) (he : hooks.isEmpty = false)
    (hd : AnswersDefault hooks) :
    SameRecovery (recoverJobsFromWorkers db (some hooks) workerId workerIds delayMs now)
        (recoverJobsFromWorkers db none workerId workerIds delayMs now) ↔
      LockedJobsHaveTasks db workerIds ∧ LockedQueuesHaveJobs db workerIds := by
  cases hw : workerIds.isEmpty with
  | true =>
    rw [List.isEmpty_iff.mp hw]
    refine iff_of_true ⟨rfl,rfl,rfl,rfl⟩ ⟨?_,?_⟩
    · intro r _ hl
      exact absurd hl (by simp [lockedJob,lockedByAny])
    · intro q _ hl
      exact absurd hl (by simp [lockedQueue,lockedByAny])
  | false =>
    have hnone : recoverJobsFromWorkers db none workerId workerIds delayMs now =
        recoverDeadWorkerJobs db workerIds delayMs now := by
      simp [recoverJobsFromWorkers,hw]
    rw [recoverJobsFromWorkers_default he hd hw,hnone]
    constructor
    · rintro ⟨hj,hq,_,_⟩
      have ht := (sameJobs_iff hw).mp hj
      exact ⟨ht,(sameQueues_iff hw ht).mp hq⟩
    · rintro ⟨ht,hq⟩
      refine ⟨(sameJobs_iff hw).mpr ht,(sameQueues_iff hw ht).mpr hq,?_,sameCount hw ht⟩
      unfold recoverDeadWorkerJobs
      rw [if_neg (by simp [hw])]
      rfl

def observing : HookRegistry := { otherEvents := true }

def claimedCalls : List Call :=
  [(0,.addJob ⟨"task",.null,{ queueName := some "q" }⟩ none),(1,.getJobWithFilter "dead" [1] .unrestricted)]

theorem claimed_job_recovered_alike :
    SameRecovery (recoverJobsFromWorkers (after claimedCalls) (some observing) "sweeper" ["dead"] 5 9)
      (recoverJobsFromWorkers (after claimedCalls) none "sweeper" ["dead"] 5 9) :=
  (default_hooks_recover_alike_iff _ observing "sweeper" ["dead"] 5 9 rfl (by simp [AnswersDefault,observing])).mpr
    ⟨by unfold LockedJobsHaveTasks; decide,by unfold LockedQueuesHaveJobs; decide⟩

/-- An operator completed the job, whose lock was stale. The sweep removes the queue lock without hooks and keeps
it with them. -/
theorem orphaned_queue_lock_kept :
    let db := after (claimedCalls ++ [(14400000002,.completeJobs [1])])
    db.jobQueues.rows.map JobQueue.lockedBy = [some "dead"] ∧
    (recoverJobsFromWorkers db none "sweeper" ["dead"] 5 9).1.jobQueues.rows.map JobQueue.lockedBy = [none] ∧
    (recoverJobsFromWorkers db (some observing) "sweeper" ["dead"] 5 9).1.jobQueues.rows.map
      JobQueue.lockedBy = [some "dead"] := by
  decide

end GraphileWorker.Recovery
