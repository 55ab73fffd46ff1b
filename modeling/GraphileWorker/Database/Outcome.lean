import GraphileWorker.Database.Tables

/-! # Reporting outcomes and returning claims

Completion deletes by id alone; failure and return are guarded by `locked_by`. A statement
given a queued job also unlocks the queues of its rows that the worker holds.
-/
namespace GraphileWorker.Database
open Foundation

/-- Queues of the rows in `j` that the worker holds:
`queues.id = j.job_queue_id and queues.locked_by = worker_id`. -/
def heldQueueOf (w : WorkerId) (j : List Job) (q : JobQueue) : Bool :=
  q.lockedBy == some w && j.any fun r => r.jobQueueId == some q.id

def completeQueued (db : Db) (ids : List JobId) (w : WorkerId) : Db :=
  (db.deleteJobs fun r => ids.contains r.id).unlockQueues
    (heldQueueOf w (db.jobs.rows.filter fun r => ids.contains r.id))

def completeUnqueued (db : Db) (ids : List JobId) : Db := db.deleteJobs fun r => ids.contains r.id

/-- `complete_job`; `job` is the row the claim returned. -/
def completeJob (db : Db) (job : Job) (w : WorkerId) : Db :=
  if job.jobQueueId.isSome then completeQueued db [job.id] w else completeUnqueued db [job.id]

structure CompletionRequest where
  jobId : JobId
  hasQueue : Bool

def completeJobsWithQueues (db : Db) (w : WorkerId) (jobIds : List JobId) : Db :=
  if jobIds.isEmpty then db else completeQueued db jobIds w

def completeJobsWithoutQueues (db : Db) (jobIds : List JobId) : Db :=
  if jobIds.isEmpty then db else completeUnqueued db jobIds

def completeOneJobWithQueue (db : Db) (req : CompletionRequest) (w : WorkerId) : Db :=
  completeQueued db [req.jobId] w

def completeOneJobWithoutQueue (db : Db) (req : CompletionRequest) : Db :=
  completeUnqueued db [req.jobId]

def completeJobDirect (db : Db) (req : CompletionRequest) (w : WorkerId) : Db :=
  if req.hasQueue then completeOneJobWithQueue db req w else completeOneJobWithoutQueue db req

/-- `exp(n) * interval '1 second'`, rounded to the microsecond, for `n` at most ten. -/
def expSeconds (n : ℤ) : Time :=
  if 0 ≤ n then
    [1000000,2718282,7389056,20085537,54598150,148413159,403428793,1096633158,2980957987,8103083928,
      22026465795].getD n.toNat 22026465795
  else
    [1000000,367879,135335,49787,18316,6738,2479,912,335,123,45,17,6,2,1].getD (-n).toNat 0

/-- One failed attempt: back off from the later of now and `run_at`. -/
def Job.fail (now : Time) (error : String) (replacementPayload : Option Json) (r : Job) : Job :=
  { r with
    lastError := some error
    runAt := max now r.runAt + expSeconds (min r.attempts 10)
    lock := none
    payload := replacementPayload.getD r.payload }

theorem Job.rowId_fail (now : Time) (error : String) (p : Option Json) (r : Job) :
    rowId (r.fail now error p) = rowId r := rfl

def ownedBy (w : WorkerId) (ids : List JobId) (r : Job) : Bool :=
  ids.contains r.id && r.lockedBy == some w

def failJob (db : Db) (job : Job) (w : WorkerId) (now : Time) (message : String)
    (replacementPayload : Option Json) : Db :=
  let failed := db.updateJobs (ownedBy w [job.id]) (Job.fail now message replacementPayload)
    (Job.rowId_fail now message replacementPayload)
  if job.jobQueueId.isSome then
    failed.unlockQueues (heldQueueOf w (db.jobs.rows.filter (ownedBy w [job.id])))
  else failed

structure FailedJob where
  job : Job
  error : String

def errorOf (jobs : List FailedJob) (r : Job) : String :=
  ((jobs.find? fun f => f.job.id == r.id).map FailedJob.error).getD ""

def Job.failWith (now : Time) (jobs : List FailedJob) (r : Job) : Job := r.fail now (errorOf jobs r) none

theorem Job.rowId_failWith (now : Time) (jobs : List FailedJob) (r : Job) :
    rowId (r.failWith now jobs) = rowId r := rfl

/-- `fail_jobs`: one statement, of the queued form as soon as one job is queued. -/
def failJobs (db : Db) (jobs : List FailedJob) (w : WorkerId) (now : Time) : Db :=
  if jobs.isEmpty then db
  else
    let ids := jobs.map fun f => f.job.id
    let failed := db.updateJobs (ownedBy w ids) (Job.failWith now jobs) (Job.rowId_failWith now jobs)
    if jobs.any fun f => f.job.jobQueueId.isSome then
      failed.unlockQueues (heldQueueOf w (db.jobs.rows.filter (ownedBy w ids)))
    else failed

theorem failJob_jobs (db : Db) (job : Job) (w : WorkerId) (now : Time) (message : String) (payload : Option Json) :
    (failJob db job w now message payload).jobs = db.jobs.updateWhere (ownedBy w [job.id])
      (Job.fail now message payload) (Job.rowId_fail now message payload) := by
  unfold failJob
  dsimp only
  split <;> rfl

theorem failJobs_jobs (db : Db) (jobs : List FailedJob) (w : WorkerId) (now : Time) :
    (failJobs db jobs w now).jobs = db.jobs.updateWhere (ownedBy w (jobs.map fun f => f.job.id))
      (Job.failWith now jobs) (Job.rowId_failWith now jobs) := by
  unfold failJobs
  split
  · next he =>
    rw [List.isEmpty_iff.mp he,IdTable.updateWhere_none]
    exact fun r _ => rfl
  · dsimp only
    split <;> rfl

/-- Arguments of `_private_return_jobs` after the worker and the ids. -/
structure ReturnOptions where
  recoveryDelayMs : Option ℤ := none
  recoveryError : Option String := none
  updateRecoveryMetadata : Bool := false

/-- A consumed attempt is restored unless the job was retired meanwhile. -/
def restoredAttempts (db : Db) (r : Job) : ℤ :=
  if db.isRetired r.id then r.attempts else max 0 (r.attempts - 1)

def Job.giveBack (db : Db) (now : Time) (o : ReturnOptions) (r : Job) : Job :=
  { r with
    attempts := restoredAttempts db r
    lock := none
    runAt := match o.updateRecoveryMetadata, o.recoveryDelayMs with
      | true, some delay => max r.runAt (now + delay * 1000)
      | _, _ => r.runAt
    lastError := if o.updateRecoveryMetadata then o.recoveryError.or r.lastError else r.lastError
    updatedAt := if o.updateRecoveryMetadata then now else r.updatedAt }

theorem Job.rowId_giveBack (db : Db) (now : Time) (o : ReturnOptions) (r : Job) :
    rowId (r.giveBack db now o) = rowId r := rfl

def privateReturnJobs (db : Db) (w : WorkerId) (ids : List JobId) (now : Time)
    (o : ReturnOptions) : Db :=
  (db.updateJobs (ownedBy w ids) (Job.giveBack db now o) (Job.rowId_giveBack db now o)).unlockQueues
    (heldQueueOf w (db.jobs.rows.filter (ownedBy w ids)))

def returnJobs (db : Db) (jobs : List Job) (w : WorkerId) (now : Time) : Db :=
  if jobs.isEmpty then db else privateReturnJobs db w (jobs.map Job.id) now {}

def returnJobForRecovery (db : Db) (job : Job) (w : WorkerId) (now : Time) (recoveryDelayMs : Option ℤ)
    (lastError : Option String) : Db :=
  privateReturnJobs db w [job.id] now ⟨recoveryDelayMs,lastError,true⟩

variable (db : Db) (w : WorkerId) (ids : List JobId) (now : Time) {f : Job → Job} {message : String}
  {payload : Option Json}

theorem locks_completeUnqueued : (completeUnqueued db ids).locks =
    db.locks.drop (selectedJobs db fun r => ids.contains r.id) ∅ := by
  have h := locks_delete db (fun r => ids.contains r.id) fun _ => false
  rwa [unlockQueues_none,selectedQueues_none] at h

theorem locks_release (f : Job → Job) (hf : ∀ r, rowId (f r) = rowId r) (hl : ∀ r, (f r).lock = none)
    (queued : Bool) :
    (if queued then (db.updateJobs (ownedBy w ids) f hf).unlockQueues
        (heldQueueOf w (db.jobs.rows.filter (ownedBy w ids)))
      else db.updateJobs (ownedBy w ids) f hf).locks =
    db.locks.drop (selectedJobs db (ownedBy w ids))
      (if queued then selectedQueues db (heldQueueOf w (db.jobs.rows.filter (ownedBy w ids))) else ∅) := by
  cases queued with
  | true => exact locks_unlock db _ f hf (fun r _ => hl r) _
  | false =>
    have h := locks_unlock db (ownedBy w ids) f hf (fun r _ => hl r) fun _ => false
    rwa [unlockQueues_none,selectedQueues_none] at h

theorem locks_failJobs (jobs : List FailedJob) :
    (failJobs db jobs w now).locks =
      db.locks.drop (selectedJobs db (ownedBy w (jobs.map fun f => f.job.id)))
        (if jobs.any fun f => f.job.jobQueueId.isSome then
          selectedQueues db (heldQueueOf w (db.jobs.rows.filter (ownedBy w (jobs.map fun f => f.job.id))))
        else ∅) := by
  unfold failJobs
  by_cases h : jobs.isEmpty = true
  · have hj : jobs = [] := List.isEmpty_iff.mp h
    subst hj
    have hs : selectedJobs db (ownedBy w []) = ∅ := by simp [selectedJobs,ownedBy]
    simp [Locks.drop,hs]
  · rw [if_neg h]
    exact locks_release db w _ _ _ (fun _ => rfl) _

theorem locks_privateReturnJobs (o : ReturnOptions) :
    (privateReturnJobs db w ids now o).locks =
      db.locks.drop (selectedJobs db (ownedBy w ids))
        (selectedQueues db (heldQueueOf w (db.jobs.rows.filter (ownedBy w ids)))) :=
  locks_release db w ids _ (Job.rowId_giveBack db now o) (fun _ => rfl) true

def lockedAs (i : JobId) : Bool := db.jobs.rows.any (ownedBy w [i])

variable {db w now} {jobs : List Job} {i : JobId}

theorem ownedBy_iff {r : Job} : ownedBy w ids r = true ↔ r.id ∈ ids ∧ r.lockedBy = some w := by
  simp [ownedBy]

theorem lockedAs_iff : lockedAs db w i = true ↔ ∃ r, db.jobs.find i = some r ∧ r.lockedBy = some w := by
  simp only [lockedAs,List.any_eq_true,ownedBy_iff,List.mem_singleton,find_job]
  constructor
  · rintro ⟨r,hr,hi,hl⟩
    exact ⟨r,⟨hr,hi⟩,hl⟩
  · rintro ⟨r,⟨hr,hi⟩,hl⟩
    exact ⟨r,hr,hi,hl⟩

theorem find_returnJobs : (returnJobs db jobs w now).jobs.find i = (db.jobs.find i).map fun r =>
    if ownedBy w (jobs.map Job.id) r then r.giveBack db now {} else r := by
  unfold returnJobs
  split
  · next he =>
    rw [List.isEmpty_iff.mp he]
    simp [ownedBy]
  · exact IdTable.find_updateWhere _ _ _ (Job.rowId_giveBack db now {}) i

theorem find_returnJobs_of_not_lockedAs (h : lockedAs db w i = false) :
    (returnJobs db jobs w now).jobs.find i = db.jobs.find i := by
  rw [find_returnJobs]
  cases hf : db.jobs.find i with
  | none => rfl
  | some r =>
    have hn : ¬ownedBy w (jobs.map Job.id) r = true := by
      rw [ownedBy_iff]
      rintro ⟨_,hl⟩
      rw [lockedAs_iff.mpr ⟨r,hf,hl⟩] at h
      cases h
    simp [hn]

theorem lockedAs_updateJobs (hf : ∀ r, rowId (f r) = rowId r) (hu : ∀ r, (f r).lock = none)
    (h : lockedAs (db.updateJobs (ownedBy w ids) f hf) w i = true) : lockedAs db w i = true ∧ i ∉ ids := by
  obtain ⟨r,hr,hl⟩ := lockedAs_iff.mp h
  rw [Db.updateJobs,IdTable.find_updateWhere] at hr
  obtain ⟨s,hs,rfl⟩ := Option.map_eq_some_iff.mp hr
  split at hl
  · rw [Job.lockedBy,hu] at hl
    cases hl
  · next hn =>
    refine ⟨lockedAs_iff.mpr ⟨s,hs,hl⟩,fun hm => hn ?_⟩
    exact (ownedBy_iff _).mpr ⟨(find_job.mp hs).2 ▸ hm,hl⟩

theorem lockedAs_returnJobs (h : lockedAs (returnJobs db jobs w now) w i = true) :
    lockedAs db w i = true ∧ i ∉ jobs.map Job.id := by
  unfold returnJobs at h
  split at h
  · next he =>
    rw [List.isEmpty_iff.mp he]
    exact ⟨h,List.not_mem_nil⟩
  · exact lockedAs_updateJobs _ (Job.rowId_giveBack db now {}) (fun _ => rfl) h

theorem lockedAs_failJob {job : Job} (h : lockedAs (failJob db job w now message payload) w i = true) :
    lockedAs db w i = true ∧ i ∉ [job.id] := by
  unfold failJob at h
  dsimp only at h
  split at h
  · exact lockedAs_updateJobs _ (Job.rowId_fail now message payload) (fun _ => rfl) h
  · exact lockedAs_updateJobs _ (Job.rowId_fail now message payload) (fun _ => rfl) h

theorem lockedAs_failJobs {jobs : List FailedJob} (h : lockedAs (failJobs db jobs w now) w i = true) :
    lockedAs db w i = true ∧ i ∉ jobs.map fun f => f.job.id := by
  unfold failJobs at h
  split at h
  · next he =>
    rw [List.isEmpty_iff.mp he]
    exact ⟨h,List.not_mem_nil⟩
  · dsimp only at h
    split at h
    · exact lockedAs_updateJobs _ (Job.rowId_failWith now jobs) (fun _ => rfl) h
    · exact lockedAs_updateJobs _ (Job.rowId_failWith now jobs) (fun _ => rfl) h

section Unheld
variable (h : ∀ i ∈ ids, lockedAs db w i = false)
include h

theorem ownedBy_of_not_lockedAs : ∀ r ∈ db.jobs.rows, ownedBy w ids r = false := by
  intro r hr
  rw [Bool.eq_false_iff,ne_eq,ownedBy_iff]
  rintro ⟨hm,hl⟩
  have ht := lockedAs_iff.mpr ⟨r,find_job.mpr ⟨hr,rfl⟩,hl⟩
  rw [h r.id hm] at ht
  cases ht

theorem updateJobs_of_not_lockedAs {hf : ∀ r, rowId (f r) = rowId r} :
    db.updateJobs (ownedBy w ids) f hf = db := by
  unfold Db.updateJobs
  rw [IdTable.updateWhere_none _ _ _ _ (ownedBy_of_not_lockedAs ids h)]

theorem unlockQueues_of_not_lockedAs :
    db.unlockQueues (heldQueueOf w (db.jobs.rows.filter (ownedBy w ids))) = db := by
  have hnil : db.jobs.rows.filter (ownedBy w ids) = [] := by
    rw [List.filter_eq_nil_iff]
    exact fun r hr => by simp [ownedBy_of_not_lockedAs ids h r hr]
  have hq : ∀ q ∈ db.jobQueues.rows, heldQueueOf w [] q = false := fun q _ => by simp [heldQueueOf]
  unfold Db.unlockQueues
  rw [hnil,IdTable.updateWhere_none _ _ _ _ hq]

theorem privateReturnJobs_of_not_lockedAs {o : ReturnOptions} :
    privateReturnJobs db w ids now o = db := by
  rw [privateReturnJobs,updateJobs_of_not_lockedAs ids h,unlockQueues_of_not_lockedAs ids h]

end Unheld

theorem failJob_of_not_lockedAs {job : Job}
    (h : lockedAs db w job.id = false) : failJob db job w now message payload = db := by
  have hs : ∀ i ∈ [job.id], lockedAs db w i = false := by simpa using h
  unfold failJob
  rw [updateJobs_of_not_lockedAs _ hs]
  dsimp only
  rw [unlockQueues_of_not_lockedAs _ hs,ite_self]

theorem returnJobs_of_not_lockedAs (h : ∀ j ∈ jobs, lockedAs db w j.id = false) :
    returnJobs db jobs w now = db := by
  unfold returnJobs
  split
  · rfl
  · apply privateReturnJobs_of_not_lockedAs
    intro i hi
    obtain ⟨j,hj,rfl⟩ := List.mem_map.mp hi
    exact h j hj

theorem db_ext {a b : Db} (hj : a.jobs.rows = b.jobs.rows) (hn : a.jobs.next = b.jobs.next)
    (hq : a.jobQueues = b.jobQueues) (ht : a.tasks = b.tasks) (hr : a.jobRetirements = b.jobRetirements) : a = b := by
  obtain ⟨aj,aq,at',ar⟩ := a
  obtain ⟨bj,bq,bt,br⟩ := b
  have hjobs : aj = bj := IdTable.ext hj hn
  subst hjobs hq ht hr
  rfl

variable {ids} {q : JobQueue} {f : FailedJob} {rest : List FailedJob}

theorem unlockQueues_congr {p q : JobQueue → Bool} (h : ∀ x ∈ db.jobQueues.rows, p x = true ↔ q x = true) :
    db.unlockQueues p = db.unlockQueues q := by
  have hrows : (db.unlockQueues p).jobQueues = (db.unlockQueues q).jobQueues :=
    IdTable.ext (List.map_congr_left fun x hx => by rw [Bool.eq_iff_iff.mpr (h x hx)]) rfl
  exact db_ext rfl rfl hrows rfl rfl

theorem unlockQueues_eq_self {p : JobQueue → Bool} (h : ∀ x ∈ db.jobQueues.rows, ¬p x = true) :
    db.unlockQueues p = db := by
  rw [unlockQueues_congr (q := fun _ => false) fun x hx => by simp [h x hx],unlockQueues_none]

theorem unlockQueues_twice {db' : Db} {p q r : JobQueue → Bool} (hq : db'.jobQueues = db.jobQueues)
    (h : ∀ x ∈ db.jobQueues.rows, r x = true ↔ p x = true ∨ (¬p x = true ∧ q x = true)) :
    ((db'.unlockQueues p).unlockQueues q).jobQueues = (db.unlockQueues r).jobQueues := by
  refine IdTable.ext ?_ (congrArg IdTable.next hq :)
  have hrows : ((db'.unlockQueues p).unlockQueues q).jobQueues.rows = db.jobQueues.rows.map fun x =>
      if q (if p x then x.unlock else x) then (if p x then x.unlock else x).unlock
      else if p x then x.unlock else x := by
    rw [← hq]
    exact List.map_map ..
  rw [hrows]
  refine List.map_congr_left fun x hx => ?_
  have hx := h x hx
  by_cases hp : p x = true
  · rw [if_pos hp,if_pos (hx.mpr (.inl hp))]
    split <;> rfl
  · rw [if_neg hp]
    by_cases hqx : q x = true
    · rw [if_pos hqx,if_pos (hx.mpr (.inr ⟨hp,hqx⟩))]
    · rw [if_neg hqx,if_neg fun hr => (hx.mp hr).elim hp fun hr => hqx hr.2]

theorem heldQueueOf_iff {j : List Job} :
    heldQueueOf w j q = true ↔ q.lockedBy = some w ∧ ∃ r ∈ j, r.jobQueueId = some q.id := by
  simp [heldQueueOf]

theorem completedQueue_iff : heldQueueOf w (db.jobs.rows.filter fun r => ids.contains r.id) q = true ↔
      q.lockedBy = some w ∧ ∃ r ∈ db.jobs.rows, r.id ∈ ids ∧ r.jobQueueId = some q.id := by
  simp [heldQueueOf_iff,List.mem_filter,and_assoc]

theorem mem_completeQueued {r : Job} : r ∈ (completeQueued db ids w).jobs.rows ↔ r ∈ db.jobs.rows ∧ r.id ∉ ids := by
  have hrows : (completeQueued db ids w).jobs.rows = db.jobs.rows.filter fun r => !ids.contains r.id := rfl
  rw [hrows,List.mem_filter]
  simp

theorem markers_completeQueued : (completeQueued db ids w).jobRetirements =
    db.jobRetirements.filter fun i => !decide (∃ r ∈ db.jobs.rows, r.id = i ∧ i ∈ ids) := by
  refine List.filter_congr fun i _ => ?_
  congr 1
  rw [Bool.eq_iff_iff,List.any_eq_true,decide_eq_true_iff]
  refine exists_congr fun r => and_congr_right fun _ => ?_
  rw [Bool.and_eq_true,beq_iff_eq,List.contains_iff_mem]
  exact and_congr_right fun hid => by rw [hid]

theorem completeQueued_append {later : List JobId} :
    completeQueued (completeQueued db ids w) later w = completeQueued db (ids ++ later) w := by
  have hrows : (completeQueued (completeQueued db ids w) later w).jobs.rows =
      (completeQueued db (ids ++ later) w).jobs.rows := by
    refine (List.filter_filter ..).trans (List.filter_congr fun r _ => ?_)
    simp [Bool.and_comm]
  have hmarkers : (completeQueued (completeQueued db ids w) later w).jobRetirements =
      (completeQueued db (ids ++ later) w).jobRetirements := by
    rw [markers_completeQueued,markers_completeQueued,markers_completeQueued,List.filter_filter]
    refine List.filter_congr fun i _ => ?_
    rw [Bool.eq_iff_iff]
    simp only [mem_completeQueued,List.mem_append,Bool.and_eq_true,Bool.not_eq_true',decide_eq_false_iff_not]
    grind
  refine db_ext hrows rfl (unlockQueues_twice rfl fun x _ => ?_) rfl hmarkers
  rw [completedQueue_iff,completedQueue_iff,completedQueue_iff]
  simp only [mem_completeQueued,List.mem_append]
  grind

theorem completeQueued_nil : completeQueued db [] w = db := by
  refine db_ext (List.filter_eq_self.mpr fun _ _ => rfl) rfl ?_ rfl ?_
  · have hqueues : db.unlockQueues (heldQueueOf w (db.jobs.rows.filter fun r => [].contains r.id)) = db :=
      unlockQueues_eq_self fun x _ => by simp [heldQueueOf_iff]
    exact (congrArg Db.jobQueues hqueues :)
  · rw [markers_completeQueued]
    exact List.filter_eq_self.mpr fun i _ => by simp

theorem failJob_eq_failJobs (f : FailedJob) : failJob db f.job w now f.error none = failJobs db [f] w now := by
  have hjobs : db.updateJobs (ownedBy w [f.job.id]) (Job.fail now f.error none) (Job.rowId_fail now f.error none) =
      db.updateJobs (ownedBy w [f.job.id]) (Job.failWith now [f]) (Job.rowId_failWith now [f]) := by
    unfold Db.updateJobs
    congr 1
    ext1
    · refine List.map_congr_left ?_
      intro r _
      by_cases ho : ownedBy w [f.job.id] r = true
      · have hid := List.mem_singleton.mp ((ownedBy_iff _).mp ho).1
        rw [if_pos ho,if_pos ho]
        simp [Job.failWith,errorOf,hid]
      · rw [if_neg ho,if_neg ho]
    · rfl
  unfold failJob failJobs
  rw [hjobs]
  simp

theorem failJobs_cons_jobs (f : FailedJob) (rest : List FailedJob) :
    (failJobs (failJobs db [f] w now) rest w now).jobs = (failJobs db (f :: rest) w now).jobs := by
  rw [failJobs_jobs,failJobs_jobs,failJobs_jobs]
  refine IdTable.updateWhere_updateWhere _ _ _ _ _ _ ?_
  intro r _
  dsimp only
  by_cases hf : ownedBy w [f.job.id] r = true
  · obtain ⟨hid,hl⟩ := (ownedBy_iff _).mp hf
    have hid := List.mem_singleton.mp hid
    have ho : ownedBy w ((f :: rest).map fun f => f.job.id) r = true :=
      (ownedBy_iff _).mpr ⟨by simp [hid],hl⟩
    have hn : ¬ownedBy w (rest.map fun f => f.job.id) (r.failWith now [f]) = true := by
      rw [ownedBy_iff]
      rintro ⟨_,hl⟩
      cases hl
    rw [List.map_singleton,if_pos hf,if_neg hn,if_pos ho]
    simp [Job.failWith,errorOf,hid]
  · rw [List.map_singleton,if_neg hf]
    have ho : ownedBy w ((f :: rest).map fun f => f.job.id) r = ownedBy w (rest.map fun f => f.job.id) r := by
      rw [Bool.eq_iff_iff,ownedBy_iff,ownedBy_iff,List.map_cons,List.mem_cons]
      constructor
      · rintro ⟨hid | hid,hl⟩
        · exact absurd ((ownedBy_iff _).mpr ⟨List.mem_singleton.mpr hid,hl⟩) hf
        · exact ⟨hid,hl⟩
      · rintro ⟨hid,hl⟩
        exact ⟨.inr hid,hl⟩
    rw [ho]
    split
    · next hr =>
      have hne : ¬f.job.id = r.id := by
        intro hid
        exact hf ((ownedBy_iff _).mpr ⟨List.mem_singleton.mpr hid.symm,((ownedBy_iff _).mp hr).2⟩)
      simp [Job.failWith,errorOf,hne]
    · rfl

theorem failJobs_queues {jobs : List FailedJob}
    (h : ∀ f ∈ jobs, ∀ r ∈ db.jobs.rows, ownedBy w [f.job.id] r = true → r.jobQueueId = f.job.jobQueueId) :
    (failJobs db jobs w now).jobQueues =
      db.jobQueues.updateWhere (heldQueueOf w (db.jobs.rows.filter (ownedBy w (jobs.map fun f => f.job.id))))
        JobQueue.unlock JobQueue.rowId_unlock := by
  unfold failJobs
  split
  · next he =>
    rw [List.isEmpty_iff.mp he,IdTable.updateWhere_none]
    intro q _
    simp [heldQueueOf,ownedBy]
  · dsimp only
    split
    · rfl
    · next hn =>
      refine (IdTable.updateWhere_none _ _ _ _ ?_).symm
      intro q _
      rw [Bool.eq_false_iff]
      intro hq
      obtain ⟨r,hr,hg⟩ := List.any_eq_true.mp (Bool.and_eq_true_iff.mp hq).2
      obtain ⟨hr,ho⟩ := List.mem_filter.mp hr
      obtain ⟨hid,hl⟩ := (ownedBy_iff _).mp ho
      obtain ⟨f,hf,hid⟩ := List.mem_map.mp hid
      have hrq := h f hf r hr ((ownedBy_iff _).mpr ⟨List.mem_singleton.mpr hid.symm,hl⟩)
      refine hn (List.any_eq_true.mpr ⟨f,hf,?_⟩)
      have hg : r.jobQueueId = some q.id := by simpa using hg
      rw [← hrq,hg]
      rfl

theorem failJobs_cons_queues
    (h : ∀ g ∈ f :: rest, ∀ r ∈ db.jobs.rows, ownedBy w [g.job.id] r = true → r.jobQueueId = g.job.jobQueueId) :
    (failJobs (failJobs db [f] w now) rest w now).jobQueues = (failJobs db (f :: rest) w now).jobQueues := by
  have hmem : ∀ r, r ∈ (failJobs db [f] w now).jobs.rows ∧ ownedBy w (rest.map fun g => g.job.id) r = true ↔
      r ∈ db.jobs.rows ∧ ¬ownedBy w [f.job.id] r = true ∧ ownedBy w (rest.map fun g => g.job.id) r = true := by
    intro r
    rw [failJobs_jobs]
    constructor
    · rintro ⟨hr,ho⟩
      obtain ⟨x,hx,rfl⟩ := List.mem_map.mp hr
      split at ho
      · cases ((ownedBy_iff _).mp ho).2
      · next hn =>
        rw [if_neg hn]
        exact ⟨hx,hn,ho⟩
    · exact fun ⟨hr,hn,ho⟩ => ⟨List.mem_map.mpr ⟨r,hr,if_neg hn⟩,ho⟩
  have howned : ∀ r, ownedBy w ((f :: rest).map fun g => g.job.id) r = true ↔
      ownedBy w [f.job.id] r = true ∨ ownedBy w (rest.map fun g => g.job.id) r = true := by
    intro r
    simp [ownedBy_iff,or_and_right]
  have hone : ∀ g ∈ [f], ∀ r ∈ db.jobs.rows, ownedBy w [g.job.id] r = true → r.jobQueueId = g.job.jobQueueId :=
    fun g hg => h g (List.mem_cons.mpr (.inl (List.mem_singleton.mp hg)))
  have hrest : ∀ g ∈ rest, ∀ r ∈ (failJobs db [f] w now).jobs.rows, ownedBy w [g.job.id] r = true →
      r.jobQueueId = g.job.jobQueueId := by
    intro g hg r hr ho
    obtain ⟨hid,hl⟩ := (ownedBy_iff _).mp ho
    have hid : r.id ∈ rest.map fun g => g.job.id := List.mem_map.mpr ⟨g,hg,(List.mem_singleton.mp hid).symm⟩
    exact h g (List.mem_cons_of_mem _ hg) r ((hmem r).mp ⟨hr,(ownedBy_iff _).mpr ⟨hid,hl⟩⟩).1 ho
  rw [failJobs_queues hrest,failJobs_queues hone,failJobs_queues h]
  show ((db.unlockQueues _).unlockQueues _).jobQueues = (db.unlockQueues _).jobQueues
  refine unlockQueues_twice rfl fun x _ => ?_
  simp only [heldQueueOf_iff,List.mem_filter,hmem,howned,List.map_singleton]
  grind

theorem failJobs_names (failed : List FailedJob) : (failJobs db failed w now).tasks = db.tasks ∧
    (failJobs db failed w now).jobRetirements = db.jobRetirements := by
  unfold failJobs
  dsimp only
  split_ifs <;> exact ⟨rfl,rfl⟩

/-- A batch of failures, with its first job reported by itself. -/
theorem failJobs_cons
    (h : ∀ g ∈ f :: rest, ∀ r ∈ db.jobs.rows, ownedBy w [g.job.id] r = true → r.jobQueueId = g.job.jobQueueId) :
    failJobs (failJobs db [f] w now) rest w now = failJobs db (f :: rest) w now := by
  have hjobs : _ = (failJobs db (f :: rest) w now).jobs := failJobs_cons_jobs f rest
  refine db_ext (congrArg IdTable.rows hjobs) (congrArg IdTable.next hjobs) (failJobs_cons_queues h) ?_ ?_
  · rw [(failJobs_names rest).1,(failJobs_names [f]).1,(failJobs_names (f :: rest)).1]
  · rw [(failJobs_names rest).2,(failJobs_names [f]).2,(failJobs_names (f :: rest)).2]

end GraphileWorker.Database
