import GraphileWorker.Cron.Once
import GraphileWorker.Database.BatchClaim
import GraphileWorker.Maintenance.Cleanup

/-! # Returning undoes claiming

Others may do anything in between that leaves the claimed jobs alone or retires them. Whoever
unlocks a queue of the worker also unlocks one of its jobs.
-/
namespace GraphileWorker.Maintenance
open Foundation Database Recovery Cron

/-- Statements, cleanups and the statement of the cron loop, with the crontabs known to it. -/
inductive ClientStep
  | call (now : Time) (st : RecoveryStatement)
  | cleanup (keep : List String) (task : CleanupTask)
  | scheduleCronJobs (known : List KnownCrontab) (jobs : List CrontabJob) (lastExecution : Instant) (now : Time)

def reporter : Statement → Option WorkerId
  | .getJobWithFilter w _ _ => some w
  | .batchGetJobsWithFilter w _ _ _ => some w
  | .completeJob w _ => some w
  | .completeJobsWithQueues w _ => some w
  | .completeJobsWithoutQueues w _ => some w
  | .completeJobDirect w _ => some w
  | _ => none

namespace ClientStep

def run (db : Db) : ClientStep → Db
  | .call now st => st.run db now
  | .cleanup keep task => task.execute db keep
  | .scheduleCronJobs known jobs ts now =>
    match Cron.scheduleCronJobs ⟨db,known⟩ jobs ts now with
    | .ok store => store.db
    | .error _ => db

/-- Neither a claim of the worker nor a completion that it reports. Returns and failures in its
name may come from a recovery by others. -/
def Foreign (w : WorkerId) : ClientStep → Prop
  | .call _ (.plain st) => reporter st ≠ some w
  | _ => True

/-- When a step adds jobs or removes one by its key, the time it writes. -/
def retiresAt : ClientStep → Option Time
  | .call now (.plain (.addJob _ _)) => some now
  | .call now (.plain (.addJobs _ _ _)) => some now
  | .call now (.plain (.removeJob _)) => some now
  | .scheduleCronJobs _ _ _ now => some now
  | _ => none

/-- Row and marker of each listed job stay, or the step retires the job. -/
def TouchesAtMost (ids : List JobId) (db : Db) (s : ClientStep) : Prop :=
  ∀ i ∈ ids, ((s.run db).jobs.find i = db.jobs.find i ∧ (s.run db).isRetired i = db.isRetired i) ∨
    ∃ t r, s.retiresAt = some t ∧ db.jobs.find i = some r ∧ (s.run db).jobs.find i = some (r.retire t) ∧
      (s.run db).isRetired i = true

end ClientStep

def clientStep (db : Db) (s : ClientStep) : Option Db := some (s.run db)

def KeepsQueues (db db' : Db) : Prop := ∀ g q, db.jobQueues.find g = some q → db'.jobQueues.find g = some q

variable {db db' db'' : Db} {now : Time} {w : WorkerId}

theorem KeepsQueues.of_eq (h : db'.jobQueues = db.jobQueues) : KeepsQueues db db' := by
  intro g q hq
  rw [h]
  exact hq

theorem KeepsQueues.trans (h : KeepsQueues db db') (h' : KeepsQueues db' db'') : KeepsQueues db db'' :=
  fun g q hq => h' g q (h g q hq)

theorem keepsQueues_of_adds (h : Adds now db db') : KeepsQueues db db' := by
  cases h with
  | queue queueName =>
    intro g q hq
    have hne : g ≠ db.jobQueues.next := by
      rintro rfl
      rw [IdTable.find_next _ (le_refl _)] at hq
      cases hq
    rw [IdTable.find_insert,if_neg hne]
    exact hq
  | task | retire | insert | skip | replace | dedupe => exact .of_eq rfl

theorem keepsQueues_of_added (h : Added now db db') : KeepsQueues db db' := by
  induction h with
  | refl => exact .of_eq rfl
  | tail _ hs ih => exact ih.trans (keepsQueues_of_adds hs)

theorem added_scheduleCronJobs {known : List KnownCrontab} {jobs : List CrontabJob} {ts : Instant} {store : Store}
    (h : scheduleCronJobs ⟨db,known⟩ jobs ts now = .ok store) : Added now db store.db := by
  unfold scheduleCronJobs at h
  obtain ⟨⟨_,locked⟩,hrun,rfl⟩ := map_eq_ok.mp h
  refine added_foldlM (fun db a db' he => ?_) (cronStatement_ok hrun).2
  obtain ⟨row,hrow⟩ := add_eq_ok he
  exact added_addJobSql hrow

/-- The rows of `before` that were claimed, as they are later: locked, and unchanged or retired. -/
structure Held (before : Db) (w : WorkerId) (at_ : Time) (j : List Job) (db : Db) : Prop where
  job : ∀ r ∈ j, ∃ r', db.jobs.find r.id = some r' ∧ r'.lock = some ⟨at_,w⟩ ∧ r'.jobQueueId = r.jobQueueId ∧
    ((db.isRetired r.id = false ∧ r' = r.claim w at_) ∨
      (db.isRetired r.id = true ∧ r'.attempts = r'.maxAttempts))
  queue : ∀ r ∈ j, ∀ g, r.jobQueueId = some g → ∃ q, before.jobQueues.find g = some q ∧ q.lock = none ∧
    db.jobQueues.find g = some (q.claim w at_)
  only : ∀ i g, db.locks.item i = some (w,g) → ∃ r ∈ j, r.id = i

section Steps
variable {before : Db} {at_ : Time} {j c : List Job} {s : ClientStep} {st : Statement} {v : WorkerId} {g : QueueId}
  {q : JobQueue} {ids : List JobId} {r : Job}

def StillLocked (w : WorkerId) (j : List Job) (db : Db) : Prop :=
  ∀ r ∈ j, ∃ r', db.jobs.find r.id = some r' ∧ r'.lockedBy = some w

theorem item_of_apply {L : Locks JobId QueueId WorkerId} {e : Effect} {i : JobId} {g : Option QueueId}
    (hne : ∀ v c, e = .claim v c → v ≠ w) (h : (e.apply L).item i = some (w,g)) : L.item i = some (w,g) := by
  cases e with
  | keep => exact h
  | claim v c =>
    rcases Locks.claim_item h with ⟨_,hv⟩ | ⟨_,hl⟩
    · exact absurd hv.symm (hne v c rfl)
    · exact hl
  | drop D R => exact (Locks.drop_item.mp h).2

theorem claim_of_effect (h : st.effect db now = .claim v c) : reporter st = some v := by
  cases st with
  | getJobWithFilter | batchGetJobsWithFilter =>
    cases h
    rfl
  | addJob | addJobs | completeJob | completeJobsWithQueues | completeJobsWithoutQueues | completeJobDirect |
    failJob | failJobs | privateReturnJobs | recoverDeadWorkerJobs | forceUnlockWorkers | completeJobs | removeJob |
    permanentlyFailJobs | rescheduleJobs => cases h

theorem item_of_run {i : JobId} {g : Option QueueId} (hs : s.Foreign w)
    (h : (s.run db).locks.item i = some (w,g)) : db.locks.item i = some (w,g) := by
  cases s with
  | call now st =>
    cases st with
    | plain st =>
      have hlocks : (st.run db now).locks = (st.effect db now).apply db.locks := st.locks_run db now
      rw [ClientStep.run,RecoveryStatement.run,hlocks] at h
      exact item_of_apply (fun v c hc hv => hs (hv ▸ claim_of_effect hc)) h
    | setRecoveredJobSchedule jobId runAt attempts =>
      have hlocks : (Recovery.setRecoveredJobSchedule db jobId runAt attempts now).locks = db.locks :=
        locks_updateJobs db _ _ _ fun _ _ => rfl
      rw [ClientStep.run,RecoveryStatement.run,hlocks] at h
      exact h
  | cleanup keep task =>
    cases task with
    | gcTaskIdentifiers => exact h
    | gcJobQueues => exact h
    | deletePermanentlyFailedJobs =>
      rw [ClientStep.run,CleanupTask.execute,locks_deleteJobs] at h
      exact (Locks.drop_item.mp h).2
  | scheduleCronJobs known jobs ts now =>
    rw [ClientStep.run] at h
    split at h
    · next store hstore =>
      rwa [(added_scheduleCronJobs hstore).locks] at h
    · exact h

theorem find_unlockQueues {p : JobQueue → Bool} (hq : db.jobQueues.find g = some q)
    (hp : p q ≠ true) : (db.unlockQueues p).jobQueues.find g = some q := by
  rw [Db.unlockQueues,IdTable.find_updateWhere,hq,Option.map_some,if_neg hp]

theorem not_heldQueueOf (hheld : Held before w at_ j db) (hstay : StillLocked w j db') (hl : q.lockedBy = some w)
    (hun : ∀ x ∈ db.jobs.rows, ownedBy v ids x = true → ∀ x', db'.jobs.find x.id = some x' → x'.lock = none) :
    heldQueueOf v (db.jobs.rows.filter (ownedBy v ids)) q ≠ true := by
  intro hq
  obtain ⟨hv,hany⟩ := Bool.and_eq_true_iff.mp hq
  obtain rfl : w = v := Option.some_inj.mp (hl.symm.trans (beq_iff_eq.mp hv))
  obtain ⟨x,hx,_⟩ := List.any_eq_true.mp hany
  obtain ⟨hmem,hown⟩ := List.mem_filter.mp hx
  obtain ⟨lock,hlock,hby⟩ := Option.map_eq_some_iff.mp ((ownedBy_iff ids).mp hown).2
  have hitem : db.locks.item x.id = some (w,x.jobQueueId) :=
    (locks_item_some db).mpr ⟨x,hmem,rfl,rfl,lock,hlock,hby⟩
  obtain ⟨r,hr,hrid⟩ := hheld.only _ _ hitem
  obtain ⟨r',hr',hrl⟩ := hstay r hr
  rw [hrid] at hr'
  rw [Job.lockedBy,hun x hmem hown r' hr'] at hrl
  cases hrl

theorem not_heldQueueOf_of_ne {l : List Job} (hv : v ≠ w) (hl : q.lockedBy = some w) :
    heldQueueOf v l q ≠ true := by
  intro hq
  have hqv := beq_iff_eq.mp (Bool.and_eq_true_iff.mp hq).1
  exact hv (Option.some_inj.mp (hqv.symm.trans hl))

theorem find_queue_completed (hv : v ≠ w)
    (hq : db.jobQueues.find g = some q) (hl : q.lockedBy = some w) (queued : Bool) :
    (if queued then completeQueued db ids v else completeUnqueued db ids).jobQueues.find g = some q := by
  cases queued with
  | true =>
    have hq' : (db.deleteJobs fun r => ids.contains r.id).jobQueues.find g = some q := hq
    exact find_unlockQueues hq' (not_heldQueueOf_of_ne hv hl)
  | false => exact hq

theorem find_queue_claimRows (hc : Selection db c) (hq : db.jobQueues.find g = some q) (hl : q.lockedBy = some w) :
    (claimRows db v now c).jobQueues.find g = some q := by
  have hnone : ¬(c.any fun x => x.jobQueueId == some q.id) = true := by
    intro hany
    obtain ⟨x,hx,hxq⟩ := List.any_eq_true.mp hany
    obtain ⟨q',hq',hid,hfree⟩ := hc.queue x hx q.id (beq_iff_eq.mp hxq)
    obtain rfl : q' = q := IdTable.eq_of_rowId hq' (find_queue.mp hq).1 hid
    rw [JobQueue.lockedBy,hfree] at hl
    cases hl
  rw [claimRows,IdTable.find_updateWhere,hq,Option.map_some,if_neg hnone]

theorem not_lockedQueue {ws : List WorkerId} (hheld : Held before w at_ j db)
    (hstay : StillLocked w j db') (hl : q.lockedBy = some w) (hr : r ∈ j)
    (hun : ∀ x ∈ db.jobs.rows, lockedJob ws x = true → ∀ x', db'.jobs.find x.id = some x' → x'.lock = none) :
    lockedQueue ws q ≠ true := by
  intro hq
  have hws : ws.contains w = true := by simpa [lockedQueue,lockedByAny,hl] using hq
  obtain ⟨x,hx,hlock,_⟩ := hheld.job r hr
  obtain ⟨hmem,hid⟩ := find_job.mp hx
  have hswept : lockedJob ws x = true := by simpa [lockedJob,lockedByAny,Job.lockedBy,hlock] using hws
  obtain ⟨r',hr',hrl⟩ := hstay r hr
  rw [← hid] at hr'
  rw [Job.lockedBy,hun x hmem hswept r' hr'] at hrl
  cases hrl

theorem unlocked_of_update {p : Job → Bool} {f : Job → Job} (hf : ∀ r, rowId (f r) = rowId r)
    (hjobs : db'.jobs = db.jobs.updateWhere p f hf) (hlock : ∀ r, (f r).lock = none) :
    ∀ x ∈ db.jobs.rows, p x = true → ∀ x', db'.jobs.find x.id = some x' → x'.lock = none := by
  intro x hx hp x' hx'
  have hfind : db.jobs.find x.id = some x := find_job.mpr ⟨hx,rfl⟩
  rw [hjobs,IdTable.find_updateWhere,hfind,Option.map_some,if_pos hp] at hx'
  rw [← Option.some_inj.mp hx']
  exact hlock x

theorem find_queue_statement (hheld : Held before w at_ j db)
    (hs : reporter st ≠ some w) (hstay : StillLocked w j (st.run db now)) (hr : r ∈ j)
    (hq : db.jobQueues.find g = some q) (hl : q.lockedBy = some w) : (st.run db now).jobQueues.find g = some q := by
  have hne : ∀ v, reporter st = some v → v ≠ w := fun v hv h => hs (h ▸ hv)
  cases st with
  | addJob job localNow =>
    exact committed_of_ok (·.jobQueues.find g = some q) hq fun _ _ h =>
      keepsQueues_of_added (added_addJobSql (mapError_eq_ok.mp h)) g q hq
  | addJobs jobs preserve localNow =>
    exact committed_of_ok (·.jobQueues.find g = some q) hq fun _ _ h => keepsQueues_of_added (added_addJobs h) g q hq
  | getJobWithFilter v taskIds filter => exact find_queue_claimRows selection_candidates_one hq hl
  | batchGetJobsWithFilter v taskIds filter n => exact find_queue_claimRows (selection_batchRows n) hq hl
  | completeJob v job => exact find_queue_completed (hne v rfl) hq hl _
  | completeJobsWithQueues v ids =>
    cases ids with
    | nil => exact hq
    | cons i rest => exact find_queue_completed (hne v rfl) hq hl true
  | completeJobsWithoutQueues v ids =>
    cases ids with
    | nil => exact hq
    | cons i rest => exact hq
  | completeJobDirect v req => exact find_queue_completed (hne v rfl) hq hl _
  | failJob v job message payload =>
    have hkeep := not_heldQueueOf hheld hstay hl
      (unlocked_of_update _ (failJob_jobs db job v now message payload) fun _ => rfl)
    simp only [Statement.run,Database.failJob]
    split
    · exact find_unlockQueues hq hkeep
    · exact hq
  | failJobs v jobs =>
    have hkeep := not_heldQueueOf hheld hstay hl (unlocked_of_update _ (failJobs_jobs db jobs v now) fun _ => rfl)
    simp only [Statement.run,Database.failJobs]
    split
    · exact hq
    · split
      · exact find_unlockQueues hq hkeep
      · exact hq
  | privateReturnJobs v ids o =>
    exact find_unlockQueues hq (not_heldQueueOf hheld hstay hl
      (unlocked_of_update (Job.rowId_giveBack db now o) rfl fun _ => rfl))
  | recoverDeadWorkerJobs ws delayMs =>
    simp only [Statement.run,Database.recoverDeadWorkerJobs] at hstay ⊢
    split at hstay
    · next he =>
      rw [if_pos he]
      exact hq
    · next he =>
      rw [if_neg he]
      exact find_unlockQueues hq (not_lockedQueue hheld hstay hl hr
        (unlocked_of_update (Job.rowId_recover db.isRetired now delayMs) rfl fun _ => rfl))
  | forceUnlockWorkers ws =>
    exact find_unlockQueues hq (not_lockedQueue hheld hstay hl hr
      (unlocked_of_update Job.rowId_unlock rfl fun _ => rfl))
  | completeJobs ids => exact hq
  | removeJob key =>
    simp only [Statement.run,Database.removeJob]
    split
    · exact hq
    · exact hq
  | permanentlyFailJobs ids message => exact hq
  | rescheduleJobs ids o =>
    refine committed_of_ok (·.jobQueues.find g = some q) hq fun db' rows h => ?_
    obtain ⟨o',rfl,_⟩ := rescheduleJobs_ok h
    exact hq

theorem find_queue_run (hheld : Held before w at_ j db) (hs : s.Foreign w)
    (hstay : StillLocked w j (s.run db)) (hr : r ∈ j) (hq : db.jobQueues.find g = some q)
    (hl : q.lockedBy = some w) : (s.run db).jobQueues.find g = some q := by
  cases s with
  | call now st =>
    cases st with
    | plain st => exact find_queue_statement hheld hs hstay hr hq hl
    | setRecoveredJobSchedule jobId runAt attempts => exact hq
  | cleanup keep task =>
    cases task with
    | gcTaskIdentifiers => exact hq
    | deletePermanentlyFailedJobs => exact hq
    | gcJobQueues =>
      have hused : unusedQueue db q = false := by
        have hsome : q.lock.isNone = false := by
          cases hlock : q.lock with
          | none => simp [JobQueue.lockedBy,hlock] at hl
          | some lock => rfl
        simp [unusedQueue,hsome]
      rw [ClientStep.run,CleanupTask.execute,IdTable.find_deleteWhere,hq]
      simp [Option.filter,hused]
  | scheduleCronJobs known jobs ts now =>
    rw [ClientStep.run]
    split
    · next store hstore =>
      exact keepsQueues_of_added (added_scheduleCronJobs hstore) g q hq
    · exact hq

theorem Held.step (hheld : Held before w at_ j db) (hs : s.Foreign w) (ht : s.TouchesAtMost (j.map Job.id) db) :
    Held before w at_ j (s.run db) := by
  have hjob : ∀ r ∈ j, ∃ r', (s.run db).jobs.find r.id = some r' ∧ r'.lock = some ⟨at_,w⟩ ∧
      r'.jobQueueId = r.jobQueueId ∧ (((s.run db).isRetired r.id = false ∧ r' = r.claim w at_) ∨
        ((s.run db).isRetired r.id = true ∧ r'.attempts = r'.maxAttempts)) := by
    intro r hr
    obtain ⟨r',hr',hlock,hqueue,hstate⟩ := hheld.job r hr
    rcases ht r.id (List.mem_map_of_mem hr) with ⟨hrow,hmark⟩ | ⟨t,x,_,hx,hrow,hmark⟩
    · rw [hrow,hmark]
      exact ⟨r',hr',hlock,hqueue,hstate⟩
    · obtain rfl : r' = x := Option.some_inj.mp (hr'.symm.trans hx)
      exact ⟨r'.retire t,hrow,hlock,hqueue,.inr ⟨hmark,rfl⟩⟩
  have hstay : StillLocked w j (s.run db) := by
    intro r hr
    obtain ⟨r',hr',hlock,_⟩ := hjob r hr
    exact ⟨r',hr',by simp [Job.lockedBy,hlock]⟩
  refine ⟨hjob,fun r hr g hg => ?_,fun i g hi => hheld.only i g (item_of_run hs hi)⟩
  obtain ⟨q,hbefore,hfree,hq⟩ := hheld.queue r hr g hg
  exact ⟨q,hbefore,hfree,find_queue_run hheld hs hstay hr hq rfl⟩

end Steps

section Return
variable {before claimed later : Db} {taskIds : List TaskId} {filter : JobFlagFilter} {n : ℕ} {at_ : Time}
  {j jobs : List Job} {ids : List JobId} {r : Job} {g : QueueId}

theorem held_claimRows (hj : ∀ r ∈ j, Eligible before taskIds filter at_ r)
    (hmarks : ∀ r ∈ before.jobs.rows, r.isAvailable = true → before.isRetired r.id = false)
    (hfree : ∀ i g, before.locks.item i ≠ some (w,g)) : Held before w at_ j (claimRows before w at_ j) := by
  have hclaims := claims_claimRows (w := w) hj
  refine ⟨fun r hr => ?_,fun r hr g hg => ?_,fun i g hi => ?_⟩
  · have havailable : r.isAvailable = true := by simp [Job.isAvailable,(hj r hr).unlocked,(hj r hr).attempts]
    exact ⟨_,(hclaims.job r hr).2,rfl,rfl,.inl ⟨hmarks r (hj r hr).mem havailable,rfl⟩⟩
  · obtain ⟨q,hq,hq'⟩ := hclaims.queue r hr g hg
    obtain ⟨q₀,hmem,hid,hlock⟩ := (hj r hr).queue.resolve_left (by simp [hg])
    have hfind : before.jobQueues.find g = some q₀ := find_queue.mpr ⟨hmem,Option.some_inj.mp (hid.symm.trans hg)⟩
    obtain rfl : q = q₀ := Option.some_inj.mp (hq.symm.trans hfind)
    exact ⟨q,hq,hlock,hq'⟩
  · by_contra hnone
    have hother : ∀ r ∈ j, r.id ≠ i := fun r hr hid => hnone ⟨r,hr,hid⟩
    rw [Db.locks] at hi
    dsimp only at hi
    rw [hclaims.otherJobs i hother] at hi
    exact hfree i g hi

theorem giveBack_claim (hlock : r.lock = none) (hattempts : 0 ≤ r.attempts)
    (hmark : later.isRetired r.id = false) (now : Time) : (r.claim w at_).giveBack later now {} = r := by
  have hrestored : restoredAttempts later (r.claim w at_) = r.attempts := by
    have hid : later.isRetired (r.claim w at_).id = false := hmark
    rw [restoredAttempts,hid,if_neg Bool.false_ne_true]
    simp only [Job.claim]
    omega
  rw [Job.giveBack,hrestored]
  cases r
  cases hlock
  rfl

theorem find_returned {r' : Job} (hids : r.id ∈ ids) (hr' : later.jobs.find r.id = some r')
    (hlock : r'.lockedBy = some w) (now : Time) :
    (privateReturnJobs later w ids now {}).jobs.find r.id = some (r'.giveBack later now {}) := by
  have hown : ownedBy w ids r' = true := (ownedBy_iff ids).mpr ⟨(find_job.mp hr').2 ▸ hids,hlock⟩
  have hfind : (privateReturnJobs later w ids now {}).jobs.find r.id =
      (later.jobs.find r.id).map fun x => if ownedBy w ids x then x.giveBack later now {} else x :=
    IdTable.find_updateWhere _ _ _ (Job.rowId_giveBack later now {}) r.id
  rw [hfind,hr',Option.map_some,if_pos hown]

theorem find_queue_returned {q : JobQueue} {r' : Job} (hq : later.jobQueues.find g = some q)
    (hl : q.lockedBy = some w) (hmem : r' ∈ later.jobs.rows) (hids : r'.id ∈ ids) (hlock : r'.lockedBy = some w)
    (hg : r'.jobQueueId = some g) (now : Time) :
    (privateReturnJobs later w ids now {}).jobQueues.find g = some q.unlock := by
  have hheld : heldQueueOf w (later.jobs.rows.filter (ownedBy w ids)) q = true := by
    refine Bool.and_eq_true_iff.mpr ⟨beq_iff_eq.mpr hl,List.any_eq_true.mpr ⟨r',?_,?_⟩⟩
    · exact List.mem_filter.mpr ⟨hmem,(ownedBy_iff ids).mpr ⟨hids,hlock⟩⟩
    · rw [hg,(find_queue.mp hq).2]
      exact beq_self_eq_true _
  have hfind : (privateReturnJobs later w ids now {}).jobQueues.find g = (later.jobQueues.find g).map fun x =>
      if heldQueueOf w (later.jobs.rows.filter (ownedBy w ids)) x then x.unlock else x :=
    IdTable.find_updateWhere _ _ _ JobQueue.rowId_unlock g
  rw [hfind,hq,Option.map_some,if_pos hheld]

theorem return_again (now t : Time) : privateReturnJobs (privateReturnJobs later w ids now {}) w ids t {} =
    privateReturnJobs later w ids now {} := by
  apply privateReturnJobs_of_not_lockedAs
  intro i hi
  cases hl : lockedAs (privateReturnJobs later w ids now {}) w i with
  | false => rfl
  | true => exact absurd hi (lockedAs_updateJobs ids (Job.rowId_giveBack later now {}) (fun _ => rfl) hl).2

theorem returns_again (now : Time) (times : List Time) :
    times.foldl (fun db t => privateReturnJobs db w ids t {}) (privateReturnJobs later w ids now {}) =
      privateReturnJobs later w ids now {} := by
  induction times with
  | nil => rfl
  | cons t rest ih => rw [List.foldl_cons,return_again,ih]

theorem Held.find_live (h : Held before w at_ j later) (hr : r ∈ j) (hids : r.id ∈ ids)
    (hlock : r.lock = none) (hattempts : 0 ≤ r.attempts) (hmark : later.isRetired r.id = false) (now : Time) :
    (privateReturnJobs later w ids now {}).jobs.find r.id = some r := by
  obtain ⟨r',hr',hl,_,hstate⟩ := h.job r hr
  have hlive : r' = r.claim w at_ := by
    rcases hstate with ⟨_,hlive⟩ | ⟨hret,_⟩
    · exact hlive
    · rw [hmark] at hret
      cases hret
  have hby : r'.lockedBy = some w := by simp [Job.lockedBy,hl]
  rw [find_returned hids hr' hby,hlive,giveBack_claim hlock hattempts hmark]

theorem Held.find_retired (h : Held before w at_ j later) (hr : r ∈ j) (hids : r.id ∈ ids)
    (hmark : later.isRetired r.id = true) (now : Time) : ∃ r',
      (privateReturnJobs later w ids now {}).jobs.find r.id = some r' ∧ r'.lock = none ∧
        r'.attempts = r'.maxAttempts := by
  obtain ⟨r',hr',hl,_,hstate⟩ := h.job r hr
  have hexhausted : r'.attempts = r'.maxAttempts := by
    rcases hstate with ⟨hlive,_⟩ | ⟨_,hexhausted⟩
    · rw [hmark] at hlive
      cases hlive
    · exact hexhausted
  have hby : r'.lockedBy = some w := by simp [Job.lockedBy,hl]
  have hkept : restoredAttempts later r' = r'.attempts := by
    rw [restoredAttempts,(find_job.mp hr').2,if_pos hmark]
  exact ⟨r'.giveBack later now {},find_returned hids hr' hby now,rfl,hkept.trans hexhausted⟩

theorem Held.find_queue (h : Held before w at_ j later) (hr : r ∈ j) (hids : r.id ∈ ids)
    (hg : r.jobQueueId = some g) (now : Time) : ∃ q, before.jobQueues.find g = some q ∧
      (privateReturnJobs later w ids now {}).jobQueues.find g = some q := by
  obtain ⟨q,hbefore,hfree,hq⟩ := h.queue r hr g hg
  obtain ⟨r',hr',hl,hqueue,_⟩ := h.job r hr
  obtain ⟨hmem,hid⟩ := find_job.mp hr'
  have hby : r'.lockedBy = some w := by simp [Job.lockedBy,hl]
  have hsame : (q.claim w at_).unlock = q := by
    cases q
    cases hfree
    rfl
  refine ⟨q,hbefore,?_⟩
  rw [find_queue_returned hq rfl hmem (hid ▸ hids) hby (hqueue.trans hg),hsame]

/-- The jobs that were not retired and the queues are as before the claim, the retired jobs are unlocked
without attempts left, and more returns of the batch change nothing. -/
theorem return_undoes_claim (hattempts : ∀ r ∈ before.jobs.rows, 0 ≤ r.attempts)
    (hmarks : ∀ r ∈ before.jobs.rows, r.isAvailable = true → before.isRetired r.id = false)
    (hjobs : ∀ r ∈ before.jobs.rows, r.lockedBy ≠ some w) (hqueues : ∀ q ∈ before.jobQueues.rows, q.lockedBy ≠ some w)
    (hclaim : BatchResult before taskIds w filter n at_ claimed jobs)
    (hothers : Reaches clientStep (fun db s => s.Foreign w ∧ s.TouchesAtMost (jobs.map Job.id) db) claimed later)
    (now : Time) (times : List Time) :
    (∀ job ∈ jobs, later.isRetired job.id = false → ∃ r, before.jobs.find job.id = some r ∧
      (privateReturnJobs later w (jobs.map Job.id) now {}).jobs.find job.id = some r) ∧
    (∀ job ∈ jobs, later.isRetired job.id = true → ∃ r,
      (privateReturnJobs later w (jobs.map Job.id) now {}).jobs.find job.id = some r ∧
        r.lock = none ∧ r.attempts = r.maxAttempts) ∧
    (∀ q ∈ claimed.jobQueues.rows, q.lockedBy = some w → ∃ q₀, before.jobQueues.find q.id = some q₀ ∧
      (privateReturnJobs later w (jobs.map Job.id) now {}).jobQueues.find q.id = some q₀) ∧
    times.foldl (fun db t => privateReturnJobs db w (jobs.map Job.id) t {})
      (privateReturnJobs later w (jobs.map Job.id) now {}) =
        privateReturnJobs later w (jobs.map Job.id) now {} := by
  obtain ⟨c,hc,rfl,hperm⟩ := hclaim
  have hel : ∀ r ∈ onePerQueue c, Eligible before taskIds filter at_ r :=
    fun r hr => mem_eligibleRows.mp (hc.mem (mem_of_mem_onePerQueue hr))
  have hids : (jobs.map Job.id).Perm ((onePerQueue c).map Job.id) := by
    have hmap := hperm.map Job.id
    rw [List.map_map] at hmap
    exact hmap
  have hmem : ∀ r ∈ onePerQueue c, r.id ∈ jobs.map Job.id := fun r hr => hids.mem_iff.mpr (List.mem_map_of_mem hr)
  have hrow : ∀ job ∈ jobs, ∃ r ∈ onePerQueue c, r.id = job.id := fun job hjob =>
    List.mem_map.mp (hids.mem_iff.mp (List.mem_map_of_mem hjob))
  have hfree : ∀ i g, before.locks.item i ≠ some (w,g) := by
    intro i g hi
    obtain ⟨r,hr,_,_,l,hl,hw⟩ := (locks_item_some before).mp hi
    exact hjobs r hr (by simp [Job.lockedBy,hl,hw])
  have hheld : Held before w at_ (onePerQueue c) later := by
    refine hothers.invariant ?_ (held_claimRows hel hmarks hfree)
    rintro db s db' ⟨hforeign,htouch⟩ hstep hinv
    rw [← Option.some_inj.mp hstep]
    exact hinv.step hforeign fun i hi => htouch i (hids.mem_iff.mpr hi)
  refine ⟨?_,?_,?_,returns_again now times⟩
  · intro job hjob hmark
    obtain ⟨r,hr,hid⟩ := hrow job hjob
    rw [← hid] at hmark ⊢
    exact ⟨r,find_job.mpr ⟨(hel r hr).mem,rfl⟩,
      hheld.find_live hr (hmem r hr) (hel r hr).unlocked (hattempts r (hel r hr).mem) hmark now⟩
  · intro job hjob hmark
    obtain ⟨r,hr,hid⟩ := hrow job hjob
    rw [← hid] at hmark ⊢
    exact hheld.find_retired hr (hmem r hr) hmark now
  · intro q hq hw
    have hnamed : ∃ r ∈ onePerQueue c, r.jobQueueId = some q.id := by
      by_contra hnone
      have hother : ∀ r ∈ onePerQueue c, r.jobQueueId ≠ some q.id := fun r hr he => hnone ⟨r,hr,he⟩
      have hfind := (claims_claimRows (w := w) hel).otherQueues q.id hother
      rw [find_queue.mpr ⟨hq,rfl⟩] at hfind
      exact hqueues q (find_queue.mp hfind.symm).1 hw
    obtain ⟨r,hr,hg⟩ := hnamed
    exact hheld.find_queue hr (hmem r hr) hg now

end Return

def keyedAndPlain : Db :=
  after [(0,.addJobs [⟨"task",.null,{ queueName := some "q", jobKey := some "k" }⟩,⟨"task",.null,{}⟩] false none)]

theorem keyed_job_removed_meanwhile :
    let claimed := (batchGetJobsWithFilter keyedAndPlain [1] "a" .unrestricted 2 1).1
    let returned := privateReturnJobs (ClientStep.run claimed (.call 2 (.plain (.removeJob "k")))) "a" [1,2] 3 {}
    (∃ r, keyedAndPlain.jobs.find 2 = some r ∧ returned.jobs.find 2 = some r) ∧
      (∃ r, returned.jobs.find 1 = some r ∧ r.lock = none ∧ r.attempts = r.maxAttempts) ∧
      ∃ q, keyedAndPlain.jobQueues.find 1 = some q ∧ returned.jobQueues.find 1 = some q := by
  have hothers : Reaches clientStep (fun db s => s.Foreign "a" ∧ s.TouchesAtMost [1,2] db)
      (batchGetJobsWithFilter keyedAndPlain [1] "a" .unrestricted 2 1).1
      (ClientStep.run (batchGetJobsWithFilter keyedAndPlain [1] "a" .unrestricted 2 1).1
        (.call 2 (.plain (.removeJob "k")))) := by
    refine .step .refl ⟨by simp [ClientStep.Foreign,reporter],?_⟩ rfl
    intro i hi
    simp only [List.mem_cons,List.not_mem_nil,or_false] at hi
    obtain rfl | rfl := hi
    · exact .inr ⟨2,_,rfl,rfl,rfl,by decide⟩
    · exact .inl ⟨rfl,by decide⟩
  have hattempts : ∀ r ∈ keyedAndPlain.jobs.rows, 0 ≤ r.attempts := by decide
  have hmarks : ∀ r ∈ keyedAndPlain.jobs.rows, r.isAvailable = true → keyedAndPlain.isRetired r.id = false := by decide
  have hjobs : ∀ r ∈ keyedAndPlain.jobs.rows, r.lockedBy ≠ some "a" := by decide
  have hqueues : ∀ q ∈ keyedAndPlain.jobQueues.rows, q.lockedBy ≠ some "a" := by decide
  have hclaim : BatchResult keyedAndPlain [1] "a" .unrestricted 2 1 _ _ := batchResult_batchGetJobsWithFilter
  obtain ⟨hlive,hretired,hqueue,_⟩ := return_undoes_claim hattempts hmarks hjobs hqueues hclaim hothers 3 []
  refine ⟨hlive _ (List.mem_cons_of_mem _ List.mem_cons_self) (by decide),hretired _ List.mem_cons_self (by decide),?_⟩
  exact hqueue _ List.mem_cons_self (by decide)

end GraphileWorker.Maintenance
