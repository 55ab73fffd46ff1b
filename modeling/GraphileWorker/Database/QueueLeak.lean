import GraphileWorker.Database.SerialQueues

/-! # Queue locks that outlive their job

A named queue is unlocked through a job that holds it. The administrative deletions accept a
job whose lock is older than four hours and write no queue row.
-/
namespace GraphileWorker.Database
open Foundation

/-- Every locked queue has a job locked by the same worker. -/
def NoLeakedQueue (db : Db) : Prop :=
  ∀ q ∈ db.jobQueues.rows, ∀ w, q.lockedBy = some w →
    ∃ r ∈ db.jobs.rows, r.jobQueueId = some q.id ∧ r.lockedBy = some w

/-- The worker holds the job, and knows whether it is in a named queue. -/
def HoldsAs (db : Db) (w : WorkerId) (i : JobId) (hasQueue : Bool) : Prop :=
  ∃ r ∈ db.jobs.rows, r.id = i ∧ r.lockedBy = some w ∧ r.jobQueueId.isSome = hasQueue

instance (db : Db) (w : WorkerId) (i : JobId) (hasQueue : Bool) : Decidable (HoldsAs db w i hasQueue) :=
  inferInstanceAs (Decidable (∃ r ∈ db.jobs.rows, r.id = i ∧ r.lockedBy = some w ∧ r.jobQueueId.isSome = hasQueue))

/-- Completions, failures and returns come from the owner of the claim. -/
def Statement.ByOwner (db : Db) : Statement → Prop
  | .completeJob w job => HoldsAs db w job.id job.jobQueueId.isSome
  | .completeJobsWithQueues w ids => ∀ i ∈ ids, HoldsAs db w i true
  | .completeJobsWithoutQueues w ids => ∀ i ∈ ids, HoldsAs db w i false
  | .completeJobDirect w req => HoldsAs db w req.jobId req.hasQueue
  | .failJob w job _ _ => HoldsAs db w job.id job.jobQueueId.isSome
  | .failJobs w jobs => ∀ f ∈ jobs, HoldsAs db w f.job.id f.job.jobQueueId.isSome
  | .privateReturnJobs w ids _ => ∀ i ∈ ids, HeldBy db w i
  | _ => True

instance (db : Db) : (st : Statement) → Decidable (st.ByOwner db)
  | .completeJob w job => inferInstanceAs (Decidable (HoldsAs db w job.id job.jobQueueId.isSome))
  | .completeJobsWithQueues w ids => inferInstanceAs (Decidable (∀ i ∈ ids, HoldsAs db w i true))
  | .completeJobsWithoutQueues w ids => inferInstanceAs (Decidable (∀ i ∈ ids, HoldsAs db w i false))
  | .completeJobDirect w req => inferInstanceAs (Decidable (HoldsAs db w req.jobId req.hasQueue))
  | .failJob w job _ _ => inferInstanceAs (Decidable (HoldsAs db w job.id job.jobQueueId.isSome))
  | .failJobs w jobs =>
    inferInstanceAs (Decidable (∀ f ∈ jobs, HoldsAs db w f.job.id f.job.jobQueueId.isSome))
  | .privateReturnJobs w ids _ => inferInstanceAs (Decidable (∀ i ∈ ids, HeldBy db w i))
  | .addJob .. | .addJobs .. | .getJobWithFilter .. | .batchGetJobsWithFilter .. | .recoverDeadWorkerJobs ..
  | .forceUnlockWorkers .. | .completeJobs .. | .removeJob .. | .permanentlyFailJobs ..
  | .rescheduleJobs .. => isTrue trivial

def Statement.deletes (now : Time) : Statement → Job → Bool
  | .completeJobs ids => adminRow now ids
  | .removeJob key => removable now key
  | _ => fun _ => false

/-- No administrative deletion removes a locked job of a named queue. -/
def KeepsQueueHolders (db : Db) (c : Call) : Prop :=
  ∀ r ∈ db.jobs.rows, c.2.deletes c.1 r = true → r.lock.isSome → r.jobQueueId = none

instance (db : Db) (c : Call) : Decidable (KeepsQueueHolders db c) :=
  inferInstanceAs (Decidable (∀ r ∈ db.jobs.rows, c.2.deletes c.1 r = true → r.lock.isSome → r.jobQueueId = none))

/-- Owner reports, and deletions that keep the holders of queues. -/
def LeakFree (db : Db) (c : Call) : Prop := c.2.ByOwner db ∧ KeepsQueueHolders db c

instance (db : Db) (c : Call) : Decidable (LeakFree db c) :=
  inferInstanceAs (Decidable (c.2.ByOwner db ∧ KeepsQueueHolders db c))

variable {db : Db} {w : WorkerId} {c : Call} {queued : Bool} {ids : List JobId}

theorem noLeakedQueue_iff : NoLeakedQueue db ↔ db.locks.NoLeak := by
  constructor
  · intro h g v hg
    obtain ⟨q,hq,rfl,hv⟩ := (locks_group_some db).mp hg
    obtain ⟨r,hr,hrg,hrv⟩ := h q hq v hv
    exact ⟨r.id,by rw [locks_item_row hr hrv,hrg]⟩
  · intro h q hq v hv
    obtain ⟨i,hi⟩ := h q.id v ((locks_group_some db).mpr ⟨q,hq,rfl,hv⟩)
    obtain ⟨r,hr,_,hg,l,hl,rfl⟩ := (locks_item_some db).mp hi
    exact ⟨r,hr,hg,by simp [Job.lockedBy,hl]⟩

theorem HoldsAs.row {i : JobId} {hasQueue : Bool} (h : HoldsAs db w i hasQueue) {r : Job}
    (hr : r ∈ db.jobs.rows) (hi : r.id = i) : r.lockedBy = some w ∧ r.jobQueueId.isSome = hasQueue := by
  obtain ⟨s,hs,hsi,hw,hq⟩ := h
  rw [IdTable.eq_of_rowId hr hs (hi.trans hsi.symm)]
  exact ⟨hw,hq⟩

theorem Statement.ByOwner.completesOwn {st : Statement} {now : Time} (h : st.ByOwner db) :
    CompletesOwn db (now,st) := by
  rintro ⟨v,is⟩ hp i hi r hr hri
  have hc : st.completes = some (v,is) := Option.mem_toList.mp hp
  cases st with
  | completeJob w job =>
    cases hc
    exact (HoldsAs.row h hr (hri.trans (List.mem_singleton.mp hi))).1
  | completeJobsWithQueues w ids | completeJobsWithoutQueues w ids =>
    cases hc
    exact (HoldsAs.row (h i hi) hr hri).1
  | completeJobDirect w req =>
    cases hc
    exact (HoldsAs.row h hr (hri.trans (List.mem_singleton.mp hi))).1
  | _ => cases hc

/-- Giving rows of the worker back leaks no queue when the statement has the
queue part that its named rows call for. -/
theorem noLeak_drop_held (hn : db.locks.NoLeak) {p : Job → Bool}
    (hp : ∀ r ∈ db.jobs.rows, p r = true → r.lockedBy = some w ∧ (r.jobQueueId.isSome → queued = true)) :
    (db.locks.drop (selectedJobs db p)
      (if queued then selectedQueues db (heldQueueOf w (db.jobs.rows.filter p)) else ∅)).NoLeak := by
  refine hn.drop ?_
  rintro g hg i v hv hi ⟨r,hr,rfl,hpr⟩
  obtain ⟨hw,hq⟩ := hp r hr hpr
  rw [locks_item_row hr hw] at hi
  obtain ⟨rfl,hrg⟩ : w = v ∧ r.jobQueueId = some g := by simpa using hi
  obtain ⟨q,hqr,rfl,hqw⟩ := (locks_group_some db).mp hv
  apply hg
  rw [if_pos (hq (by simp [hrg]))]
  refine ⟨q,hqr,rfl,Bool.and_eq_true_iff.mpr ⟨by simp [hqw],List.any_eq_true.mpr ⟨r,?_,by simp [hrg]⟩⟩⟩
  exact List.mem_filter.mpr ⟨hr,hpr⟩

theorem noLeak_completion (hn : db.locks.NoLeak)
    (h : ∀ i ∈ ids, HoldsAs db w i queued) : ((completion db w ids queued).apply db.locks).NoLeak :=
  noLeak_drop_held hn fun r hr hp => by
    obtain ⟨hw,hq⟩ := (h r.id (by simpa using hp)).row hr rfl
    exact ⟨hw,fun hs => hq ▸ hs⟩

theorem noLeak_release (hn : db.locks.NoLeak)
    (h : ∀ r ∈ db.jobs.rows, r.id ∈ ids → r.jobQueueId.isSome → queued = true) :
    ((release db w ids queued).apply db.locks).NoLeak :=
  noLeak_drop_held hn fun r hr hp =>
    ⟨ownedBy_lockedBy hp,h r hr (by simpa using (Bool.and_eq_true_iff.mp hp).1)⟩

theorem noLeak_sweep (hn : db.locks.NoLeak) (ws : List WorkerId) :
    ((sweep db ws).apply db.locks).NoLeak := by
  refine hn.drop ?_
  rintro g hg i v hv hi ⟨r,hr,rfl,hp⟩
  obtain ⟨s,hs,hsr,_,l,hl,rfl⟩ := (locks_item_some db).mp hi
  rw [IdTable.eq_of_rowId hs hr hsr] at hl
  obtain ⟨q,hq,rfl,hqw⟩ := (locks_group_some db).mp hv
  refine hg ⟨q,hq,rfl,?_⟩
  have he : q.lockedBy = r.lockedBy := by rw [hqw]; simp [Job.lockedBy,hl]
  simpa [lockedJob,lockedQueue,he] using hp

theorem noLeak_drop_jobs_iff (hs : db.locks.Serial) (hn : db.locks.NoLeak) (p : Job → Bool) :
    (db.locks.drop (selectedJobs db p) ∅).NoLeak ↔
      ∀ r ∈ db.jobs.rows, p r = true → r.lock.isSome → r.jobQueueId = none := by
  constructor
  · intro h r hr hp hl
    obtain ⟨l,hl⟩ := Option.isSome_iff_exists.mp hl
    cases hg : r.jobQueueId with
    | none => rfl
    | some g =>
      have hi : db.locks.item r.id = some (l.lockedBy,some g) :=
        (locks_item_some db).mpr ⟨r,hr,rfl,hg,l,hl,rfl⟩
      -- the queue stays locked, and its only holder was this row
      obtain ⟨j,hj⟩ := h g l.lockedBy (Locks.drop_group.mpr ⟨Set.notMem_empty g,hs.owner hi⟩)
      obtain ⟨hd,hj⟩ := Locks.drop_item.mp hj
      exact absurd ⟨r,hr,(hs.single hj hi).symm,hp⟩ hd
  · intro h
    refine hn.drop ?_
    rintro g _ i v _ hi ⟨r,hr,rfl,hp⟩
    obtain ⟨s,hsr,hid,hg,l,hl,_⟩ := (locks_item_some db).mp hi
    rw [IdTable.eq_of_rowId hsr hr hid] at hg hl
    exact absurd (hg.symm.trans (h r hr hp (by simp [hl]))) (by simp)

theorem run_noLeak_iff (hs : db.locks.Serial) (hn : db.locks.NoLeak) (ho : c.2.ByOwner db) :
    (c.2.run db c.1).locks.NoLeak ↔ KeepsQueueHolders db c := by
  obtain ⟨now,st⟩ := c
  have hfree : (∀ r, st.deletes now r = false) → KeepsQueueHolders db (now,st) := by
    intro h r _ hd
    exact absurd (hd.symm.trans (h r)) (by simp)
  rw [Statement.locks_run]
  cases st with
  | completeJobs ids => exact noLeak_drop_jobs_iff hs hn _
  | removeJob key => exact noLeak_drop_jobs_iff hs hn _
  | addJob | addJobs | permanentlyFailJobs | rescheduleJobs => exact iff_of_true hn (hfree fun _ => rfl)
  | getJobWithFilter w taskIds filter =>
    exact iff_of_true (hn.claim selection_candidates_one.claimable) (hfree fun _ => rfl)
  | batchGetJobsWithFilter w taskIds filter n =>
    exact iff_of_true (hn.claim (selection_batchRows n).claimable) (hfree fun _ => rfl)
  | completeJob w job =>
    exact iff_of_true (noLeak_completion hn (List.forall_mem_singleton.mpr ho)) (hfree fun _ => rfl)
  | completeJobsWithQueues w ids | completeJobsWithoutQueues w ids =>
    exact iff_of_true (noLeak_completion hn ho) (hfree fun _ => rfl)
  | completeJobDirect w req =>
    exact iff_of_true (noLeak_completion hn (List.forall_mem_singleton.mpr ho)) (hfree fun _ => rfl)
  | failJob w job message payload =>
    refine iff_of_true (noLeak_release hn fun r hr hi hq => ?_) (hfree fun _ => rfl)
    exact (HoldsAs.row ho hr (List.mem_singleton.mp hi)).2 ▸ hq
  | failJobs w jobs =>
    refine iff_of_true (noLeak_release hn fun r hr hi hq => ?_) (hfree fun _ => rfl)
    obtain ⟨f,hf,hfi⟩ := List.mem_map.mp hi
    exact List.any_eq_true.mpr ⟨f,hf,(HoldsAs.row (ho f hf) hr hfi.symm).2 ▸ hq⟩
  | privateReturnJobs w ids o =>
    exact iff_of_true (noLeak_release hn fun _ _ _ _ => rfl) (hfree fun _ => rfl)
  | recoverDeadWorkerJobs ws | forceUnlockWorkers ws =>
    exact iff_of_true (noLeak_sweep hn ws) (hfree fun _ => rfl)

theorem reaches_leakFree (h : Reaches step LeakFree Db.empty db) : db.locks.Serial ∧ db.locks.NoLeak := by
  refine h.invariant (I := fun db => db.locks.Serial ∧ db.locks.NoLeak) ?_
    ⟨unlocked_empty.free.serial,unlocked_empty.free.noLeak⟩
  rintro t c u ⟨ho,hk⟩ he ⟨hs,hn⟩
  rw [← Option.some.inj he]
  exact ⟨run_serial hs ho.completesOwn,(run_noLeak_iff hs hn ho).mpr hk⟩

/-- If the administrative deletions spare the locked jobs of named queues, each locked queue has a job
through which it can be unlocked; the next statement keeps it so exactly when it spares them too. -/
theorem queue_lock_not_leaked (h : Reaches step LeakFree Db.empty db) :
    NoLeakedQueue db ∧
    ∀ c : Call, c.2.ByOwner db → (NoLeakedQueue (c.2.run db c.1) ↔ KeepsQueueHolders db c) := by
  obtain ⟨hs,hn⟩ := reaches_leakFree h
  refine ⟨noLeakedQueue_iff.mpr hn,fun c ho => ?_⟩
  rw [noLeakedQueue_iff]
  exact run_noLeak_iff hs hn ho

def staleCalls : List Call :=
  [(0,.addJob ⟨"task",.null,{ queueName := some "q", jobKey := some "k" }⟩ none),
    (1,.getJobWithFilter "a" [1] .unrestricted)]

theorem fresh_lock_not_leaked : Reaches step LeakFree Db.empty (after staleCalls) ∧
    (after staleCalls).jobQueues.rows.map JobQueue.lockedBy = [some "a"] ∧
    NoLeakedQueue (after staleCalls) ∧
    NoLeakedQueue ((Statement.completeJobs [1]).run (after staleCalls) 2) := by
  have hr : Reaches step LeakFree Db.empty (after staleCalls) := reaches_after (by decide)
  have hq := queue_lock_not_leaked hr
  exact ⟨hr,by decide,hq.1,(hq.2 (2,.completeJobs [1]) (by decide)).mpr (by decide)⟩

/-- `complete_jobs` and `remove_job` delete the locked job and leave its queue locked. -/
theorem stale_deletion_leaks :
    Reaches step (fun db c => c.2.ByOwner db) Db.empty
      (after (staleCalls ++ [(14400000002,.completeJobs [1])])) ∧
    ¬NoLeakedQueue (after (staleCalls ++ [(14400000002,.completeJobs [1])])) ∧
    Reaches step (fun db c => c.2.ByOwner db) Db.empty
      (after (staleCalls ++ [(14400000002,.removeJob "k")])) ∧
    ¬NoLeakedQueue (after (staleCalls ++ [(14400000002,.removeJob "k")])) := by
  refine ⟨reaches_after (by decide),?_,reaches_after (by decide),?_⟩
  all_goals
    intro h
    obtain ⟨r,hr,_⟩ := h ⟨1,"q",some ⟨1,"a"⟩⟩ (by decide) "a" rfl
    exact absurd hr List.not_mem_nil

end GraphileWorker.Database
