import GraphileWorker.Database.Statement

/-! # Named queues run one job at a time

The discipline on the locks survives every statement but a completion that names a row
another worker holds.
-/
namespace GraphileWorker.Database
open Foundation

def Statement.completes : Statement → Option (WorkerId × List JobId)
  | .completeJob w job => some (w,[job.id])
  | .completeJobsWithQueues w ids => some (w,ids)
  | .completeJobsWithoutQueues w ids => some (w,ids)
  | .completeJobDirect w req => some (w,[req.jobId])
  | _ => none

def Statement.releases : Statement → Option (WorkerId × List JobId)
  | .failJob w job _ _ => some (w,[job.id])
  | .failJobs w jobs => some (w,jobs.map fun f => f.job.id)
  | .privateReturnJobs w ids _ => some (w,ids)
  | _ => none

def Statement.reports (st : Statement) : Option (WorkerId × List JobId) := st.completes.or st.releases

def HeldBy (db : Db) (w : WorkerId) (i : JobId) : Prop :=
  ∃ r ∈ db.jobs.rows, r.id = i ∧ r.lockedBy = some w

/-- Nobody but the worker holds this job, and it is not waiting either. -/
def GoneOrHeld (db : Db) (w : WorkerId) (i : JobId) : Prop :=
  ∀ r ∈ db.jobs.rows, r.id = i → r.lockedBy = some w

instance (db : Db) (w : WorkerId) (i : JobId) : Decidable (HeldBy db w i) :=
  inferInstanceAs (Decidable (∃ r ∈ db.jobs.rows, r.id = i ∧ r.lockedBy = some w))

instance (db : Db) (w : WorkerId) (i : JobId) : Decidable (GoneOrHeld db w i) :=
  inferInstanceAs (Decidable (∀ r ∈ db.jobs.rows, r.id = i → r.lockedBy = some w))

/-- Every outcome is reported by the worker that still holds the job. -/
def ReportsOwn (db : Db) (c : Call) : Prop :=
  ∀ p ∈ c.2.reports.toList, ∀ i ∈ p.2, HeldBy db p.1 i

/-- Every completed job is gone or held by the worker that completes it. -/
def CompletesOwn (db : Db) (c : Call) : Prop :=
  ∀ p ∈ c.2.completes.toList, ∀ i ∈ p.2, GoneOrHeld db p.1 i

instance (db : Db) (c : Call) : Decidable (ReportsOwn db c) :=
  inferInstanceAs (Decidable (∀ p ∈ c.2.reports.toList, ∀ i ∈ p.2, HeldBy db p.1 i))

instance (db : Db) (c : Call) : Decidable (CompletesOwn db c) :=
  inferInstanceAs (Decidable (∀ p ∈ c.2.completes.toList, ∀ i ∈ p.2, GoneOrHeld db p.1 i))

variable {db : Db} {w : WorkerId} {ids : List JobId} {p : Job → Bool}

theorem HeldBy.goneOrHeld {i : JobId} (h : HeldBy db w i) : GoneOrHeld db w i := by
  obtain ⟨r,hr,rfl,hw⟩ := h
  intro s hs hi
  rw [IdTable.eq_of_rowId hs hr hi]
  exact hw

theorem ReportsOwn.completesOwn {c : Call} (h : ReportsOwn db c) : CompletesOwn db c := by
  intro p hp i hi
  refine (h p ?_ i hi).goneOrHeld
  rw [Option.mem_toList] at hp ⊢
  simp [Statement.reports,Option.mem_def.mp hp]

theorem locks_item_row {r : Job} (hr : r ∈ db.jobs.rows) (hw : r.lockedBy = some w) :
    db.locks.item r.id = some (w,r.jobQueueId) := by
  obtain ⟨l,hl,hw⟩ := Option.map_eq_some_iff.mp hw
  exact (locks_item_some db).mpr ⟨r,hr,rfl,rfl,l,hl,hw⟩

theorem mem_heldQueueOf {g : QueueId} (h : g ∈ selectedQueues db (heldQueueOf w (db.jobs.rows.filter p))) :
    db.locks.group g = some w ∧ ∃ r ∈ db.jobs.rows, p r = true ∧ r.jobQueueId = some g := by
  obtain ⟨q,hq,rfl,hh⟩ := h
  obtain ⟨hw,hj⟩ := Bool.and_eq_true_iff.mp hh
  obtain ⟨r,hr,hg⟩ := List.any_eq_true.mp hj
  obtain ⟨hr,hp⟩ := List.mem_filter.mp hr
  exact ⟨(locks_group_some db).mpr ⟨q,hq,rfl,by simpa using hw⟩,r,hr,hp,by simpa using hg⟩

theorem serial_drop_held (hs : db.locks.Serial) {queued : Bool}
    (hp : ∀ r ∈ db.jobs.rows, p r = true → r.lockedBy = some w) : (db.locks.drop (selectedJobs db p)
      (if queued then selectedQueues db (heldQueueOf w (db.jobs.rows.filter p)) else ∅)).Serial := by
  refine hs.drop ?_
  intro g hg i v hi
  cases queued with
  | false => exact absurd hg (Set.notMem_empty g)
  | true =>
    obtain ⟨_,r,hr,hpr,hrg⟩ := mem_heldQueueOf hg
    have hl := locks_item_row hr (hp r hr hpr)
    rw [hrg] at hl
    rw [hs.single hi hl]
    exact ⟨r,hr,rfl,hpr⟩

theorem ownedBy_lockedBy {r : Job} (h : ownedBy w ids r = true) : r.lockedBy = some w := by
  simpa using (Bool.and_eq_true_iff.mp h).2

theorem serial_completion (hs : db.locks.Serial) (queued : Bool) (h : ∀ i ∈ ids, GoneOrHeld db w i) :
    ((completion db w ids queued).apply db.locks).Serial :=
  serial_drop_held hs fun r hr hp => h r.id (by simpa using hp) r hr rfl

theorem serial_sweep (hs : db.locks.Serial) (ws : List WorkerId) :
    ((sweep db ws).apply db.locks).Serial := by
  refine hs.drop ?_
  rintro g ⟨q,hq,rfl,hw⟩ i v hi
  obtain ⟨r,hr,rfl,_,l,hl,rfl⟩ := (locks_item_some db).mp hi
  obtain ⟨q',hq',hid,hv⟩ := (locks_group_some db).mp (hs.owner hi)
  rw [IdTable.eq_of_rowId hq' hq hid] at hv
  refine ⟨r,hr,rfl,?_⟩
  have hr' : r.lockedBy = q.lockedBy := by rw [hv]; simp [Job.lockedBy,hl]
  simpa [lockedJob,lockedQueue,hr'] using hw

theorem run_serial (hs : db.locks.Serial) {c : Call} (hc : CompletesOwn db c) :
    (c.2.run db c.1).locks.Serial := by
  obtain ⟨now,st⟩ := c
  rw [Statement.locks_run]
  cases st with
  | addJob | addJobs | permanentlyFailJobs | rescheduleJobs => exact hs
  | getJobWithFilter w taskIds filter => exact hs.claim selection_candidates_one.claimable
  | batchGetJobsWithFilter w taskIds filter n => exact hs.claim (selection_batchRows n).claimable
  | completeJob w job => exact serial_completion hs _ (hc (w,[job.id]) (by simp [Statement.completes]))
  | completeJobsWithQueues w ids => exact serial_completion hs _ (hc (w,ids) (by simp [Statement.completes]))
  | completeJobsWithoutQueues w ids =>
    exact serial_completion hs _ (hc (w,ids) (by simp [Statement.completes]))
  | completeJobDirect w req => exact serial_completion hs _ (hc (w,[req.jobId]) (by simp [Statement.completes]))
  | failJob | failJobs | privateReturnJobs => exact serial_drop_held hs fun _ _ hp => ownedBy_lockedBy hp
  | recoverDeadWorkerJobs ws | forceUnlockWorkers ws => exact serial_sweep hs ws
  | completeJobs | removeJob => exact hs.drop fun g hg => absurd hg (Set.notMem_empty g)

def Unlocked (db : Db) : Prop :=
  (∀ r ∈ db.jobs.rows, r.lock = none) ∧ ∀ q ∈ db.jobQueues.rows, q.lock = none

theorem Unlocked.free (h : Unlocked db) : db.locks.Free := by
  refine ⟨fun i => ?_,fun g => ?_⟩
  · cases hi : db.locks.item i with
    | none => rfl
    | some p =>
      obtain ⟨r,hr,_,_,l,hl,_⟩ := (locks_item_some db).mp hi
      exact absurd (hl.symm.trans (h.1 r hr)) (by simp)
  · cases hg : db.locks.group g with
    | none => rfl
    | some v =>
      obtain ⟨q,hq,_,hv⟩ := (locks_group_some db).mp hg
      simp [JobQueue.lockedBy,h.2 q hq] at hv

theorem unlocked_empty : Unlocked Db.empty := by simp [Unlocked,Db.empty,IdTable.empty]

theorem reaches_serial {db₀ : Db} (h₀ : Unlocked db₀) (h : Reaches step CompletesOwn db₀ db) :
    db.locks.Serial :=
  h.invariant (I := fun db => db.locks.Serial)
    (fun _ _ _ hc he hs => Option.some.inj he ▸ run_serial hs hc) h₀.free.serial

/-- If outcomes are reported by the holder, a named queue has at most one locked job, and its lock has the
same holder. -/
theorem named_queue_serial {db₀ : Db} (h₀ : Unlocked db₀) (h : Reaches step ReportsOwn db₀ db) :
    (∀ r ∈ db.jobs.rows, ∀ s ∈ db.jobs.rows, ∀ g, r.jobQueueId = some g → s.jobQueueId = some g →
      r.lock.isSome → s.lock.isSome → r = s) ∧
    ∀ r ∈ db.jobs.rows, ∀ g l, r.jobQueueId = some g → r.lock = some l →
      ∃ q ∈ db.jobQueues.rows, q.id = g ∧ q.lockedBy = some l.lockedBy := by
  have hs := reaches_serial h₀ (h.mono fun _ _ hc => hc.completesOwn)
  have hitem : ∀ r ∈ db.jobs.rows, ∀ g l, r.jobQueueId = some g → r.lock = some l →
      db.locks.item r.id = some (l.lockedBy,some g) := by
    intro r hr g l hg hl
    exact (locks_item_some db).mpr ⟨r,hr,rfl,hg,l,hl,rfl⟩
  refine ⟨?_,?_⟩
  · intro r hr s hs' g hg hg' hl hl'
    obtain ⟨l,hl⟩ := Option.isSome_iff_exists.mp hl
    obtain ⟨l',hl'⟩ := Option.isSome_iff_exists.mp hl'
    exact IdTable.eq_of_rowId hr hs' (hs.single (hitem r hr g l hg hl) (hitem s hs' g l' hg' hl'))
  · intro r hr g l hg hl
    exact (locks_group_some db).mp (hs.owner (hitem r hr g l hg hl))

/-- Two jobs of one queue; the first is claimed and completed, the second then
claimed by another worker, with a third job left waiting. -/
def handoverCalls : List Call :=
  [(0,.addJobs [⟨"task",.null,{ queueName := some "q" }⟩,⟨"task",.null,{ queueName := some "q" }⟩,
      ⟨"task",.null,{ queueName := some "q" }⟩] false none),
    (1,.batchGetJobsWithFilter "a" [1] .unrestricted 10),
    (2,.completeJobsWithQueues "a" [1]),
    (3,.getJobWithFilter "b" [1] .unrestricted)]

theorem handover_serial : Reaches step ReportsOwn Db.empty (after handoverCalls) ∧
    (after handoverCalls).jobs.rows.map Job.lockedBy = [some "b",none] ∧
    (∀ r ∈ (after handoverCalls).jobs.rows, ∀ s ∈ (after handoverCalls).jobs.rows, ∀ g,
      r.jobQueueId = some g → s.jobQueueId = some g → r.lock.isSome → s.lock.isSome → r = s) ∧
    ∀ r ∈ (after handoverCalls).jobs.rows, ∀ g l, r.jobQueueId = some g → r.lock = some l →
      ∃ q ∈ (after handoverCalls).jobQueues.rows, q.id = g ∧ q.lockedBy = some l.lockedBy := by
  have hr : Reaches step ReportsOwn Db.empty (after handoverCalls) := reaches_after (by decide)
  exact ⟨hr,by decide,named_queue_serial unlocked_empty hr⟩

end GraphileWorker.Database
