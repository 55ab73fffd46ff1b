import GraphileWorker.Database.SerialQueues

/-! # Outcomes that arrive late

A job may have been recovered and claimed again by then. Failures and returns select by id
and holder, completions by id alone.
-/
namespace GraphileWorker.Database
open Foundation

/-- What a report by `w` on the jobs `ids` must leave alone: all job rows if it
holds none of the jobs, every row that it does not hold, and every locked queue
whose locked job it does not report. -/
structure LateSafe (db : Db) (c : Call) (w : WorkerId) (ids : List JobId) : Prop where
  late : (∀ i ∈ ids, ¬HeldBy db w i) → (c.2.run db c.1).jobs.rows = db.jobs.rows
  others : ∀ r ∈ db.jobs.rows, r.lockedBy ≠ some w → r ∈ (c.2.run db c.1).jobs.rows
  queues : ∀ q ∈ db.jobQueues.rows, q.lock.isSome → ∀ q' ∈ (c.2.run db c.1).jobQueues.rows, q'.id = q.id →
    q'.lock = none → ∀ r ∈ db.jobs.rows, r.jobQueueId = some q.id → r.lock.isSome → r.id ∈ ids

/-- How a report touches the tables: the rows it selects, what becomes of them,
and whether it has a queue part. -/
structure Report (db : Db) (c : Call) (w : WorkerId) (ids : List JobId) where
  p : Job → Bool
  f : Job → Option Job
  queued : Bool
  listed : ∀ r, p r = true → r.id ∈ ids
  held : CompletesOwn db c → ∀ r ∈ db.jobs.rows, p r = true → r.lockedBy = some w
  rows : (c.2.run db c.1).jobs.rows = db.jobs.rows.filterMap fun r => if p r then f r else some r
  effect : c.2.effect db c.1 = .drop (selectedJobs db p)
    (if queued then selectedQueues db (heldQueueOf w (db.jobs.rows.filter p)) else ∅)

variable {db : Db} {now : Time} {w : WorkerId} {ids : List JobId} {c : Call} {st : Statement}

theorem rows_deleteJobs (p : Job → Bool) :
    (db.deleteJobs p).jobs.rows = db.jobs.rows.filterMap fun r => if p r then none else some r := by
  simp only [Db.deleteJobs,IdTable.deleteWhere]
  rw [← List.filterMap_eq_filter]
  congr 1
  funext r
  cases hp : p r <;> simp [Option.guard,hp]

theorem rows_updateJobs (p : Job → Bool) (f : Job → Job) (hf : ∀ r, rowId (f r) = rowId r) :
    (db.updateJobs p f hf).jobs.rows = db.jobs.rows.filterMap fun r => if p r then some (f r) else some r := by
  simp only [Db.updateJobs,IdTable.updateWhere]
  rw [← List.filterMap_eq_map]
  congr 1
  funext r
  cases hp : p r <;> simp [hp]

def Report.ofCompletion {st : Statement} (queued : Bool) (hc : st.completes = some (w,ids))
    (hr : (st.run db now).jobs.rows = (db.deleteJobs fun r => ids.contains r.id).jobs.rows)
    (he : st.effect db now = completion db w ids queued) : Report db (now,st) w ids where
  p r := ids.contains r.id
  f _ := none
  queued := queued
  listed _ hp := by simpa using hp
  held ho r hr hp := ho (w,ids) (by simp [hc]) r.id (by simpa using hp) r hr rfl
  rows := hr.trans (rows_deleteJobs _)
  effect := he

def Report.ofRelease {st : Statement} (queued : Bool) (f : Job → Job) (hf : ∀ r, rowId (f r) = rowId r)
    (hr : (st.run db now).jobs.rows = (db.updateJobs (ownedBy w ids) f hf).jobs.rows)
    (he : st.effect db now = release db w ids queued) : Report db (now,st) w ids where
  p := ownedBy w ids
  f r := some (f r)
  queued := queued
  listed _ hp := by simpa using (Bool.and_eq_true_iff.mp hp).1
  held _ _ _ hp := ownedBy_lockedBy hp
  rows := hr.trans (rows_updateJobs _ f hf)
  effect := he

theorem rows_completed (queued : Bool) :
    (if queued then completeQueued db ids w else completeUnqueued db ids).jobs.rows =
      (db.deleteJobs fun r => ids.contains r.id).jobs.rows := by
  cases queued <;> rfl

theorem rows_deleteJobs_nil : db.jobs.rows = (db.deleteJobs fun r => ([] : List JobId).contains r.id).jobs.rows := by
  simp [Db.deleteJobs,IdTable.deleteWhere]

theorem rows_released (f : Job → Job) (hf : ∀ r, rowId (f r) = rowId r) (queued : Bool) :
    (if queued then (db.updateJobs (ownedBy w ids) f hf).unlockQueues
        (heldQueueOf w (db.jobs.rows.filter (ownedBy w ids)))
      else db.updateJobs (ownedBy w ids) f hf).jobs.rows = (db.updateJobs (ownedBy w ids) f hf).jobs.rows := by
  cases queued <;> rfl

theorem rows_completes (h : st.completes = some (w,ids)) :
    (st.run db now).jobs.rows = (db.deleteJobs fun r => ids.contains r.id).jobs.rows := by
  cases st with
  | completeJob v job =>
    cases h
    exact rows_completed _
  | completeJobsWithQueues v is =>
    cases h
    cases ids with
    | nil => exact rows_deleteJobs_nil
    | cons i rest => exact rows_completed true
  | completeJobsWithoutQueues v is =>
    cases h
    cases ids with
    | nil => exact rows_deleteJobs_nil
    | cons i rest => exact rows_completed (w := w) false
  | completeJobDirect v req =>
    cases h
    exact rows_completed _
  | _ => cases h

theorem effect_completes (h : st.completes = some (w,ids)) :
    ∃ queued, st.effect db now = completion db w ids queued := by
  cases st with
  | completeJob | completeJobsWithQueues | completeJobsWithoutQueues | completeJobDirect =>
    cases h
    exact ⟨_,rfl⟩
  | _ => cases h

theorem report_of_completes (h : st.completes = some (w,ids)) : Nonempty (Report db (now,st) w ids) := by
  obtain ⟨queued,he⟩ := effect_completes h
  exact ⟨.ofCompletion queued h (rows_completes h) he⟩

theorem report_of_releases (h : st.releases = some (w,ids)) : Nonempty (Report db (now,st) w ids) := by
  cases st with
  | failJob v job message payload =>
    cases h
    exact ⟨.ofRelease job.jobQueueId.isSome (Job.fail now message payload) (Job.rowId_fail now message payload)
      (rows_released _ _ _) rfl⟩
  | failJobs v jobs =>
    cases h
    refine ⟨.ofRelease (jobs.any fun f => f.job.jobQueueId.isSome) (Job.failWith now jobs)
      (Job.rowId_failWith now jobs) ?_ rfl⟩
    cases jobs with
    | nil => simp [Statement.run,failJobs,Db.updateJobs,IdTable.updateWhere,ownedBy]
    | cons f rest => exact rows_released _ _ _
  | privateReturnJobs v is o =>
    cases h
    exact ⟨.ofRelease true (Job.giveBack db now o) (Job.rowId_giveBack db now o) rfl rfl⟩
  | _ => cases h

theorem report_of_reports (h : c.2.reports = some (w,ids)) : Nonempty (Report db c w ids) := by
  rcases Option.or_eq_some_iff.mp h with h | ⟨_,h⟩
  · exact report_of_completes h
  · exact report_of_releases h

theorem Report.mem_run (R : Report db c w ids) {r : Job} (hr : r ∈ db.jobs.rows) (hp : R.p r = false) :
    r ∈ (c.2.run db c.1).jobs.rows := by
  rw [R.rows]
  exact List.mem_filterMap.mpr ⟨r,hr,by simp [hp]⟩

theorem Report.run_rows (R : Report db c w ids) (hp : ∀ r ∈ db.jobs.rows, R.p r = false) :
    (c.2.run db c.1).jobs.rows = db.jobs.rows := by
  have hsome : ∀ r ∈ db.jobs.rows, (if R.p r then R.f r else some r) = some r := fun r hr => by
    simp [hp r hr]
  rw [R.rows,List.filterMap_congr hsome,List.filterMap_some]

theorem Report.unlocked_queue (R : Report db c w ids) {q q' : JobQueue} (hq : q ∈ db.jobQueues.rows)
    (hl : q.lock.isSome) (hq' : q' ∈ (c.2.run db c.1).jobQueues.rows) (hid : q'.id = q.id)
    (hn : q'.lock = none) : ∃ r ∈ db.jobs.rows, R.p r = true ∧ r.jobQueueId = some q.id := by
  obtain ⟨l,hl⟩ := Option.isSome_iff_exists.mp hl
  have hbefore : db.locks.group q.id = some l.lockedBy :=
    (locks_group_some db).mpr ⟨q,hq,rfl,by simp [JobQueue.lockedBy,hl]⟩
  have hafter : (c.2.run db c.1).locks.group q.id ≠ some l.lockedBy := by
    intro hg
    obtain ⟨s,hs,hsid,hsw⟩ := (locks_group_some _).mp hg
    rw [IdTable.eq_of_rowId hs hq' (hsid.trans hid.symm)] at hsw
    simp [JobQueue.lockedBy,hn] at hsw
  rw [Statement.locks_run,R.effect] at hafter
  by_cases hg : q.id ∈ (if R.queued then
      selectedQueues db (heldQueueOf w (db.jobs.rows.filter R.p)) else ∅)
  · cases hqd : R.queued with
    | false => simp [hqd] at hg
    | true =>
      rw [hqd] at hg
      exact (mem_heldQueueOf hg).2
  · exact absurd (Locks.drop_group.mpr ⟨hg,hbefore⟩) hafter

theorem lateSafe_of_completesOwn (hs : db.locks.Serial) (R : Report db c w ids) (ho : CompletesOwn db c) :
    LateSafe db c w ids where
  late hn := R.run_rows fun r hr => by
    by_contra hp
    have hp : R.p r = true := by simpa using hp
    exact hn r.id (R.listed r hp) ⟨r,hr,rfl,R.held ho r hr hp⟩
  others r hr hw := R.mem_run hr (by
    by_contra hp
    exact hw (R.held ho r hr (by simpa using hp)))
  queues q hq hl q' hq' hid hn r hr hg hlr := by
    obtain ⟨s,hsr,hp,hsg⟩ := R.unlocked_queue hq hl hq' hid hn
    obtain ⟨k,hk⟩ := Option.isSome_iff_exists.mp hlr
    have hr' : db.locks.item r.id = some (k.lockedBy,some q.id) :=
      (locks_item_some db).mpr ⟨r,hr,rfl,hg,k,hk,rfl⟩
    have hs' := locks_item_row hsr (R.held ho s hsr hp)
    rw [hsg] at hs'
    rw [hs.single hr' hs']
    exact R.listed s hp

theorem completesOwn_of_others (hc : st.reports = some (w,ids))
    (h : ∀ r ∈ db.jobs.rows, r.lockedBy ≠ some w → r ∈ (st.run db now).jobs.rows) : CompletesOwn db (now,st) := by
  rintro ⟨v,is⟩ hp i hi r hr rfl
  have hcs : st.completes = some (v,is) := Option.mem_toList.mp hp
  have he : (v,is) = (w,ids) := by
    simpa [Statement.reports,hcs] using hc
  cases he
  by_contra hw
  have hmem := h r hr hw
  rw [rows_completes hcs] at hmem
  have := (List.mem_filter.mp hmem).2
  simp [hi] at this

/-- Along runs whose completions name only jobs that are gone or held by their worker, the next report
is safe exactly when it keeps to that as well. -/
theorem late_outcome_safe_iff {db₀ : Db} (h₀ : Unlocked db₀) (h : Reaches step CompletesOwn db₀ db)
    (hc : c.2.reports = some (w,ids)) : LateSafe db c w ids ↔ CompletesOwn db c := by
  obtain ⟨R⟩ : Nonempty (Report db c w ids) := report_of_reports hc
  constructor
  · intro hl
    exact completesOwn_of_others hc hl.others
  · intro ho
    exact lateSafe_of_completesOwn (reaches_serial h₀ h) R ho

def queuedJob : JobToAdd := ⟨"task",.null,{ queueName := some "q" }⟩

/-- Worker `a` claims a job and is judged dead, its job is recovered and goes to `b`. -/
def reclaimedCalls : List Call :=
  [(0,.addJob queuedJob none),(1,.getJobWithFilter "a" [1] .unrestricted),
    (2,.recoverDeadWorkerJobs ["a"] 0),(3,.getJobWithFilter "b" [1] .unrestricted)]

/-- Worker `a` claims a job and is judged dead; the job is recovered with a
delay, and `a` goes on with the next job of the queue. -/
def continuedCalls : List Call :=
  [(0,.addJobs [queuedJob,queuedJob] false none),(1,.getJobWithFilter "a" [1] .unrestricted),
    (2,.recoverDeadWorkerJobs ["a"] 1000),(3,.getJobWithFilter "a" [1] .unrestricted)]

def lateJob : Job where
  id := 1
  jobQueueId := some 1
  taskId := 1
  payload := .null
  priority := 0
  runAt := 0
  attempts := 1
  maxAttempts := 25
  lastError := none
  createdAt := 0
  updatedAt := 0
  key := none
  lock := some ⟨1,"a"⟩
  revision := 0
  flags := none

theorem late_failure_safe : Reaches step CompletesOwn Db.empty (after reclaimedCalls) ∧
    HeldBy (after reclaimedCalls) "b" 1 ∧
    LateSafe (after reclaimedCalls) (4,.failJob "a" lateJob "late" none) "a" [1] := by
  have hr : Reaches step CompletesOwn Db.empty (after reclaimedCalls) := reaches_after (by decide)
  exact ⟨hr,by decide,(late_outcome_safe_iff unlocked_empty hr rfl).mpr (by decide)⟩

/-- Worker `a` completes the row its claim returned after that row was recovered: it deletes the job under
its new holder, and unlocks a queue whose locked job is another one. -/
theorem late_completion_unsafe :
    (getJobWithFilter (after (reclaimedCalls.take 1)) [1] "a" .unrestricted 1).2 = some lateJob ∧
    (HeldBy (after reclaimedCalls) "b" 1 ∧ ¬HeldBy (after reclaimedCalls) "a" 1 ∧
      ((Statement.completeJob "a" lateJob).run (after reclaimedCalls) 4).jobs.rows = [] ∧
      ((Statement.completeJobsWithQueues "a" [1]).run (after reclaimedCalls) 4).jobs.rows = [] ∧
      ((Statement.completeJobDirect "a" ⟨1,true⟩).run (after reclaimedCalls) 4).jobs.rows = [] ∧
      ¬LateSafe (after reclaimedCalls) (4,.completeJob "a" lateJob) "a" [1]) ∧
    HeldBy (after continuedCalls) "a" 2 ∧ ¬HeldBy (after continuedCalls) "a" 1 ∧
    (after continuedCalls).jobQueues.rows.map JobQueue.lockedBy = [some "a"] ∧
    ((Statement.completeJob "a" lateJob).run (after continuedCalls) 4).jobQueues.rows.map
      JobQueue.lockedBy = [none] ∧
    HeldBy ((Statement.completeJob "a" lateJob).run (after continuedCalls) 4) "a" 2 := by
  refine ⟨rfl,⟨by decide,by decide,rfl,rfl,rfl,?_⟩,by decide,by decide,by decide,by decide,by decide⟩
  intro hl
  have hlate := hl.late (by decide)
  exact absurd (congrArg List.length hlate) (by decide)

end GraphileWorker.Database
