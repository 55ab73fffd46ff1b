import GraphileWorker.Database.FlagFilter
import GraphileWorker.Foundation.DistinctOn

/-! # Claiming jobs

`get_job_with_filter` and `batch_get_jobs_with_filter`. A statement is one atomic step, so no row
is skipped as locked. Rows that the `ORDER BY` does not separate keep their table order.
-/
namespace GraphileWorker.Database
open Foundation

/-- The job part of `UPDATE ... SET attempts = attempts + 1, locked_by, locked_at`. -/
def Job.claim (w : WorkerId) (now : Time) (r : Job) : Job :=
  { r with attempts := r.attempts + 1, lock := some ⟨now,w⟩ }

theorem Job.rowId_claim (w : WorkerId) (now : Time) (r : Job) : rowId (r.claim w now) = rowId r := rfl

def JobQueue.claim (w : WorkerId) (now : Time) (q : JobQueue) : JobQueue :=
  { q with lock := some ⟨now,w⟩ }

theorem JobQueue.rowId_claim (w : WorkerId) (now : Time) (q : JobQueue) :
    rowId (q.claim w now) = rowId q := rfl

/-- `get_queue_clause`: unnamed, or in a queue that is available. -/
def queueClause (db : Db) (r : Job) : Bool :=
  match r.jobQueueId with
  | none => true
  | some g => db.jobQueues.rows.any fun q => q.id == g && q.isAvailable

def eligible (db : Db) (taskIds : List TaskId) (filter : JobFlagFilter) (now : Time) (r : Job) : Bool :=
  r.isAvailable && decide (r.runAt ≤ now) && taskIds.contains r.taskId && queueClause db r &&
    filter.accepts r.flags

/-- `order by priority asc, run_at asc`. -/
def candidateLe (a b : Job) : Prop := a.priority < b.priority ∨ (a.priority = b.priority ∧ a.runAt ≤ b.runAt)

instance : DecidableRel candidateLe := fun a b =>
  inferInstanceAs (Decidable (a.priority < b.priority ∨ (a.priority = b.priority ∧ a.runAt ≤ b.runAt)))

def candidates (db : Db) (taskIds : List TaskId) (filter : JobFlagFilter) (now : Time)
    (limit : ℕ) : List Job :=
  ((db.jobs.rows.filter (eligible db taskIds filter now)).insertionSort candidateLe).take limit

/-- `(job_queue_id, case when job_queue_id is null then id end)`. -/
def distinctKey (r : Job) : Option QueueId × Option JobId :=
  (r.jobQueueId,if r.jobQueueId.isNone then some r.id else none)

/-- Ascending order puts NULL last. -/
def compareNullsLast : Option ℕ → Option ℕ → Ordering
  | none, none => .eq
  | none, some _ => .gt
  | some _, none => .lt
  | some a, some b => compare a b

/-- The `ORDER BY` of the `DISTINCT ON` query. -/
def distinctLe (a b : Job) : Prop :=
  ((compareNullsLast a.jobQueueId b.jobQueueId).then
    ((compareNullsLast (distinctKey a).2 (distinctKey b).2).then
      ((compare a.priority b.priority).then
        ((compare a.runAt b.runAt).then (compare a.id b.id))))).isLE = true

instance : DecidableRel distinctLe := fun _ _ => inferInstanceAs (Decidable (_ = true))

def batchRows (db : Db) (taskIds : List TaskId) (filter : JobFlagFilter) (batchSize : ℕ)
    (now : Time) : List Job :=
  distinctOn distinctKey ((candidates db taskIds filter now batchSize).insertionSort distinctLe)

def claimRows (db : Db) (w : WorkerId) (now : Time) (j : List Job) : Db :=
  { db with
    jobs := db.jobs.updateWhere (fun r => j.any fun c => c.id == r.id) (Job.claim w now) (Job.rowId_claim w now)
    jobQueues := db.jobQueues.updateWhere (fun q => j.any fun c => c.jobQueueId == some q.id)
      (JobQueue.claim w now) (JobQueue.rowId_claim w now) }

def getJobWithFilter (db : Db) (taskIds : List TaskId) (w : WorkerId) (filter : JobFlagFilter)
    (now : Time) : Db × Option Job :=
  let j := candidates db taskIds filter now 1
  (claimRows db w now j,(j.map (Job.claim w now)).head?)

def batchGetJobsWithFilter (db : Db) (taskIds : List TaskId) (w : WorkerId) (filter : JobFlagFilter)
    (batchSize : ℕ) (now : Time) : Db × List Job :=
  let j := batchRows db taskIds filter batchSize now
  (claimRows db w now j,j.map (Job.claim w now))

variable {db : Db} {taskIds : List TaskId} {filter : JobFlagFilter} {now : Time} {w : WorkerId} {r : Job}
  {j : List Job}

theorem mem_candidates {limit : ℕ} (h : r ∈ candidates db taskIds filter now limit) :
    r ∈ db.jobs.rows ∧ eligible db taskIds filter now r = true := by
  have hs := List.mem_of_mem_take h
  rw [List.mem_insertionSort] at hs
  exact List.mem_filter.mp hs

theorem mem_batchRows {n : ℕ} (h : r ∈ batchRows db taskIds filter n now) :
    r ∈ db.jobs.rows ∧ eligible db taskIds filter now r = true := by
  have hs := mem_of_mem_distinctOn _ h
  rw [List.mem_insertionSort] at hs
  exact mem_candidates hs

theorem length_batchGetJobsWithFilter (n : ℕ) : (batchGetJobsWithFilter db taskIds w filter n now).2.length ≤ n :=
  calc (batchGetJobsWithFilter db taskIds w filter n now).2.length
      = (batchRows db taskIds filter n now).length := List.length_map _
    _ ≤ ((candidates db taskIds filter now n).insertionSort distinctLe).length :=
      (distinctOn_sublist _ _).length_le
    _ = (candidates db taskIds filter now n).length := List.length_insertionSort _ _
    _ ≤ n := List.length_take_le _ _

instance : Std.TransCmp compareNullsLast where
  eq_swap {a b} := by
    cases a with
    | none => cases b <;> rfl
    | some m =>
      cases b with
      | none => rfl
      | some n => exact @Std.OrientedCmp.eq_swap ℕ compare _ m n
  isLE_trans {a b c} hab hbc := by
    cases c with
    | none => cases a <;> rfl
    | some k =>
      cases b with
      | none => cases hbc
      | some n =>
        cases a with
        | none => cases hab
        | some m => exact @Std.TransCmp.isLE_trans ℕ compare _ m n k hab hbc

def distinctCmp : Job → Job → Ordering :=
  compareLex (fun a b => compareNullsLast a.jobQueueId b.jobQueueId)
    (compareLex (fun a b => compareNullsLast (distinctKey a).2 (distinctKey b).2)
      (compareLex (compareOn Job.priority) (compareLex (compareOn Job.runAt) (compareOn Job.id))))

instance comap_compareNullsLast (f : Job → Option ℕ) : Std.TransCmp fun a b => compareNullsLast (f a) (f b) where
  eq_swap {a b} := @Std.OrientedCmp.eq_swap _ compareNullsLast _ (f a) (f b)
  isLE_trans {a b c} := @Std.TransCmp.isLE_trans _ compareNullsLast _ (f a) (f b) (f c)

instance : Std.TransCmp distinctCmp := by
  unfold distinctCmp
  infer_instance

instance : Std.Total distinctLe where
  total a b := by
    have h := @Std.OrientedCmp.eq_swap _ distinctCmp _ a b
    show (distinctCmp a b).isLE = true ∨ (distinctCmp b a).isLE = true
    rw [h]
    cases distinctCmp b a <;> simp

instance : IsTrans Job distinctLe where
  trans := @Std.TransCmp.isLE_trans _ distinctCmp _

theorem eligible_lock (h : eligible db taskIds filter now r = true) : r.lock = none := by
  simp only [eligible,Job.isAvailable,Bool.and_eq_true] at h
  simpa using h.1.1.1.1.1

theorem eligible_queue {g : QueueId} (h : eligible db taskIds filter now r = true)
    (hg : r.jobQueueId = some g) : ∃ q ∈ db.jobQueues.rows, q.id = g ∧ q.lock = none := by
  simp only [eligible,Bool.and_eq_true] at h
  have hc := h.1.2
  simp only [queueClause,hg,List.any_eq_true,Bool.and_eq_true,beq_iff_eq,JobQueue.isAvailable,
    Option.isNone_iff_eq_none] at hc
  exact hc

/-- What the set of rows to claim must satisfy for the locks to be taken cleanly. -/
structure Selection (db : Db) (j : List Job) : Prop where
  mem : ∀ r ∈ j, r ∈ db.jobs.rows
  unlocked : ∀ r ∈ j, r.lock = none
  queue : ∀ r ∈ j, ∀ g, r.jobQueueId = some g → ∃ q ∈ db.jobQueues.rows, q.id = g ∧ q.lock = none
  distinct : ∀ r ∈ j, ∀ s ∈ j, ∀ g, r.jobQueueId = some g → s.jobQueueId = some g → r = s

theorem selection_candidates_one : Selection db (candidates db taskIds filter now 1) where
  mem r hr := (mem_candidates hr).1
  unlocked r hr := eligible_lock (mem_candidates hr).2
  queue r hr _ hg := eligible_queue (mem_candidates hr).2 hg
  distinct := by
    have hl : (candidates db taskIds filter now 1).length ≤ 1 := List.length_take_le _ _
    intro r hr s hs _ _ _
    match hc : candidates db taskIds filter now 1 with
    | [] => simp [hc] at hr
    | [c] =>
      rw [hc] at hr hs
      exact (List.mem_singleton.mp hr).trans (List.mem_singleton.mp hs).symm
    | _ :: _ :: _ => simp [hc] at hl

theorem selection_batchRows (n : ℕ) : Selection db (batchRows db taskIds filter n now) where
  mem r hr := (mem_batchRows hr).1
  unlocked r hr := eligible_lock (mem_batchRows hr).2
  queue r hr _ hg := eligible_queue (mem_batchRows hr).2 hg
  distinct := by
    intro r hr s hs g hg hg'
    exact eq_of_mem_distinctOn _ hr hs (by simp [distinctKey,hg,hg'])

theorem claimRows_nil : claimRows db w now [] = db := by
  cases db
  simp [claimRows,IdTable.updateWhere]

theorem mem_claimRows {x : Job} (hr : r ∈ db.jobs.rows) :
    x ∈ (claimRows db w now [r]).jobs.rows ↔ x = r.claim w now ∨ (x ∈ db.jobs.rows ∧ x.id ≠ r.id) := by
  constructor
  · intro hx
    obtain ⟨y,hy,rfl⟩ := List.mem_map.mp hx
    by_cases he : r.id = y.id
    · obtain rfl : r = y := IdTable.eq_of_rowId hr hy he
      exact .inl (by simp)
    · refine .inr ?_
      have hc : ¬([r].any fun c => c.id == y.id) = true := by simp [he]
      rw [if_neg hc]
      exact ⟨hy,Ne.symm he⟩
  · rintro (rfl | ⟨hx,hne⟩)
    · exact List.mem_map.mpr ⟨r,hr,by simp⟩
    · refine List.mem_map.mpr ⟨x,hx,?_⟩
      have hc : ¬([r].any fun c => c.id == x.id) = true := by simp [Ne.symm hne]
      rw [if_neg hc]

def claimed (j : List Job) (i : JobId) : Option (Option QueueId) :=
  (j.find? fun c => c.id == i).map Job.jobQueueId

theorem claimed_some {i : JobId} {g : Option QueueId} (h : claimed j i = some g) :
    ∃ r ∈ j, r.id = i ∧ r.jobQueueId = g := by
  obtain ⟨r,hr,hg⟩ := Option.map_eq_some_iff.mp h
  exact ⟨r,List.mem_of_find?_eq_some hr,by simpa using List.find?_some hr,hg⟩

theorem Selection.claimed_eq (h : Selection db j) (hr : r ∈ j) : claimed j r.id = some r.jobQueueId := by
  cases hc : j.find? (fun c => c.id == r.id) with
  | none =>
    have := List.find?_eq_none.mp hc r hr
    simp at this
  | some s =>
    have hs : s.id = r.id := by simpa using List.find?_some hc
    have he : s = r :=
      IdTable.eq_of_rowId (h.mem s (List.mem_of_find?_eq_some hc)) (h.mem r hr) hs
    simp [claimed,hc,he]

theorem Selection.claimable (h : Selection db j) : db.locks.Claimable (claimed j) where
  free := by
    intro i g hc
    obtain ⟨r,hr,rfl,_⟩ := claimed_some hc
    have hf : db.jobs.find r.id = some r := find_job.mpr ⟨h.mem r hr,rfl⟩
    simp [Db.locks,hf,Job.held,h.unlocked r hr]
  idle := by
    intro i g hc
    obtain ⟨r,hr,_,hg⟩ := claimed_some hc
    obtain ⟨q,hq,rfl,hl⟩ := h.queue r hr g hg
    have hf : db.jobQueues.find q.id = some q := find_queue.mpr ⟨hq,rfl⟩
    simp [Db.locks,hf,JobQueue.lockedBy,hl]
  distinct := by
    intro i i' g hc hc'
    obtain ⟨r,hr,rfl,hg⟩ := claimed_some hc
    obtain ⟨s,hs,rfl,hg'⟩ := claimed_some hc'
    rw [h.distinct r hr s hs g hg hg']

theorem Selection.locks_claimRows (h : Selection db j) :
    (claimRows db w now j).locks = db.locks.claim w (claimed j) := by
  ext1
  · funext i
    simp only [Db.locks,claimRows,Locks.claim,IdTable.find_updateWhere]
    cases hf : db.jobs.find i with
    | none =>
      cases hc : claimed j i with
      | none => rfl
      | some g =>
        obtain ⟨r,hr,rfl,_⟩ := claimed_some hc
        exact absurd (hf.symm.trans (find_job.mpr ⟨h.mem r hr,rfl⟩)) (by simp)
    | some r =>
      obtain ⟨hr,rfl⟩ := find_job.mp hf
      by_cases hj : r ∈ j
      · have ha : (j.any fun c => c.id == r.id) = true := List.any_eq_true.mpr ⟨r,hj,by simp⟩
        simp only [h.claimed_eq hj,Option.map_some,Option.bind_some,if_pos ha,Job.claim,Job.held]
      · have ha : ¬(j.any fun c => c.id == r.id) = true := by
          intro ha
          obtain ⟨c,hc,he⟩ := List.any_eq_true.mp ha
          rw [IdTable.eq_of_rowId (h.mem c hc) hr (by simpa using he)] at hc
          exact hj hc
        have hc : claimed j r.id = none := by
          cases hc : claimed j r.id with
          | none => rfl
          | some g =>
            obtain ⟨c,hc,he,_⟩ := claimed_some hc
            exact absurd (List.any_eq_true.mpr ⟨c,hc,by simp [he]⟩) ha
        simp only [hc,Option.map_some,Option.bind_some,if_neg ha]
  · funext g
    simp only [Db.locks,claimRows,Locks.claim,IdTable.find_updateWhere]
    cases hf : db.jobQueues.find g with
    | none =>
      have hn : ¬∃ i, claimed j i = some (some g) := by
        rintro ⟨i,hc⟩
        obtain ⟨r,hr,_,hg⟩ := claimed_some hc
        obtain ⟨q,hq,rfl,_⟩ := h.queue r hr g hg
        exact absurd (hf.symm.trans (find_queue.mpr ⟨hq,rfl⟩)) (by simp)
      simp [hn]
    | some q =>
      obtain ⟨hq,rfl⟩ := find_queue.mp hf
      by_cases hc : ∃ i, claimed j i = some (some q.id)
      · obtain ⟨i,hi⟩ := hc
        obtain ⟨r,hr,_,hg⟩ := claimed_some hi
        have ha : (j.any fun c => c.jobQueueId == some q.id) = true :=
          List.any_eq_true.mpr ⟨r,hr,by simp [hg]⟩
        rw [if_pos ⟨i,hi⟩]
        simp only [Option.map_some,Option.bind_some,if_pos ha,JobQueue.claim,JobQueue.lockedBy]
      · have ha : ¬(j.any fun c => c.jobQueueId == some q.id) = true := by
          intro ha
          obtain ⟨c,hcj,he⟩ := List.any_eq_true.mp ha
          exact hc ⟨c.id,(h.claimed_eq hcj).trans (by simpa using he)⟩
        rw [if_neg hc]
        simp only [Option.map_some,Option.bind_some,if_neg ha]

end GraphileWorker.Database
