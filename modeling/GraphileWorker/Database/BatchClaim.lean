import GraphileWorker.Database.Claim
import GraphileWorker.Foundation.OrderLimit
import Mathlib.Data.Int.Order.Basic

/-! # What a batch claims

The order of rows of one priority and time is open, and so is that of the rows an `UPDATE`
returns. So the results are relations, of which the functions of the model give one each.
-/
namespace GraphileWorker.Database
open Foundation

variable {db : Db} {taskIds : List TaskId} {filter : JobFlagFilter} {now : Time} {w : WorkerId} {n : ℕ} {l : List Job}

def eligibleRows (db : Db) (taskIds : List TaskId) (filter : JobFlagFilter) (now : Time) : List Job :=
  db.jobs.rows.filter (eligible db taskIds filter now)

def onePerQueue (c : List Job) : List Job := distinctOn distinctKey (c.insertionSort distinctLe)

/-- The results of `batch_get_jobs_with_filter`. -/
def BatchResult (db : Db) (taskIds : List TaskId) (w : WorkerId) (filter : JobFlagFilter) (n : ℕ) (now : Time)
    (db' : Db) (jobs : List Job) : Prop :=
  ∃ c, OrderLimit candidateLe n (eligibleRows db taskIds filter now) c ∧
    db' = claimRows db w now (onePerQueue c) ∧ jobs.Perm ((onePerQueue c).map (Job.claim w now))

def SingleResult (db : Db) (taskIds : List TaskId) (w : WorkerId) (filter : JobFlagFilter) (now : Time)
    (db' : Db) (job : Option Job) : Prop :=
  ∃ c, OrderLimit candidateLe 1 (eligibleRows db taskIds filter now) c ∧
    db' = claimRows db w now c ∧ job = (c.map (Job.claim w now)).head?

instance : Std.Total candidateLe where
  total a b := by
    unfold candidateLe
    have := lt_trichotomy a.priority b.priority
    have := le_total a.runAt b.runAt
    grind

instance : IsTrans Job candidateLe where
  trans a b c hab hbc := by
    unfold candidateLe at *
    grind

theorem batchResult_batchGetJobsWithFilter : BatchResult db taskIds w filter n now
    (batchGetJobsWithFilter db taskIds w filter n now).1 (batchGetJobsWithFilter db taskIds w filter n now).2 :=
  ⟨candidates db taskIds filter now n,orderLimit_insertionSort n _,rfl,List.Perm.refl _⟩

theorem singleResult_getJobWithFilter : SingleResult db taskIds w filter now
    (getJobWithFilter db taskIds w filter now).1 (getJobWithFilter db taskIds w filter now).2 :=
  ⟨candidates db taskIds filter now 1,orderLimit_insertionSort 1 _,rfl,rfl⟩

structure Eligible (db : Db) (taskIds : List TaskId) (filter : JobFlagFilter) (now : Time) (r : Job) : Prop where
  mem : r ∈ db.jobs.rows
  unlocked : r.lock = none
  attempts : r.attempts < r.maxAttempts
  due : r.runAt ≤ now
  task : r.taskId ∈ taskIds
  flags : filter.accepts r.flags = true
  queue : r.jobQueueId = none ∨ ∃ q ∈ db.jobQueues.rows, r.jobQueueId = some q.id ∧ q.lock = none

theorem queueClause_iff {r : Job} : queueClause db r = true ↔
    r.jobQueueId = none ∨ ∃ q ∈ db.jobQueues.rows, r.jobQueueId = some q.id ∧ q.lock = none := by
  unfold queueClause
  cases hq : r.jobQueueId with
  | none => simp
  | some g =>
    simp only [List.any_eq_true,Bool.and_eq_true,beq_iff_eq,JobQueue.isAvailable,Option.isNone_iff_eq_none,
      reduceCtorEq,false_or,Option.some.injEq]
    exact exists_congr fun q => and_congr_right fun _ => and_congr_left fun _ => eq_comm

theorem mem_eligibleRows {r : Job} : r ∈ eligibleRows db taskIds filter now ↔ Eligible db taskIds filter now r := by
  have he : eligible db taskIds filter now r = true ↔ (r.lock = none ∧ r.attempts < r.maxAttempts) ∧ r.runAt ≤ now ∧
      r.taskId ∈ taskIds ∧ queueClause db r = true ∧ filter.accepts r.flags = true := by
    simp [eligible,Job.isAvailable,and_assoc]
  rw [eligibleRows,List.mem_filter,he,queueClause_iff]
  constructor
  · rintro ⟨hm,⟨hl,ha⟩,hd,ht,hq,hf⟩
    exact ⟨hm,hl,ha,hd,ht,hf,hq⟩
  · rintro ⟨hm,hl,ha,hd,ht,hf,hq⟩
    exact ⟨hm,⟨hl,ha⟩,hd,ht,hq,hf⟩

theorem nodup_eligibleRows : (eligibleRows db taskIds filter now).Nodup :=
  (List.Nodup.of_map rowId db.jobs.nodup).sublist List.filter_sublist

def Job.Before (a b : Job) : Prop := a.priority < b.priority ∨ (a.priority = b.priority ∧ a.runAt < b.runAt)

def Job.NotAfter (a b : Job) : Prop :=
  a.priority < b.priority ∨ (a.priority = b.priority ∧ (a.runAt < b.runAt ∨ (a.runAt = b.runAt ∧ a.id ≤ b.id)))

theorem not_before_of_candidateLe {a b : Job} (h : candidateLe a b) : ¬b.Before a := by
  unfold candidateLe at h
  unfold Job.Before
  grind

theorem distinctLe_iff {a b : Job} {g : QueueId} (ha : a.jobQueueId = some g) (hb : b.jobQueueId = some g) :
    distinctLe a b ↔ a.NotAfter b := by
  have hkeys : compareNullsLast a.jobQueueId b.jobQueueId = .eq ∧
      compareNullsLast (distinctKey a).2 (distinctKey b).2 = .eq := by
    simp [distinctKey,ha,hb,compareNullsLast]
  unfold distinctLe Job.NotAfter
  rw [hkeys.1,hkeys.2]
  simp only [Ordering.eq_then,Ordering.isLE_then_iff_or,compare_lt_iff_lt,compare_eq_iff_eq,Nat.isLE_compare]

theorem Job.NotAfter.id_eq {a b : Job} (h : a.NotAfter b) (h' : b.NotAfter a) : a.id = b.id := by
  unfold Job.NotAfter at h h'
  grind

section
variable {c : List Job}

theorem exists_onePerQueue {s : Job} (hs : s ∈ c) :
    ∃ a ∈ onePerQueue c, distinctKey a = distinctKey s ∧ (a = s ∨ distinctLe a s) := by
  have hm : s ∈ c.insertionSort distinctLe := (List.mem_insertionSort distinctLe).mpr hs
  exact exists_mem_distinctOn distinctKey (List.pairwise_insertionSort distinctLe c) hm

theorem candidateLe_of_key {k r : Job} (hkey : distinctKey k = distinctKey r) (h : k = r ∨ distinctLe k r) :
    candidateLe k r := by
  rcases h with rfl | h
  · exact (Std.Total.total k k).elim id id
  have hself : ∀ o, compareNullsLast o o = .eq := fun o => by cases o <;> simp [compareNullsLast]
  have hq : k.jobQueueId = r.jobQueueId := congrArg Prod.fst hkey
  unfold distinctLe at h
  rw [hq,hkey,hself,hself] at h
  simp only [Ordering.eq_then,Ordering.isLE_then_iff_or,compare_lt_iff_lt,compare_eq_iff_eq] at h
  unfold candidateLe
  grind

theorem mem_of_mem_onePerQueue {r : Job} (h : r ∈ onePerQueue c) : r ∈ c :=
  (List.mem_insertionSort distinctLe).mp (mem_of_mem_distinctOn distinctKey h)

theorem mem_onePerQueue_iff (hid : ∀ r ∈ c, ∀ s ∈ c, r.id = s.id → r = s) {r : Job} : r ∈ onePerQueue c ↔
    r ∈ c ∧ (r.jobQueueId = none ∨
      ∃ g, r.jobQueueId = some g ∧ ∀ s ∈ c, s.jobQueueId = some g → r.NotAfter s) := by
  constructor
  · intro hr
    refine ⟨mem_of_mem_onePerQueue hr,?_⟩
    cases hg : r.jobQueueId with
    | none => exact .inl rfl
    | some g =>
      refine .inr ⟨g,rfl,fun s hs hsg => ?_⟩
      obtain ⟨a,ha,hk,hle⟩ := exists_onePerQueue hs
      have har : a = r := eq_of_mem_distinctOn distinctKey ha hr (hk.trans (by simp [distinctKey,hg,hsg]))
      subst har
      rcases hle with rfl | hle
      · exact .inr ⟨rfl,.inr ⟨rfl,Nat.le_refl _⟩⟩
      · exact (distinctLe_iff hg hsg).mp hle
  · rintro ⟨hr,hq⟩
    obtain ⟨a,ha,hk,hle⟩ := exists_onePerQueue hr
    have hac : a ∈ c := mem_of_mem_onePerQueue ha
    have haq : a.jobQueueId = r.jobQueueId := congrArg Prod.fst hk
    have hida : a.id = r.id := by
      rcases hq with hq | ⟨g,hg,hleast⟩
      · have h₂ : (distinctKey a).2 = (distinctKey r).2 := congrArg Prod.snd hk
        simpa [distinctKey,haq,hq] using h₂
      · rcases hle with rfl | hle
        · rfl
        · exact ((distinctLe_iff (haq.trans hg) hg).mp hle).id_eq (hleast a hac (haq.trans hg))
    rw [← hid a hac r hr hida]
    exact ha

end

structure Claims (db : Db) (w : WorkerId) (now : Time) (j : List Job) (db' : Db) : Prop where
  job : ∀ r ∈ j, db.jobs.find r.id = some r ∧
    db'.jobs.find r.id = some { r with attempts := r.attempts + 1, lock := some ⟨now,w⟩ }
  otherJobs : ∀ i, (∀ r ∈ j, r.id ≠ i) → db'.jobs.find i = db.jobs.find i
  queue : ∀ r ∈ j, ∀ g, r.jobQueueId = some g → ∃ q, db.jobQueues.find g = some q ∧
    db'.jobQueues.find g = some { q with lock := some ⟨now,w⟩ }
  otherQueues : ∀ g, (∀ r ∈ j, r.jobQueueId ≠ some g) → db'.jobQueues.find g = db.jobQueues.find g
  tasks : db'.tasks = db.tasks
  jobRetirements : db'.jobRetirements = db.jobRetirements
  sequences : db'.jobs.next = db.jobs.next ∧ db'.jobQueues.next = db.jobQueues.next

theorem claims_claimRows {j : List Job} (hj : ∀ r ∈ j, Eligible db taskIds filter now r) :
    Claims db w now j (claimRows db w now j) where
  job r hr := by
    have hf : db.jobs.find r.id = some r := find_job.mpr ⟨(hj r hr).mem,rfl⟩
    have ha : (j.any fun c => c.id == r.id) = true := List.any_eq_true.mpr ⟨r,hr,by simp⟩
    refine ⟨hf,?_⟩
    simp only [claimRows,IdTable.find_updateWhere,hf,Option.map_some,if_pos ha]
    rfl
  otherJobs i hi := by
    simp only [claimRows,IdTable.find_updateWhere]
    cases hf : db.jobs.find i with
    | none => rfl
    | some s =>
      have hs : s.id = i := (find_job.mp hf).2
      have ha : ¬(j.any fun c => c.id == s.id) = true := by simpa [hs] using hi
      rw [Option.map_some,if_neg ha]
  queue r hr g hg := by
    obtain ⟨q,hq,hqg,-⟩ := ((hj r hr).queue).resolve_left (by simp [hg])
    cases Option.some.inj (hg.symm.trans hqg)
    have hf : db.jobQueues.find q.id = some q := find_queue.mpr ⟨hq,rfl⟩
    have ha : (j.any fun c => c.jobQueueId == some q.id) = true := List.any_eq_true.mpr ⟨r,hr,by simp [hg]⟩
    refine ⟨q,hf,?_⟩
    simp only [claimRows,IdTable.find_updateWhere,hf,Option.map_some,if_pos ha]
    rfl
  otherQueues g hg := by
    simp only [claimRows,IdTable.find_updateWhere]
    cases hf : db.jobQueues.find g with
    | none => rfl
    | some q =>
      have hq : q.id = g := (find_queue.mp hf).2
      have ha : ¬(j.any fun c => c.jobQueueId == some q.id) = true := by simpa [hq] using hg
      rw [Option.map_some,if_neg ha]
  tasks := rfl
  jobRetirements := rfl
  sequences := ⟨rfl,rfl⟩

theorem eq_nil_or_singleton (h : l.length ≤ 1) : l = [] ∨ ∃ r, l = [r] := by
  cases l with
  | nil => exact .inl rfl
  | cons r rest =>
    have hrest : rest.length = 0 := by simpa using h
    exact .inr ⟨r,by rw [List.length_eq_zero_iff.mp hrest]⟩

theorem onePerQueue_of_length {c : List Job} (h : c.length ≤ 1) : onePerQueue c = c := by
  rcases eq_nil_or_singleton h with rfl | ⟨r,rfl⟩
  · rfl
  · rfl

theorem toList_head_of_length (h : l.length ≤ 1) : l.head?.toList = l := by
  rcases eq_nil_or_singleton h with rfl | ⟨r,rfl⟩
  · rfl
  · rfl

theorem eq_of_perm_of_length {m : List Job} (h : l.Perm m) (hm : m.length ≤ 1) : l = m := by
  rcases eq_nil_or_singleton hm with rfl | ⟨r,rfl⟩
  · exact h.eq_nil
  · exact h.eq_singleton

theorem batchResult_one_iff {db' : Db} {jobs : List Job} : BatchResult db taskIds w filter 1 now db' jobs ↔
    ∃ job, SingleResult db taskIds w filter now db' job ∧ jobs = job.toList := by
  constructor
  · rintro ⟨c,hc,hdb,hp⟩
    have hlen : c.length ≤ 1 := hc.length_eq ▸ Nat.min_le_left _ _
    rw [onePerQueue_of_length hlen] at hdb hp
    refine ⟨_,⟨c,hc,hdb,rfl⟩,?_⟩
    rw [toList_head_of_length (by rwa [List.length_map])]
    exact eq_of_perm_of_length hp (by rwa [List.length_map])
  · rintro ⟨job,⟨c,hc,hdb,rfl⟩,rfl⟩
    have hlen : c.length ≤ 1 := hc.length_eq ▸ Nat.min_le_left _ _
    refine ⟨c,hc,?_,?_⟩
    · rw [onePerQueue_of_length hlen]
      exact hdb
    · rw [onePerQueue_of_length hlen,toList_head_of_length (by rwa [List.length_map])]

/-- The claimed jobs are the unnamed candidates and the least of each named queue, no eligible job comes
before a candidate, and the tables change by the claim only. -/
theorem batch_claims_exactly (db : Db) (taskIds : List TaskId) (w : WorkerId) (filter : JobFlagFilter) (n : ℕ)
    (now : Time) :
    BatchResult db taskIds w filter n now (batchGetJobsWithFilter db taskIds w filter n now).1
      (batchGetJobsWithFilter db taskIds w filter n now).2 ∧
    SingleResult db taskIds w filter now (getJobWithFilter db taskIds w filter now).1
      (getJobWithFilter db taskIds w filter now).2 ∧
    (∀ db' jobs, BatchResult db taskIds w filter n now db' jobs →
      ∃ E S claimed : List Job, E.Nodup ∧ (∀ r, r ∈ E ↔ Eligible db taskIds filter now r) ∧
        S.Nodup ∧ (∀ r ∈ S, r ∈ E) ∧ S.length = min n E.length ∧
        (∀ r ∈ E, r ∉ S → ∀ s ∈ S, ¬r.Before s) ∧
        (∀ r, r ∈ claimed ↔ r ∈ S ∧ (r.jobQueueId = none ∨
          ∃ g, r.jobQueueId = some g ∧ ∀ s ∈ S, s.jobQueueId = some g → r.NotAfter s)) ∧
        Claims db w now claimed db' ∧ jobs.Perm (claimed.map (Job.claim w now))) ∧
    (∀ db' jobs, BatchResult db taskIds w filter 1 now db' jobs ↔
      ∃ job, SingleResult db taskIds w filter now db' job ∧ jobs = job.toList) := by
  refine ⟨batchResult_batchGetJobsWithFilter,singleResult_getJobWithFilter,?_,fun db' jobs => batchResult_one_iff⟩
  rintro db' jobs ⟨c,hc,rfl,hp⟩
  have hel : ∀ r ∈ c, Eligible db taskIds filter now r := fun r hr => mem_eligibleRows.mp (hc.mem hr)
  have hid : ∀ r ∈ c, ∀ s ∈ c, r.id = s.id → r = s := fun r hr s hs he =>
    IdTable.eq_of_rowId (hel r hr).mem (hel s hs).mem he
  refine ⟨eligibleRows db taskIds filter now,c,onePerQueue c,nodup_eligibleRows,fun r => mem_eligibleRows,
    hc.nodup nodup_eligibleRows,fun r hr => hc.mem hr,hc.length_eq,?_,fun r => mem_onePerQueue_iff hid,
    claims_claimRows fun r hr => hel r (mem_of_mem_onePerQueue hr),hp⟩
  intro r hr hn s hs
  exact not_before_of_candidateLe (hc.le_of_not_mem hs hr hn)

end GraphileWorker.Database
