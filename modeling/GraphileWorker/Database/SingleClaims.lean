import GraphileWorker.Database.BatchClaim
import GraphileWorker.Database.Statement

/-! # A batch is a run of single claims

Single claims at the same instant can claim what a batch does, the least row first: a row of
the batch stands for every candidate of its queue.
-/
namespace GraphileWorker.Database
open Foundation

variable (taskIds : List TaskId) (w : WorkerId) (filter : JobFlagFilter) (now : Time)

inductive SingleResults : Db → Db → List Job → Prop
  | nil (db : Db) : SingleResults db db []
  | cons {db db₁ db' : Db} {job : Job} {rest : List Job} (h : SingleResult db taskIds w filter now db₁ (some job))
      (hrest : SingleResults db₁ db' rest) : SingleResults db db' (job :: rest)

/-- Rows that single claims can take in this order: each is the least of what is then eligible. -/
structure Leads (db : Db) (l : List Job) : Prop where
  eligible : ∀ k ∈ l, Eligible db taskIds filter now k
  sorted : l.Pairwise candidateLe
  distinct : l.Pairwise fun a b => distinctKey b ≠ distinctKey a
  covers : ∀ r, Eligible db taskIds filter now r →
    (∃ k ∈ l, distinctKey k = distinctKey r ∧ candidateLe k r) ∨ ∀ k ∈ l, candidateLe k r

variable {taskIds w filter now} {db : Db} {k r : Job} {l m : List Job}

theorem distinctKey_eq_iff : distinctKey r = distinctKey k ↔
    (r.jobQueueId = none ∧ k.jobQueueId = none ∧ r.id = k.id) ∨ ∃ g, r.jobQueueId = some g ∧ k.jobQueueId = some g := by
  cases hr : r.jobQueueId <;> cases hk : k.jobQueueId <;> simp [distinctKey,hr,hk,eq_comm]

theorem eligible_claimed (hk : k ∈ db.jobs.rows) : Eligible (claimRows db w now [k]) taskIds filter now r ↔
    Eligible db taskIds filter now r ∧ distinctKey r ≠ distinctKey k := by
  rw [ne_eq,distinctKey_eq_iff]
  constructor
  · intro h
    rcases (mem_claimRows hk).mp h.mem with rfl | ⟨hm,hid⟩
    · cases h.unlocked
    · rcases h.queue with hq | ⟨q',hq',hrq,hl⟩
      · exact ⟨⟨hm,h.unlocked,h.attempts,h.due,h.task,h.flags,.inl hq⟩,by simp [hq,hid]⟩
      · obtain ⟨q,hm',rfl⟩ := List.mem_map.mp hq'
        by_cases hsame : ([k].any fun c => c.jobQueueId == some q.id) = true
        · simp [hsame,JobQueue.claim] at hl
        · rw [if_neg hsame] at hrq hl
          refine ⟨⟨hm,h.unlocked,h.attempts,h.due,h.task,h.flags,.inr ⟨q,hm',hrq,hl⟩⟩,?_⟩
          simpa [hrq] using hsame
  · rintro ⟨h,hne⟩
    have hid : r.id ≠ k.id := by
      intro he
      obtain rfl : r = k := IdTable.eq_of_rowId h.mem hk he
      cases hq : r.jobQueueId <;> simp [hq] at hne
    refine ⟨(mem_claimRows hk).mpr (.inr ⟨h.mem,hid⟩),h.unlocked,h.attempts,h.due,h.task,h.flags,?_⟩
    rcases h.queue with hq | ⟨q,hm,hrq,hl⟩
    · exact .inl hq
    · refine .inr ⟨q,List.mem_map.mpr ⟨q,hm,if_neg ?_⟩,hrq,hl⟩
      simpa [hrq] using hne

theorem claimRows_cons (hl : ∀ r ∈ l, r.id ≠ k.id ∧ distinctKey r ≠ distinctKey k) :
    claimRows (claimRows db w now [k]) w now l = claimRows db w now (k :: l) := by
  have hjobs : (claimRows (claimRows db w now [k]) w now l).jobs = (claimRows db w now (k :: l)).jobs := by
    have hid := Job.rowId_claim w now
    refine IdTable.updateWhere_updateWhere _ _ _ hid hid hid fun r _ => ?_
    by_cases hr : k.id = r.id
    · have hn : (l.any fun c => c.id == r.id) = false := by simpa [← hr] using fun c hc => (hl c hc).1
      simp [hr,hn,Job.claim]
    · simp [hr]
  have hqueues : (claimRows (claimRows db w now [k]) w now l).jobQueues = (claimRows db w now (k :: l)).jobQueues := by
    have hid := JobQueue.rowId_claim w now
    refine IdTable.updateWhere_updateWhere _ _ _ hid hid hid fun q _ => ?_
    by_cases hq : k.jobQueueId = some q.id
    · have hn : (l.any fun c => c.jobQueueId == some q.id) = false := by
        simpa [distinctKey_eq_iff,hq] using fun c hc => (hl c hc).2
      simp [hq,hn,JobQueue.claim]
    · simp [hq]
  exact Db.mk.injEq .. ▸ ⟨hjobs,hqueues,rfl,rfl⟩

theorem claimRows_perm (h : l.Perm m) : claimRows db w now l = claimRows db w now m := by
  unfold claimRows
  congr 2 <;> exact funext fun _ => h.any_eq

theorem Leads.least (h : Leads taskIds filter now db (k :: l)) (hr : Eligible db taskIds filter now r) :
    candidateLe k r := by
  rcases h.covers r hr with ⟨a,ha,-,hle⟩ | hle
  · rcases List.mem_cons.mp ha with rfl | ha
    · exact hle
    · exact IsTrans.trans _ _ _ ((List.pairwise_cons.mp h.sorted).1 a ha) hle
  · exact hle k List.mem_cons_self

theorem Leads.tail (h : Leads taskIds filter now db (k :: l)) :
    Leads taskIds filter now (claimRows db w now [k]) l where
  eligible r hr := (eligible_claimed (h.eligible k List.mem_cons_self).mem).mpr
    ⟨h.eligible r (List.mem_cons_of_mem k hr),(List.pairwise_cons.mp h.distinct).1 r hr⟩
  sorted := (List.pairwise_cons.mp h.sorted).2
  distinct := (List.pairwise_cons.mp h.distinct).2
  covers r hr := by
    obtain ⟨hr,hne⟩ := (eligible_claimed (h.eligible k List.mem_cons_self).mem).mp hr
    rcases h.covers r hr with ⟨a,ha,hkey,hle⟩ | hle
    · rcases List.mem_cons.mp ha with rfl | ha
      · exact absurd hkey.symm hne
      · exact .inl ⟨a,ha,hkey,hle⟩
    · exact .inr fun a ha => hle a (List.mem_cons_of_mem k ha)

theorem Leads.singleResults (h : Leads taskIds filter now db l) :
    SingleResults taskIds w filter now db (claimRows db w now l) (l.map (Job.claim w now)) := by
  induction l generalizing db with
  | nil =>
    rw [claimRows_nil]
    exact .nil db
  | cons k l ih =>
    have hk := h.eligible k List.mem_cons_self
    have hone : SingleResult db taskIds w filter now (claimRows db w now [k]) (some (k.claim w now)) :=
      ⟨[k],orderLimit_one (mem_eligibleRows.mpr hk) fun r hr => h.least (mem_eligibleRows.mp hr),rfl,rfl⟩
    have hl : ∀ r ∈ l, r.id ≠ k.id ∧ distinctKey r ≠ distinctKey k := by
      intro r hr
      have hne := (List.pairwise_cons.mp h.distinct).1 r hr
      refine ⟨fun hid => hne ?_,hne⟩
      rw [IdTable.eq_of_rowId (h.eligible r (List.mem_cons_of_mem k hr)).mem hk.mem hid]
    rw [← claimRows_cons hl]
    exact .cons hone (ih h.tail)

/-- Every result of a batch claim is, up to the order, a result of single claims made one after another. -/
theorem batch_is_single_claims {n : ℕ} {db' : Db} {jobs : List Job}
    (h : BatchResult db taskIds w filter n now db' jobs) :
    ∃ single, jobs.Perm single ∧ SingleResults taskIds w filter now db db' single := by
  obtain ⟨c,hc,rfl,hp⟩ := h
  have hperm := List.perm_insertionSort candidateLe (onePerQueue c)
  have hlead : Leads taskIds filter now db ((onePerQueue c).insertionSort candidateLe) := by
    refine ⟨fun k hk => ?_,List.pairwise_insertionSort candidateLe _,?_,fun r hr => ?_⟩
    · exact mem_eligibleRows.mp (hc.mem (mem_of_mem_onePerQueue (hperm.mem_iff.mp hk)))
    · have hn := (hperm.map distinctKey).nodup_iff.mpr (nodup_distinctOn distinctKey _)
      exact (List.pairwise_map.mp hn).imp Ne.symm
    · by_cases hrc : r ∈ c
      · obtain ⟨a,ha,hkey,hle⟩ := exists_onePerQueue hrc
        refine .inl ⟨a,hperm.mem_iff.mpr ha,hkey,?_⟩
        exact candidateLe_of_key hkey hle
      · exact .inr fun k hk =>
          hc.le_of_not_mem (mem_of_mem_onePerQueue (hperm.mem_iff.mp hk)) (mem_eligibleRows.mpr hr) hrc
  refine ⟨_,hp.trans (hperm.symm.map _),?_⟩
  rw [← claimRows_perm hperm]
  exact hlead.singleResults

def twoInQueue : Db :=
  after [(0,.addJob ⟨"task",.null,{ queueName := some "q" }⟩ none),
    (1,.addJob ⟨"task",.null,{ queueName := some "q" }⟩ none)]

theorem queue_claimed_singly : ∃ single, (batchGetJobsWithFilter twoInQueue [1] "a" .unrestricted 2 2).2.Perm single ∧
    SingleResults [1] "a" .unrestricted 2 twoInQueue (batchGetJobsWithFilter twoInQueue [1] "a" .unrestricted 2 2).1
      single ∧ single.length = 1 := by
  obtain ⟨single,hperm,hsingle⟩ := batch_is_single_claims (batchResult_batchGetJobsWithFilter (n := 2))
  exact ⟨single,hperm,hsingle,hperm.length_eq.symm⟩

end GraphileWorker.Database
