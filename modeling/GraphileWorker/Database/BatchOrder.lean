import GraphileWorker.Database.BatchClaim

/-! # The order of a batch

With the rows of `j` returned in their order, a batch comes sorted by the keys of the
`DISTINCT ON` query.
-/
namespace GraphileWorker.Database
open Foundation

variable {db : Db} {taskIds : List TaskId} {filter : JobFlagFilter} {now : Time} {w : WorkerId} {n : ℕ}
  {rows c : List Job} {a b a' b' : Job}

/-- The results of `batch_get_jobs_with_filter` if the `UPDATE` returns the rows of `j` in their order. -/
def OrderedResult (db : Db) (taskIds : List TaskId) (w : WorkerId) (filter : JobFlagFilter) (n : ℕ) (now : Time)
    (jobs : List Job) : Prop :=
  ∃ c, OrderLimit candidateLe n (eligibleRows db taskIds filter now) c ∧ jobs = (onePerQueue c).map (Job.claim w now)

theorem orderedResult_batchGetJobsWithFilter : OrderedResult db taskIds w filter n now
    (batchGetJobsWithFilter db taskIds w filter n now).2 :=
  ⟨candidates db taskIds filter now n,orderLimit_insertionSort n _,rfl⟩

/-- The order of `(job_queue_id, case when job_queue_id is null then id end)`. -/
def keyCmp (a b : Job) : Ordering :=
  (compareNullsLast a.jobQueueId b.jobQueueId).then (compareNullsLast (distinctKey a).2 (distinctKey b).2)

/-- Fewer than `n` of the rows come strictly before `a`, and none of its queue. -/
def Foremost (n : ℕ) (rows : List Job) (a : Job) : Prop :=
  (rows.filter fun s => ¬candidateLe a s).length < n ∧ ∀ s ∈ rows, distinctKey s = distinctKey a → candidateLe a s

instance : Decidable (Foremost n rows a) := inferInstanceAs (Decidable (_ ∧ _))

/-- The foremost rows have their queue ids, and the unnamed ones after them their ids, in
the order of priority and `run_at`. -/
def FollowsPriority (n : ℕ) (rows : List Job) : Prop :=
  ∀ a ∈ rows, ∀ b ∈ rows, Foremost n rows a → Foremost n rows b → keyCmp a b = .lt → candidateLe a b

instance : Decidable (FollowsPriority n rows) :=
  inferInstanceAs (Decidable (∀ a ∈ rows, ∀ b ∈ rows,
    Foremost n rows a → Foremost n rows b → keyCmp a b = .lt → candidateLe a b))

theorem compareNullsLast_eq_iff {x y : Option ℕ} : compareNullsLast x y = .eq ↔ x = y := by
  cases x <;> cases y <;> simp [compareNullsLast]

theorem keyCmp_eq_iff : keyCmp a b = .eq ↔ distinctKey a = distinctKey b := by
  unfold keyCmp
  rw [Ordering.then_eq_eq,compareNullsLast_eq_iff,compareNullsLast_eq_iff,Prod.ext_iff]
  rfl

theorem keyCmp_congr (ha : distinctKey a' = distinctKey a) (hb : distinctKey b' = distinctKey b) :
    keyCmp a' b' = keyCmp a b := by
  have hqa : a'.jobQueueId = a.jobQueueId := congrArg Prod.fst ha
  have hqb : b'.jobQueueId = b.jobQueueId := congrArg Prod.fst hb
  unfold keyCmp
  rw [hqa,hqb,ha,hb]

theorem keyCmp_swap : keyCmp a b = (keyCmp b a).swap := by
  unfold keyCmp
  rw [Ordering.swap_then]
  exact congrArg₂ Ordering.then Std.OrientedCmp.eq_swap Std.OrientedCmp.eq_swap

theorem distinctLe_iff_keyCmp (hne : distinctKey a ≠ distinctKey b) : distinctLe a b ↔ keyCmp a b = .lt := by
  have hkey : keyCmp a b ≠ .eq := fun h => hne (keyCmp_eq_iff.mp h)
  unfold distinctLe
  rw [← Ordering.then_assoc]
  change ((keyCmp a b).then _).isLE = true ↔ keyCmp a b = .lt
  cases hk : keyCmp a b with
  | lt => simp
  | eq => exact absurd hk hkey
  | gt => simp

theorem pairwise_onePerQueue (c : List Job) : (onePerQueue c).Pairwise fun a b => keyCmp a b = .lt := by
  have hle : (onePerQueue c).Pairwise distinctLe :=
    (List.pairwise_insertionSort distinctLe _).sublist (distinctOn_sublist _ _)
  have hne : (onePerQueue c).Pairwise fun a b => distinctKey a ≠ distinctKey b :=
    List.pairwise_map.mp (nodup_distinctOn distinctKey _)
  exact (hle.and hne).imp fun h => (distinctLe_iff_keyCmp h.2).mp h.1

theorem candidateLe_of_pairwise (h : (onePerQueue c).Pairwise candidateLe) (ha : a ∈ onePerQueue c)
    (hb : b ∈ onePerQueue c) (hlt : keyCmp a b = .lt) : candidateLe a b := by
  have hself : ∀ x : Job, keyCmp x x = .eq := fun x => keyCmp_eq_iff.mpr rfl
  refine List.Pairwise.forall_of_forall_of_flip (R := fun x y => keyCmp x y = .lt → candidateLe x y) ?_ ?_ ?_ ha hb hlt
  · intro x _ hx
    rw [hself] at hx
    cases hx
  · refine h.imp ?_
    intro x y hle _
    exact hle
  · refine (pairwise_onePerQueue c).imp fun hxy hyx => ?_
    rw [keyCmp_swap,hxy] at hyx
    cases hyx

theorem foremost_onePerQueue (hc : OrderLimit candidateLe n rows c) (hn : rows.Nodup) (ha : a ∈ onePerQueue c) :
    Foremost n rows a := by
  have hac := mem_of_mem_onePerQueue ha
  refine ⟨hc.room hn hac,fun s hs hkey => ?_⟩
  by_cases hsc : s ∈ c
  · obtain ⟨a',ha',hk,hle⟩ := exists_onePerQueue hsc
    obtain rfl : a' = a := eq_of_mem_distinctOn distinctKey ha' ha (hk.trans hkey)
    exact candidateLe_of_key hk hle
  · exact hc.le_of_not_mem hac hs hsc

/-- What is kept of the queue of a foremost row is neither before nor after it. -/
theorem Foremost.exists_kept (h : Foremost n rows a) (hc : OrderLimit candidateLe n rows c) (ha : a ∈ c) :
    ∃ a' ∈ onePerQueue c, distinctKey a' = distinctKey a ∧ candidateLe a' a ∧ candidateLe a a' := by
  obtain ⟨a',ha',hk,hle⟩ := exists_onePerQueue ha
  exact ⟨a',ha',hk,candidateLe_of_key hk hle,h.2 a' (hc.mem (mem_of_mem_onePerQueue ha')) hk⟩

theorem followsPriority_iff (hn : rows.Nodup) : FollowsPriority n rows ↔
    ∀ c, OrderLimit candidateLe n rows c → (onePerQueue c).Pairwise candidateLe := by
  constructor
  · intro hk c hc
    have hmem : ∀ {r}, r ∈ onePerQueue c → r ∈ rows := fun hr => hc.mem (mem_of_mem_onePerQueue hr)
    exact (pairwise_onePerQueue c).imp_of_mem fun ha hb hlt =>
      hk _ (hmem ha) _ (hmem hb) (foremost_onePerQueue hc hn ha) (foremost_onePerQueue hc hn hb) hlt
  · intro hall a ha b hb hfa hfb hlt
    obtain ⟨c,hc,hac⟩ := exists_orderLimit_mem ha hfa.1
    by_cases hbc : b ∈ c
    · obtain ⟨a',ha',hka,-,haa⟩ := hfa.exists_kept hc hac
      obtain ⟨b',hb',hkb,hbb,-⟩ := hfb.exists_kept hc hbc
      have hle := candidateLe_of_pairwise (hall c hc) ha' hb' ((keyCmp_congr hka hkb).trans hlt)
      exact IsTrans.trans a b' b (IsTrans.trans a a' b' haa hle) hbb
    · exact hc.le_of_not_mem hac hb hbc

theorem orderedResult_pairwise_iff : (∀ jobs, OrderedResult db taskIds w filter n now jobs → jobs.Pairwise candidateLe) ↔
    FollowsPriority n (eligibleRows db taskIds filter now) := by
  -- a claim changes neither priority nor `run_at`
  have hclaim : ∀ c : List Job, (c.map (Job.claim w now)).Pairwise candidateLe ↔ c.Pairwise candidateLe :=
    fun c => List.pairwise_map
  rw [followsPriority_iff nodup_eligibleRows]
  constructor
  · intro h c hc
    exact (hclaim _).mp (h _ ⟨c,hc,rfl⟩)
  · rintro h jobs ⟨c,hc,rfl⟩
    exact (hclaim _).mpr (h c hc)

end GraphileWorker.Database
