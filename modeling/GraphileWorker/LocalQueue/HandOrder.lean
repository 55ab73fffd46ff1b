import GraphileWorker.LocalQueue.Conservation
import GraphileWorker.Database.BatchOrder
import GraphileWorker.Database.Statement

/-! # The order in which a local queue hands out one batch

The cache is first in, first out, so consumers get the jobs of one result in the order of the
`DISTINCT ON` query: by queue and, outside named queues, by id.
-/
namespace GraphileWorker.LocalQueue
open Foundation Database
variable {J : Type} {taskIds : List TaskId} {filter : JobFlagFilter}

/-- The claims on their way to a consumer, the first one in front. -/
def Places.line (p : Places J) : List (Claim J) := p.handed.map Prod.snd ++ p.jobQueue ++ p.held

theorem Move.line_sublist {p q : Places J} (h : Move p q) (hp : p.line.Sublist p.issued) :
    q.line.Sublist q.issued := by
  cases h with
  | stay => exact hp
  | issue jobs hh =>
    unfold Places.line at hp ⊢
    rw [hh,List.append_nil] at hp
    exact hp.append (List.Sublist.refl _)
  | append =>
    unfold Places.line at hp ⊢
    rwa [List.append_nil,← List.append_assoc]
  | hand t c rest hq =>
    unfold Places.line at hp ⊢
    rw [hq] at hp
    simpa using hp
  | drain =>
    refine List.Sublist.trans ?_ hp
    unfold Places.line
    rw [List.append_nil]
    exact (List.sublist_append_left _ _).append_right _
  | ack => exact hp

theorem Move.issued_isPrefix {p q : Places J} (h : Move p q) : p.issued <+: q.issued := by
  cases h with
  | issue jobs => exact List.prefix_append _ _
  | stay | append | hand | drain | ack => exact List.prefix_rfl

variable {cfg : Config} {s s' : State J}

theorem Runs.line_sublist (h : Runs cfg s s') (hs : s.places.line.Sublist s.sh.issued) :
    s'.places.line.Sublist s'.sh.issued :=
  h.invariant (I := fun s => s.places.line.Sublist s.sh.issued)
    (fun _ _ _ _ he hl => (step_move he).line_sublist hl) hs

theorem Runs.issued_isPrefix (h : Runs cfg s s') : s.sh.issued <+: s'.sh.issued :=
  h.invariant (I := fun t => s.sh.issued <+: t.sh.issued)
    (fun _ _ _ _ he hp => hp.trans (step_move he).issued_isPrefix) List.prefix_rfl

def handedBetween (sh : Shared J) (lo hi : ℕ) : List J :=
  ((sh.handed.map Prod.snd).filter fun c => decide (lo ≤ c.seq) && decide (c.seq < hi)).map Claim.job

theorem map_job_number (n : ℕ) (jobs : List J) : (number n jobs).map Claim.job = jobs := by
  induction jobs generalizing n with
  | nil => rfl
  | cons j rest ih => rw [number,List.map_cons,ih]

theorem filter_between {a b c : List (Claim J)} (h : (a ++ b ++ c).map Claim.seq = List.range (a ++ b ++ c).length) :
    ((a ++ b ++ c).filter fun x => decide (a.length ≤ x.seq) && decide (x.seq < (a ++ b).length)) = b := by
  have hr : (a ++ b ++ c).map Claim.seq =
      List.range' 0 a.length ++ List.range' a.length b.length ++ List.range' (a ++ b).length c.length := by
    rw [h,List.range_eq_range',List.length_append,List.length_append,← List.range'_append_1,← List.range'_append_1,
      Nat.zero_add,Nat.zero_add]
  rw [List.map_append,List.map_append] at hr
  obtain ⟨hab,hc⟩ := List.append_inj hr (by simp)
  obtain ⟨ha,hb⟩ := List.append_inj hab (by simp)
  have key : ∀ {l : List (Claim J)} {m k : ℕ}, l.map Claim.seq = List.range' m k →
      ∀ x ∈ l, m ≤ x.seq ∧ x.seq < m + k := by
    intro l m k hl x hx
    have hm : x.seq ∈ l.map Claim.seq := List.mem_map_of_mem hx
    rw [hl] at hm
    exact List.mem_range'_1.mp hm
  rw [List.filter_append,List.filter_append,List.filter_eq_nil_iff.mpr,List.filter_eq_self.mpr,
    List.filter_eq_nil_iff.mpr,List.nil_append,List.append_nil]
  · intro x hx
    have := key hc x hx
    simp only [Bool.and_eq_true,decide_eq_true_eq]
    omega
  · intro x hx
    have := key hb x hx
    rw [List.length_append]
    simpa using this
  · intro x hx
    have := key ha x hx
    simp only [Bool.and_eq_true,decide_eq_true_eq]
    omega

theorem handed_sublist_result {s₁ s₂ : State J} {jobs : List J} (h : Runs cfg initial s)
    (hb : step cfg s (.loop (.batch (some jobs))) = some s₁) (h₂ : Runs cfg s₁ s₂) :
    (handedBetween s₂.sh s.sh.issued.length s₁.sh.issued.length).Sublist jobs := by
  have hissued : s₁.sh.issued = s.sh.issued ++ number s.sh.issued.length jobs := by
    cases step_cases hb with
    | loop i sh pc hp =>
      generalize s.loop = q at hp
      cases loopStep_cases hp with
      | fetchSql => rfl
  have hreach : Runs cfg initial s₂ := (h.step trivial hb).trans h₂
  have hline := hreach.line_sublist (List.Sublist.refl [])
  have hnum := (hreach.conserved conserved_initial).numbered
  obtain ⟨more,hmore⟩ := h₂.issued_isPrefix
  have hhanded : (s₂.sh.handed.map Prod.snd).Sublist s₂.sh.issued :=
    ((List.sublist_append_left _ _).trans (List.sublist_append_left _ _)).trans hline
  have hfilter := (hhanded.filter fun c => decide (s.sh.issued.length ≤ c.seq) &&
    decide (c.seq < s₁.sh.issued.length)).map Claim.job
  rw [← hmore,hissued] at hfilter
  have hnum' : (s.sh.issued ++ number s.sh.issued.length jobs ++ more).map Claim.seq =
      List.range (s.sh.issued ++ number s.sh.issued.length jobs ++ more).length := by
    rw [← hissued,hmore]
    exact hnum
  rw [filter_between hnum',map_job_number,← hissued] at hfilter
  exact hfilter

theorem Runs.thread {t : Tid} {i : Input J} {p q : Shared J × Thread J} (h : Runs cfg s (s'.put t p))
    (hstep : threadStep p.1 t p.2 i = some q) : Runs cfg s (s'.put t q) := by
  refine h.step (a := .thread t i) trivial ?_
  simp [step,State.put,hstep]

theorem exists_handed {t : Tid} {c : Claim J} {rest : List (Claim J)} (hmode : s.sh.mode = .polling)
    (hlock : s.sh.jobQueueLock = none) (hidle : s.thr t = .idle) (hq : s.sh.jobQueue = c :: rest) :
    ∃ s', Runs cfg s s' ∧ s'.sh.mode = .polling ∧ s'.sh.jobQueueLock = none ∧ s'.sh.jobQueue = rest ∧
      s'.sh.handed = s.sh.handed ++ [(t,c)] ∧ ∀ u, u ≠ t → s'.thr u = s.thr u := by
  have hstart : Runs cfg s (s.put t (s.sh,.getJob false)) := by
    refine .step .refl (a := .start t (.getJob false)) trivial ?_
    simp [step,hidle,Thread.isIdle,Call.enter]
  have hcache := hstart.thread (i := .tick) (q := (s.sh,.cache)) (by simp [threadStep,hmode])
  have hchecked := hcache.thread (i := .tick) (q := (s.sh,.cacheChecked .polling)) (by simp [threadStep,hmode])
  have hfree := hchecked.thread (i := .tick) (q := (s.sh,.cacheLock)) (by simp [threadStep])
  have htaken := hfree.thread (i := .tick) (q := ({ s.sh with jobQueueLock := some t },.cachePop))
    (by simp [threadStep,hlock])
  have hpop := htaken.thread (i := .tick) (q := ({ s.sh with
    jobQueue := rest, jobQueueLock := none, handed := s.sh.handed ++ [(t,c)] },
    if rest.isEmpty then .drained c else .finished (.job (some c)))) (by simp [threadStep,hmode,hq])
  exact ⟨_,hpop,hmode,rfl,rfl,rfl,fun u hu => Function.update_of_ne hu _ _⟩

/-- Consumers that come one after another get all that is in the cache. -/
theorem exists_all_handed {n : Tid} {cs : List (Claim J)} (hmode : s.sh.mode = .polling)
    (hlock : s.sh.jobQueueLock = none) (hidle : ∀ t, n ≤ t → s.thr t = .idle) (hq : s.sh.jobQueue = cs) :
    ∃ s', Runs cfg s s' ∧ s'.sh.handed.map Prod.snd = s.sh.handed.map Prod.snd ++ cs := by
  induction cs generalizing s n with
  | nil => exact ⟨s,.refl,by simp⟩
  | cons c rest ih =>
    obtain ⟨u,hu,hmode',hlock',hq',hhanded,hthr⟩ := exists_handed hmode hlock (hidle n le_rfl) hq
    have hidle' : ∀ t, n + 1 ≤ t → u.thr t = .idle := fun t ht =>
      (hthr t (Nat.ne_of_gt ht)).trans (hidle t (Nat.le_of_succ_le ht))
    obtain ⟨s',hs',hall⟩ := ih hmode' hlock' hidle' hq'
    exact ⟨s',hu.trans hs',by simp [hall,hhanded]⟩

def toQuery : List (Action J) := loopTicks 4 ++ [Action.loop (.boundary true)] ++ loopTicks 4

theorem exists_cached (j : J) (rest : List J) : ∃ s s₁ u : State J, Runs {} initial s ∧
    step {} s (.loop (.batch (some (j :: rest)))) = some s₁ ∧ Runs {} s₁ u ∧ s.sh.issued = [] ∧
    s₁.sh.issued = number 0 (j :: rest) ∧ u.sh.mode = .polling ∧ u.sh.jobQueueLock = none ∧ (∀ t, u.thr t = .idle) ∧
    u.sh.jobQueue = number 0 (j :: rest) ∧ u.sh.handed = [] := by
  obtain ⟨s,hs,s₁,hb,u,hu,hfacts⟩ : ∃ s : State J, exec (step {}) (fun _ _ => True) initial toQuery = some s ∧
      ∃ s₁, step {} s (.loop (.batch (some (j :: rest)))) = some s₁ ∧
      ∃ u, exec (step {}) (fun _ _ => True) s₁ (loopTicks 4) = some u ∧ s.sh.issued = [] ∧
      s₁.sh.issued = number 0 (j :: rest) ∧ u.sh.mode = .polling ∧ u.sh.jobQueueLock = none ∧ (∀ t, u.thr t = .idle) ∧
      u.sh.jobQueue = number 0 (j :: rest) ∧ u.sh.handed = [] :=
    ⟨_,rfl,_,rfl,_,rfl,rfl,rfl,rfl,rfl,fun _ => rfl,rfl,rfl⟩
  exact ⟨s,s₁,u,reaches_exec hs,hb,reaches_exec hu,hfacts⟩

theorem exists_run_handing_all {jobs : List J} (hne : jobs ≠ []) : ∃ s s₁ s₂ : State J, Runs {} initial s ∧
    step {} s (.loop (.batch (some jobs))) = some s₁ ∧ Runs {} s₁ s₂ ∧
    handedBetween s₂.sh s.sh.issued.length s₁.sh.issued.length = jobs := by
  obtain ⟨j,rest,rfl⟩ := List.exists_cons_of_ne_nil hne
  obtain ⟨s,s₁,u,hs,hb,hu,hissued,hissued₁,hmode,hlock,hidle,hq,hnone⟩ := exists_cached j rest
  obtain ⟨s₂,hs₂,hall⟩ := exists_all_handed (n := 0) hmode hlock (fun t _ => hidle t) hq
  refine ⟨s,s₁,s₂,hs,hb,hu.trans hs₂,?_⟩
  have hrange : (number 0 (j :: rest)).map Claim.seq = List.range (number 0 (j :: rest)).length := by
    rw [map_seq_number,length_number,List.range_eq_range']
  have hfilter := filter_between (a := []) (b := number 0 (j :: rest)) (c := []) (by simpa using hrange)
  simp only [List.nil_append,List.append_nil] at hfilter
  rw [handedBetween,hissued,hissued₁,hall,hnone,List.map_nil,List.nil_append,hfilter,map_job_number]

/-- The results of the batch query, and what consumers get of them in every run, come by priority and
`run_at` exactly if the foremost eligible rows have their keys in that order. -/
theorem batch_handed_by_priority (db : Db) (taskIds : List TaskId) (w : WorkerId) (filter : JobFlagFilter) (n : ℕ)
    (now : Time) :
    OrderedResult db taskIds w filter n now (batchGetJobsWithFilter db taskIds w filter n now).2 ∧
    ((∀ jobs, OrderedResult db taskIds w filter n now jobs → jobs.Pairwise candidateLe) ↔
      FollowsPriority n (eligibleRows db taskIds filter now)) ∧
    ((∀ cfg jobs s s₁ s₂, OrderedResult db taskIds w filter n now jobs → Runs cfg initial s →
        step cfg s (.loop (.batch (some jobs))) = some s₁ → Runs cfg s₁ s₂ →
        (handedBetween s₂.sh s.sh.issued.length s₁.sh.issued.length).Pairwise candidateLe) ↔
      FollowsPriority n (eligibleRows db taskIds filter now)) := by
  refine ⟨orderedResult_batchGetJobsWithFilter,orderedResult_pairwise_iff,?_⟩
  rw [← orderedResult_pairwise_iff (w := w)]
  constructor
  · intro h jobs hjobs
    by_cases hne : jobs = []
    · exact hne ▸ List.Pairwise.nil
    · obtain ⟨s,s₁,s₂,hs,hb,h₂,hall⟩ := exists_run_handing_all hne
      exact hall ▸ h {} jobs s s₁ s₂ hjobs hs hb h₂
  · intro h cfg jobs s s₁ s₂ hjobs hs hb h₂
    exact (h jobs hjobs).sublist (handed_sublist_result hs hb h₂)

def twoPriorities (first second : ℤ) : Db :=
  after [(0,.addJob ⟨"task",.null,{ priority := some first }⟩ none),
    (0,.addJob ⟨"task",.null,{ priority := some second }⟩ none)]

def twoFetched (first second : ℤ) : List Job :=
  (batchGetJobsWithFilter (twoPriorities first second) [1] "w" .unrestricted 100 1).2

def toConsumers : List (Action Job) :=
  loopTicks 4 ++ [Action.start 2 (.getJob false)] ++ threadTicks 2 5 ++ [Action.start 3 (.getJob false)] ++
    threadTicks 3 5

def prioritiesSeen (first second : ℤ) : Option (List ℤ) :=
  (exec (step {}) (fun _ _ => True) initial toQuery).bind fun s =>
    (step {} s (.loop (.batch (some (twoFetched first second))))).bind fun s₁ =>
      (exec (step {}) (fun _ _ => True) s₁ toConsumers).map fun s₂ =>
        (handedBetween s₂.sh s.sh.issued.length s₁.sh.issued.length).map Job.priority

theorem exists_run_of_prioritiesSeen {first second : ℤ} {seen : List ℤ}
    (h : prioritiesSeen first second = some seen) :
    ∃ s s₁ s₂ : State Job, Runs {} initial s ∧
      step {} s (.loop (.batch (some (twoFetched first second)))) = some s₁ ∧ Runs {} s₁ s₂ ∧
      (handedBetween s₂.sh s.sh.issued.length s₁.sh.issued.length).map Job.priority = seen := by
  unfold prioritiesSeen at h
  obtain ⟨s,hs,h⟩ := Option.bind_eq_some_iff.mp h
  obtain ⟨s₁,hs₁,h⟩ := Option.bind_eq_some_iff.mp h
  obtain ⟨s₂,hs₂,h⟩ := Option.map_eq_some_iff.mp h
  exact ⟨s,s₁,s₂,reaches_exec hs,hs₁,reaches_exec hs₂,h⟩

theorem smaller_id_handed_first : ∃ s s₁ s₂ : State Job, Runs {} initial s ∧
    step {} s (.loop (.batch (some (twoFetched (-10) 0)))) = some s₁ ∧ Runs {} s₁ s₂ ∧
    (handedBetween s₂.sh s.sh.issued.length s₁.sh.issued.length).map Job.priority = [-10,0] ∧
    (handedBetween s₂.sh s.sh.issued.length s₁.sh.issued.length).Pairwise candidateLe := by
  have hseen : prioritiesSeen (-10) 0 = some [-10,0] := by decide +kernel
  obtain ⟨s,s₁,s₂,h,hb,h₂,hp⟩ := exists_run_of_prioritiesSeen hseen
  have hk : FollowsPriority 100 (eligibleRows (twoPriorities (-10) 0) [1] .unrestricted 1) := by decide +kernel
  have hmain := batch_handed_by_priority (twoPriorities (-10) 0) [1] "w" .unrestricted 100 1
  exact ⟨s,s₁,s₂,h,hb,h₂,hp,hmain.2.2.mpr hk {} _ s s₁ s₂ hmain.1 h hb h₂⟩

theorem larger_id_handed_second : ∃ s s₁ s₂ : State Job, Runs {} initial s ∧
    step {} s (.loop (.batch (some (twoFetched 10 0)))) = some s₁ ∧ Runs {} s₁ s₂ ∧
    (candidates (twoPriorities 10 0) [1] .unrestricted 1 100).map Job.priority = [0,10] ∧
    (handedBetween s₂.sh s.sh.issued.length s₁.sh.issued.length).map Job.priority = [10,0] ∧
    ¬(handedBetween s₂.sh s.sh.issued.length s₁.sh.issued.length).Pairwise candidateLe := by
  have hseen : prioritiesSeen 10 0 = some [10,0] := by decide +kernel
  obtain ⟨s,s₁,s₂,h,hb,h₂,hp⟩ := exists_run_of_prioritiesSeen hseen
  refine ⟨s,s₁,s₂,h,hb,h₂,by decide +kernel,hp,fun hs => ?_⟩
  obtain ⟨a,b,hab,ha,hb⟩ : ∃ a b, handedBetween s₂.sh s.sh.issued.length s₁.sh.issued.length = [a,b] ∧
      a.priority = 10 ∧ b.priority = 0 := by
    match hl : handedBetween s₂.sh s.sh.issued.length s₁.sh.issued.length with
    | [a,b] =>
      rw [hl] at hp
      exact ⟨a,b,rfl,by simpa using hp⟩
    | [] | [_] | _ :: _ :: _ :: _ => simp [hl] at hp
  rw [hab,List.pairwise_pair,candidateLe,ha,hb] at hs
  omega

end GraphileWorker.LocalQueue
