import GraphileWorker.Batcher.Flush

/-! # Batched outcomes and single ones

Each statement is brought to a form in which its requests occur through membership
only. Two forms in a row are the form of all requests, if no job is in both.
-/
namespace GraphileWorker.Batcher
open Foundation Database

/-- The job was claimed by the worker, and its row is still as the claim returned it
as far as its holder and its queue go. -/
def ClaimedBy (db : Db) (w : WorkerId) (job : Job) : Prop :=
  ∃ r ∈ db.jobs.rows, r.id = job.id ∧ r.lockedBy = some w ∧ r.jobQueueId = job.jobQueueId

variable {db : Db} {w : WorkerId} {now : Time} {q : JobQueue} {jobs rest : List FailedJob} {f : FailedJob} {job : Job}
  {ids : List JobId}

def releasedQueue (db : Db) (w : WorkerId) (jobs : List FailedJob) (q : JobQueue) : Bool :=
  heldQueueOf w (db.jobs.rows.filter (ownedBy w (jobs.map fun f => f.job.id))) q

theorem releasedQueue_iff : releasedQueue db w jobs q = true ↔
    q.lockedBy = some w ∧ ∃ r ∈ db.jobs.rows, (∃ f ∈ jobs, f.job.id = r.id) ∧ r.lockedBy = some w ∧
      r.jobQueueId = some q.id := by
  simp [releasedQueue,heldQueueOf_iff,ownedBy_iff,List.mem_filter,and_assoc]

/-- What the failures of these jobs write, whichever statements report them. -/
def failedForm (db : Db) (w : WorkerId) (now : Time) (jobs : List FailedJob) : Db :=
  (db.updateJobs (ownedBy w (jobs.map fun f => f.job.id)) (Job.failWith now jobs)
    (Job.rowId_failWith now jobs)).unlockQueues (releasedQueue db w jobs)

theorem ClaimedBy.queue_eq (h : ClaimedBy db w job) {r : Job} (hr : r ∈ db.jobs.rows)
    (ho : ownedBy w [job.id] r = true) : r.jobQueueId = job.jobQueueId := by
  obtain ⟨s,hs,hid,-,hq⟩ := h
  rw [← hq,IdTable.eq_of_rowId hr hs ((List.mem_singleton.mp ((ownedBy_iff _).mp ho).1).trans hid.symm)]

theorem failJobs_eq_form (hc : ∀ f ∈ jobs, ClaimedBy db w f.job) :
    failJobs db jobs w now = failedForm db w now jobs := by
  have hjobs := failJobs_jobs db jobs w now
  refine db_ext (congrArg IdTable.rows hjobs) (congrArg IdTable.next hjobs)
    (failJobs_queues fun f hf r hr ho => (hc f hf).queue_eq hr ho) (failJobs_names jobs).1 (failJobs_names jobs).2

theorem ClaimedBy.failedForm (h : ClaimedBy db w job) (hne : job.id ≠ f.job.id) :
    ClaimedBy (failedForm db w now [f]) w job := by
  obtain ⟨r,hr,hid,hl,hq⟩ := h
  refine ⟨r,List.mem_map.mpr ⟨r,hr,?_⟩,hid,hl,hq⟩
  rw [if_neg]
  intro hown
  have hrid : r.id = f.job.id := by simpa using ((ownedBy_iff _).mp hown).1
  exact hne (hid.symm.trans hrid)

theorem foldl_failJob (hd : (jobs.map fun f => f.job.id).Nodup) (hc : ∀ f ∈ jobs, ClaimedBy db w f.job) :
    jobs.foldl (fun db f => failJob db f.job w now f.error none) db = failedForm db w now jobs := by
  induction jobs generalizing db with
  | nil => exact show failJobs db [] w now = _ from failJobs_eq_form (by simp)
  | cons f rest ih =>
    obtain ⟨hf,hrest⟩ := List.nodup_cons.mp hd
    have hone : failJobs db [f] w now = failedForm db w now [f] := failJobs_eq_form (by simpa using hc f (by simp))
    have hlater : ∀ g ∈ rest, ClaimedBy (failedForm db w now [f]) w g.job := fun g hg =>
      (hc g (List.mem_cons_of_mem f hg)).failedForm fun he => hf (List.mem_map.mpr ⟨g,hg,he⟩)
    rw [List.foldl_cons,failJob_eq_failJobs,hone,ih hrest hlater,← failJobs_eq_form hlater,← hone,
      failJobs_cons fun g hg r hr ho => (hc g hg).queue_eq hr ho,failJobs_eq_form hc]

theorem find?_failed {i : JobId} (hd : (jobs.map fun f => f.job.id).Nodup) :
    (jobs.find? fun f => f.job.id == i) = some f ↔ f ∈ jobs ∧ f.job.id = i := by
  constructor
  · intro h
    exact ⟨List.mem_of_find?_eq_some h,by simpa using List.find?_some h⟩
  · rintro ⟨hf,hid⟩
    have hsome : (jobs.find? fun f => f.job.id == i).isSome = true :=
      List.find?_isSome.mpr ⟨f,hf,by simpa using hid⟩
    obtain ⟨g,hg⟩ := Option.isSome_iff_exists.mp hsome
    have hgid : g.job.id = i := by simpa using List.find?_some hg
    rw [hg,List.inj_on_of_nodup_map hd (List.mem_of_find?_eq_some hg) hf (hgid.trans hid.symm)]

theorem failedForm_perm {order : List FailedJob} (hp : order.Perm jobs)
    (hd : (jobs.map fun f => f.job.id).Nodup) : failedForm db w now order = failedForm db w now jobs := by
  have hids : ∀ i, i ∈ order.map (fun f => f.job.id) ↔ i ∈ jobs.map fun f => f.job.id := fun i => (hp.map _).mem_iff
  have hown : ∀ r : Job, ownedBy w (order.map fun f => f.job.id) r = ownedBy w (jobs.map fun f => f.job.id) r := by
    intro r
    rw [Bool.eq_iff_iff,ownedBy_iff,ownedBy_iff,hids]
  have herror : ∀ r : Job, errorOf order r = errorOf jobs r := by
    intro r
    have hsame : (order.find? fun f => f.job.id == r.id) = jobs.find? fun f => f.job.id == r.id := by
      refine Option.ext fun f => ?_
      rw [find?_failed ((hp.map _).nodup_iff.mpr hd),find?_failed hd,hp.mem_iff]
    rw [errorOf,hsame,errorOf]
  refine db_ext (List.map_congr_left fun r _ => ?_) rfl ?_ rfl rfl
  · rw [hown r,Job.failWith,herror r,Job.failWith]
  · have hqueues : db.unlockQueues (releasedQueue db w order) = db.unlockQueues (releasedQueue db w jobs) := by
      refine unlockQueues_congr fun x _ => ?_
      rw [releasedQueue_iff,releasedQueue_iff]
      simp only [hp.mem_iff]
    exact (congrArg Db.jobQueues hqueues :)

def completedForm (db : Db) (w : WorkerId) (ids : List JobId) : Db := completeQueued db ids w

theorem completeUnqueued_eq_form {jobs : List Job} (hc : ∀ job ∈ jobs, ClaimedBy db w job)
    (hq : ∀ job ∈ jobs, job.jobQueueId = none) :
    completeUnqueued db (jobs.map Job.id) = completedForm db w (jobs.map Job.id) := by
  refine (unlockQueues_eq_self fun x _ => ?_).symm
  rw [completedQueue_iff]
  rintro ⟨-,r,hr,hid,hrq⟩
  obtain ⟨job,hjob,hid⟩ := List.mem_map.mp hid
  obtain ⟨s,hs,hsid,-,hsq⟩ := hc job hjob
  rw [IdTable.eq_of_rowId hs hr (hsid.trans hid),hrq,hq job hjob] at hsq
  cases hsq

theorem completeJob_eq_form (hc : ClaimedBy db w job) : completeJob db job w = completedForm db w [job.id] := by
  unfold completeJob
  split
  · rfl
  · next hq =>
    have hclaimed : ∀ g ∈ [job], ClaimedBy db w g := by simpa using hc
    have hunnamed : ∀ g ∈ [job], g.jobQueueId = none := by simpa using hq
    exact completeUnqueued_eq_form hclaimed hunnamed

theorem completedForm_nil : completedForm db w [] = db := completeQueued_nil

theorem completedForm_append {later : List JobId} :
    completedForm (completedForm db w ids) w later = completedForm db w (ids ++ later) := completeQueued_append

theorem ClaimedBy.completedForm (h : ClaimedBy db w job) (hne : job.id ∉ ids) :
    ClaimedBy (completedForm db w ids) w job := by
  obtain ⟨r,hr,hid,hl,hq⟩ := h
  exact ⟨r,mem_completeQueued.mpr ⟨hr,hid ▸ hne⟩,hid,hl,hq⟩

theorem foldl_completeJob {jobs : List Job} (hd : (jobs.map Job.id).Nodup) (hc : ∀ job ∈ jobs, ClaimedBy db w job) :
    jobs.foldl (fun db job => completeJob db job w) db = completedForm db w (jobs.map Job.id) := by
  induction jobs generalizing db with
  | nil => exact completedForm_nil.symm
  | cons job rest ih =>
    obtain ⟨hjob,hrest⟩ := List.nodup_cons.mp hd
    rw [List.foldl_cons,completeJob_eq_form (hc job (by simp)),ih hrest,completedForm_append]
    · rfl
    · intro g hg
      refine (hc g (List.mem_cons_of_mem job hg)).completedForm fun he => hjob ?_
      exact List.mem_map.mpr ⟨g,hg,List.mem_singleton.mp he⟩

theorem completedForm_congr {order : List JobId} (h : ∀ i, i ∈ order ↔ i ∈ ids) :
    completedForm db w order = completedForm db w ids := by
  have hcontains : ∀ i : JobId, order.contains i = ids.contains i := by
    intro i
    rw [Bool.eq_iff_iff,List.contains_iff_mem,List.contains_iff_mem,h]
  unfold completedForm completeQueued
  simp only [hcontains]

def completionRequest (job : Job) : CompletionRequest := ⟨job.id,job.jobQueueId.isSome⟩

theorem withQueueIds_completionRequest {jobs : List Job} :
    withQueueIds (jobs.map completionRequest) = (jobs.filter fun job => job.jobQueueId.isSome).map Job.id := by
  unfold withQueueIds
  rw [List.filter_map,List.map_map]
  rfl

theorem withoutQueueIds_completionRequest {jobs : List Job} :
    withoutQueueIds (jobs.map completionRequest) = (jobs.filter fun job => !job.jobQueueId.isSome).map Job.id := by
  unfold withoutQueueIds
  rw [List.filter_map,List.map_map]
  rfl

def Session.Acknowledged (s : Session) : Prop := ∀ e ∈ s.log, e.2 = true

section Groups
variable {succeeds : ℕ → Bool} {s : Session} {ids : List JobId} {st : Statement}

theorem acknowledged_completeGroup (h : (completeGroup succeeds now s ids st).1.Acknowledged) : s.Acknowledged := by
  intro e he
  refine h e ?_
  unfold completeGroup
  split
  · exact he
  · exact List.mem_append_left _ he

theorem completeGroup_db (h : (completeGroup succeeds now s ids st).1.Acknowledged) :
    (completeGroup succeeds now s ids st).1.db = if ids.isEmpty then s.db else st.run s.db now := by
  unfold completeGroup at h ⊢
  split
  · rfl
  · next hids =>
    rw [if_neg hids] at h
    have hok : succeeds s.log.length = true := h (st,succeeds s.log.length) (List.mem_append_right _ (by simp))
    exact if_pos hok

end Groups

theorem completeBatch_eq_form {succeeds : ℕ → Bool} {jobs : List Job} (hd : (jobs.map Job.id).Nodup)
    (hc : ∀ job ∈ jobs, ClaimedBy db w job)
    (hok : (completeBatch succeeds now w ⟨db,[]⟩ (jobs.map completionRequest)).1.Acknowledged) :
    (completeBatch succeeds now w ⟨db,[]⟩ (jobs.map completionRequest)).1.db =
      completedForm db w (jobs.map Job.id) := by
  have hnamed : (completeGroup succeeds now ⟨db,[]⟩ (withQueueIds (jobs.map completionRequest))
      (.completeJobsWithQueues w (withQueueIds (jobs.map completionRequest)))).1.db =
      completedForm db w (withQueueIds (jobs.map completionRequest)) := by
    rw [completeGroup_db (acknowledged_completeGroup hok)]
    split
    · next he => rw [List.isEmpty_iff.mp he,completedForm_nil]
    · next he => exact if_neg he
  -- the second statement finds the unnamed jobs as they were
  have hlater : ∀ job ∈ jobs.filter fun job => !job.jobQueueId.isSome,
      ClaimedBy (completedForm db w (withQueueIds (jobs.map completionRequest))) w job := by
    intro job hjob
    obtain ⟨hjob,hq⟩ := List.mem_filter.mp hjob
    refine (hc job hjob).completedForm fun hmem => ?_
    rw [withQueueIds_completionRequest] at hmem
    obtain ⟨other,hother,hid⟩ := List.mem_map.mp hmem
    obtain ⟨hother,hoq⟩ := List.mem_filter.mp hother
    rw [List.inj_on_of_nodup_map hd hother hjob hid] at hoq
    simp [hoq] at hq
  have hunnamed := completeUnqueued_eq_form hlater fun job hjob => by simpa using (List.mem_filter.mp hjob).2
  rw [← withoutQueueIds_completionRequest] at hunnamed
  have hboth : (completeBatch succeeds now w ⟨db,[]⟩ (jobs.map completionRequest)).1.db =
      completedForm (completedForm db w (withQueueIds (jobs.map completionRequest))) w
        (withoutQueueIds (jobs.map completionRequest)) := by
    refine (completeGroup_db hok).trans ?_
    rw [hnamed]
    split
    · next he => rw [List.isEmpty_iff.mp he,completedForm_nil]
    · next he => exact (if_neg he).trans hunnamed
  rw [hboth,completedForm_append]
  refine completedForm_congr fun i => ?_
  rw [withQueueIds_completionRequest,withoutQueueIds_completionRequest,← List.map_append]
  exact ((List.filter_append_perm _ _).map _).mem_iff

/-- A batch of distinct claimed jobs is written like its jobs one by one, in any order. -/
theorem batched_eq_single (db : Db) (w : WorkerId) (now : Time) :
    (∀ failed order : List FailedJob, (failed.map fun f => f.job.id).Nodup →
      (∀ f ∈ failed, ClaimedBy db w f.job) → order.Perm failed →
      failJobs db failed w now = order.foldl (fun db f => failJob db f.job w now f.error none) db) ∧
    (∀ (succeeds : ℕ → Bool) (jobs order : List Job), (jobs.map Job.id).Nodup →
      (∀ job ∈ jobs, ClaimedBy db w job) → order.Perm jobs →
      (completeBatch succeeds now w ⟨db,[]⟩ (jobs.map completionRequest)).1.Acknowledged →
      (completeBatch succeeds now w ⟨db,[]⟩ (jobs.map completionRequest)).1.db =
        order.foldl (fun db job => completeJob db job w) db) := by
  constructor
  · intro failed order hd hc hp
    have hod : (order.map fun f => f.job.id).Nodup := (hp.map _).nodup_iff.mpr hd
    have hoc : ∀ f ∈ order, ClaimedBy db w f.job := fun f hf => hc f (hp.mem_iff.mp hf)
    rw [failJobs_eq_form hc,foldl_failJob hod hoc,failedForm_perm hp hd]
  · intro succeeds jobs order hd hc hp hok
    have hod : (order.map Job.id).Nodup := (hp.map _).nodup_iff.mpr hd
    have hoc : ∀ job ∈ order, ClaimedBy db w job := fun job hj => hc job (hp.mem_iff.mp hj)
    rw [completeBatch_eq_form hd hc hok,foldl_completeJob hod hoc]
    exact completedForm_congr fun i => (hp.map _).mem_iff.symm

theorem two_claimed_reported :
    failJobs twoClaimed (twoClaimed.jobs.rows.map fun job => ⟨job,"boom"⟩) "a" 2 =
      (twoClaimed.jobs.rows.map fun job => (⟨job,"boom"⟩ : FailedJob)).reverse.foldl
        (fun db f => failJob db f.job "a" 2 f.error none) twoClaimed ∧
    (completeBatch (fun _ => true) 2 "a" ⟨twoClaimed,[]⟩ (twoClaimed.jobs.rows.map completionRequest)).1.db =
      twoClaimed.jobs.rows.reverse.foldl (fun db job => completeJob db job "a") twoClaimed := by
  have hheld : ∀ job ∈ twoClaimed.jobs.rows, job.lockedBy = some "a" := by decide
  have hclaimed : ∀ job ∈ twoClaimed.jobs.rows, ClaimedBy twoClaimed "a" job :=
    fun job h => ⟨job,h,rfl,hheld job h,rfl⟩
  constructor
  · refine (batched_eq_single twoClaimed "a" 2).1 _ _ (by decide) ?_ (List.reverse_perm _)
    intro f hf
    obtain ⟨job,hjob,rfl⟩ := List.mem_map.mp hf
    exact hclaimed job hjob
  · refine (batched_eq_single twoClaimed "a" 2).2 (fun _ => true) _ _ (by decide) hclaimed (List.reverse_perm _) ?_
    have hlog : ((completeBatch (fun _ => true) 2 "a" ⟨twoClaimed,[]⟩
        (twoClaimed.jobs.rows.map completionRequest)).1.log.map Prod.snd) = [true,true] := by decide
    intro e he
    have hmem := List.mem_map_of_mem (f := Prod.snd) he
    rw [hlog] at hmem
    simpa using hmem

end GraphileWorker.Batcher
