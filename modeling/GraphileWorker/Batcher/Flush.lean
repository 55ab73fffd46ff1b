import GraphileWorker.Database.SerialQueues

/-! # Flushing a batch of outcomes

The completion batcher uses one statement for the queued jobs and one for the others,
the failure batcher one for all, and one for each job if that fails.
-/
namespace GraphileWorker.Batcher
open Foundation Database

/-- The database as one flush sees it, with the statements issued so far and how each ended. -/
structure Session where
  db : Db
  log : List (Statement × Bool) := []

def Session.execute (succeeds : ℕ → Bool) (now : Time) (s : Session) (st : Statement) : Session × Bool :=
  let ok := succeeds s.log.length
  (⟨if ok then st.run s.db now else s.db,s.log ++ [(st,ok)]⟩,ok)

section Completion
variable (succeeds : ℕ → Bool) (now : Time) (w : WorkerId)

structure CompletionBatchResult where
  withQueueSucceeded : Bool
  withoutQueueSucceeded : Bool

def CompletionBatchResult.persisted (result : CompletionBatchResult) (req : CompletionRequest) : Bool :=
  (req.hasQueue && result.withQueueSucceeded) || (!req.hasQueue && result.withoutQueueSucceeded)

def withQueueIds (batch : List CompletionRequest) : List JobId :=
  (batch.filter fun req => req.hasQueue).map CompletionRequest.jobId

def withoutQueueIds (batch : List CompletionRequest) : List JobId :=
  (batch.filter fun req => !req.hasQueue).map CompletionRequest.jobId

/-- One group of a completion batch; an empty one issues no statement and reports no success. -/
def completeGroup (s : Session) (ids : List JobId) (st : Statement) : Session × Bool :=
  if ids.isEmpty then (s,false) else s.execute succeeds now st

def completeBatch (s : Session) (batch : List CompletionRequest) : Session × CompletionBatchResult :=
  let queued := completeGroup succeeds now s (withQueueIds batch)
    (.completeJobsWithQueues w (withQueueIds batch))
  let unqueued := completeGroup succeeds now queued.1 (withoutQueueIds batch)
    (.completeJobsWithoutQueues w (withoutQueueIds batch))
  (unqueued.1,⟨queued.2,unqueued.2⟩)

structure Flushed (α : Type) where
  session : Session
  woken : ℕ := 0
  observed : List α := []

def flushBatch (db : Db) (hasHooks : Bool) (batch : List CompletionRequest) : Flushed CompletionRequest :=
  if batch.isEmpty then { session := ⟨db,[]⟩ }
  else
    let result := completeBatch succeeds now w ⟨db,[]⟩ batch
    { session := result.1
      woken := (batch.filter fun req => req.hasQueue && result.2.persisted req).length
      observed := if hasHooks then batch.filter result.2.persisted else [] }

end Completion

section Failure
variable (succeeds : ℕ → Bool) (now : Time) (w : WorkerId)

def failJobDirect (req : FailedJob) : Statement := .failJob w req.job req.error none

def failEach : Session → List FailedJob → Session × List Bool
  | s, [] => (s,[])
  | s, req :: rest =>
    let one := s.execute succeeds now (failJobDirect w req)
    let others := failEach one.1 rest
    (others.1,one.2 :: others.2)

def persistFailureBatch (s : Session) (batch : List FailedJob) : Session × List Bool :=
  let all := s.execute succeeds now (.failJobs w batch)
  if all.2 then (all.1,List.replicate batch.length true) else failEach succeeds now w all.1 batch

def flushFailureBatch (db : Db) (hasHooks : Bool) (batch : List FailedJob) : Flushed FailedJob :=
  if batch.isEmpty then { session := ⟨db,[]⟩ }
  else
    let result := persistFailureBatch succeeds now w ⟨db,[]⟩ batch
    { session := result.1
      woken := ((batch.zip result.2).filter fun p => p.2 && p.1.job.jobQueueId.isSome).length
      observed := if hasHooks then ((batch.zip result.2).filter Prod.snd).map Prod.fst else [] }

end Failure

def PersistsCompletion (req : CompletionRequest) : Statement → Prop
  | .completeJobsWithQueues _ ids => req.hasQueue = true ∧ req.jobId ∈ ids
  | .completeJobsWithoutQueues _ ids => req.hasQueue = false ∧ req.jobId ∈ ids
  | .completeJobDirect _ own => own = req
  | _ => False

def PersistsFailure (req : FailedJob) : Statement → Prop
  | .failJobs _ jobs => req ∈ jobs
  | .failJob _ job message _ => job = req.job ∧ message = req.error
  | _ => False

def Accounted (log : List (Statement × Bool)) (persists : Statement → Prop) (own : Statement) : Prop :=
  (∃ st, (st,true) ∈ log ∧ persists st) ∨ (own,false) ∈ log

def statementIndex (batch : List CompletionRequest) (req : CompletionRequest) : ℕ :=
  if req.hasQueue || (withQueueIds batch).isEmpty then 0 else 1

variable {succeeds : ℕ → Bool} {now : Time} {w : WorkerId} {db : Db} {s : Session} {hasHooks : Bool}

section Completion
variable {batch : List CompletionRequest} {req : CompletionRequest} {st : Statement} {ids : List JobId}

theorem mem_withQueueIds (h : req ∈ batch) (hq : req.hasQueue = true) : req.jobId ∈ withQueueIds batch :=
  List.mem_map.mpr ⟨req,List.mem_filter.mpr ⟨h,hq⟩,rfl⟩

theorem mem_withoutQueueIds (h : req ∈ batch) (hq : req.hasQueue = false) :
    req.jobId ∈ withoutQueueIds batch :=
  List.mem_map.mpr ⟨req,List.mem_filter.mpr ⟨h,by simp [hq]⟩,rfl⟩

def completionLog (succeeds : ℕ → Bool) (w : WorkerId) (batch : List CompletionRequest) : List (Statement × Bool) :=
  (if (withQueueIds batch).isEmpty then []
    else [(.completeJobsWithQueues w (withQueueIds batch),succeeds 0)]) ++
  if (withoutQueueIds batch).isEmpty then []
  else [(.completeJobsWithoutQueues w (withoutQueueIds batch),
    succeeds (if (withQueueIds batch).isEmpty then 0 else 1))]

theorem log_completeBatch : (completeBatch succeeds now w ⟨db,[]⟩ batch).1.log = completionLog succeeds w batch := by
  unfold completeBatch completeGroup completionLog Session.execute
  dsimp only
  split <;> split <;> simp

theorem log_flushBatch : (flushBatch succeeds now w db hasHooks batch).session.log =
    completionLog succeeds w batch := by
  unfold flushBatch
  split
  · next he =>
    rw [List.isEmpty_iff.mp he]
    rfl
  · exact log_completeBatch

theorem mem_completionLog {ok : Bool} : (st,ok) ∈ completionLog succeeds w batch ↔
      (withQueueIds batch ≠ [] ∧ st = .completeJobsWithQueues w (withQueueIds batch) ∧ ok = succeeds 0) ∨
      (withoutQueueIds batch ≠ [] ∧ st = .completeJobsWithoutQueues w (withoutQueueIds batch) ∧
        ok = succeeds (if (withQueueIds batch).isEmpty then 0 else 1)) := by
  unfold completionLog
  rw [List.mem_append]
  refine or_congr ?_ ?_
  · cases withQueueIds batch with
    | nil => simp
    | cons i rest => simp
  · cases withoutQueueIds batch with
    | nil => simp
    | cons i rest => simp

theorem exists_persists_iff (h : req ∈ batch) :
    (∃ st, (st,true) ∈ completionLog succeeds w batch ∧ PersistsCompletion req st) ↔
      succeeds (statementIndex batch req) = true := by
  cases hq : req.hasQueue with
  | true =>
    have hm := mem_withQueueIds h hq
    have hx : statementIndex batch req = 0 := by simp [statementIndex,hq]
    rw [hx]
    constructor
    · rintro ⟨st,hst,hp⟩
      rcases mem_completionLog.mp hst with ⟨_,_,ho⟩ | ⟨_,rfl,_⟩
      · exact ho.symm
      · exact absurd hp.1 (by simp [hq])
    · intro hs
      exact ⟨_,mem_completionLog.mpr (.inl ⟨List.ne_nil_of_mem hm,rfl,hs.symm⟩),hq,hm⟩
  | false =>
    have hm := mem_withoutQueueIds h hq
    have hx : statementIndex batch req = if (withQueueIds batch).isEmpty then 0 else 1 := by
      simp [statementIndex,hq]
    rw [hx]
    constructor
    · rintro ⟨st,hst,hp⟩
      rcases mem_completionLog.mp hst with ⟨_,rfl,_⟩ | ⟨_,_,ho⟩
      · exact absurd hp.1 (by simp [hq])
      · exact ho.symm
    · intro hs
      exact ⟨_,mem_completionLog.mpr (.inr ⟨List.ne_nil_of_mem hm,rfl,hs.symm⟩),hq,hm⟩

/-- A completion is accounted for exactly when the statement that covers it
succeeds: there is no other one. -/
theorem accounted_completion_iff (h : req ∈ batch) :
    Accounted (completionLog succeeds w batch) (PersistsCompletion req) (.completeJobDirect w req) ↔
      succeeds (statementIndex batch req) = true := by
  have hown : (Statement.completeJobDirect w req,false) ∉ completionLog succeeds w batch := by
    rw [mem_completionLog]
    rintro (⟨_,he,_⟩ | ⟨_,he,_⟩) <;> cases he
  unfold Accounted
  rw [or_iff_left hown]
  exact exists_persists_iff h

end Completion

section Failure
variable {batch : List FailedJob} {req : FailedJob}

theorem failEach_log : s.log ⊆ (failEach succeeds now w s batch).1.log ∧
    ∀ req ∈ batch, ∃ ok, (failJobDirect w req,ok) ∈ (failEach succeeds now w s batch).1.log := by
  induction batch generalizing s with
  | nil => exact ⟨List.Subset.refl _,by simp⟩
  | cons one rest ih =>
    obtain ⟨hsub,hall⟩ := ih (s := (s.execute succeeds now (failJobDirect w one)).1)
    have hnew : s.log ++ [(failJobDirect w one,succeeds s.log.length)] ⊆
        (failEach succeeds now w s (one :: rest)).1.log := hsub
    refine ⟨fun e he => hnew (List.mem_append_left _ he),?_⟩
    intro req hreq
    rcases List.mem_cons.mp hreq with rfl | hreq
    · exact ⟨_,hnew (List.mem_append_right _ (List.mem_singleton_self _))⟩
    · exact hall req hreq

theorem accounted_failure (h : req ∈ batch) :
    Accounted (flushFailureBatch succeeds now w db hasHooks batch).session.log (PersistsFailure req)
      (failJobDirect w req) := by
  have hne : batch.isEmpty = false := by
    rw [List.isEmpty_eq_false_iff]
    exact List.ne_nil_of_mem h
  unfold flushFailureBatch persistFailureBatch
  rw [if_neg (by simp [hne])]
  dsimp only
  split
  · next hall =>
    refine .inl ⟨.failJobs w batch,?_,h⟩
    have hs : succeeds 0 = true := hall
    simp [Session.execute,hs]
  · obtain ⟨ok,hok⟩ := failEach_log.2 req h
    cases ok with
    | true => exact .inl ⟨_,hok,rfl,rfl⟩
    | false => exact .inr hok

theorem lockedAs_failEach {i : JobId} (h : lockedAs (failEach succeeds now w s batch).1.db w i = true) :
    lockedAs s.db w i = true ∧
      ∀ req ∈ batch, req.job.id = i → (failJobDirect w req,false) ∈ (failEach succeeds now w s batch).1.log := by
  induction batch generalizing s with
  | nil => exact ⟨h,by simp⟩
  | cons one rest ih =>
    obtain ⟨hrest,hall⟩ := ih (s := (s.execute succeeds now (failJobDirect w one)).1) h
    have hsub : (s.execute succeeds now (failJobDirect w one)).1.log ⊆
        (failEach succeeds now w (s.execute succeeds now (failJobDirect w one)).1 rest).1.log := failEach_log.1
    have hlog : s.log ++ [(failJobDirect w one,succeeds s.log.length)] ⊆
        (failEach succeeds now w s (one :: rest)).1.log := hsub
    cases hs : succeeds s.log.length with
    | true =>
      have hdb : (s.execute succeeds now (failJobDirect w one)).1.db =
          failJob s.db one.job w now one.error none := by
        simp [Session.execute,hs,failJobDirect,Statement.run]
      rw [hdb] at hrest
      obtain ⟨hold,hne⟩ := lockedAs_failJob hrest
      refine ⟨hold,?_⟩
      intro req hreq hid
      rcases List.mem_cons.mp hreq with rfl | hreq
      · exact absurd (List.mem_singleton.mpr hid.symm) hne
      · exact hall req hreq hid
    | false =>
      have hdb : (s.execute succeeds now (failJobDirect w one)).1.db = s.db := by
        simp [Session.execute,hs]
      rw [hdb] at hrest
      refine ⟨hrest,?_⟩
      intro req hreq hid
      rcases List.mem_cons.mp hreq with rfl | hreq
      · rw [hs] at hlog
        exact hlog (List.mem_append_right _ (List.mem_singleton_self _))
      · exact hall req hreq hid

/-- After a failure flush a job of the batch is locked by the worker only if the
statement for that job alone failed. -/
theorem lockedAs_flushFailureBatch (h : req ∈ batch)
    (hl : lockedAs (flushFailureBatch succeeds now w db hasHooks batch).session.db w req.job.id = true) :
    (failJobDirect w req,false) ∈ (flushFailureBatch succeeds now w db hasHooks batch).session.log := by
  have hne : batch.isEmpty = false := by
    rw [List.isEmpty_eq_false_iff]
    exact List.ne_nil_of_mem h
  unfold flushFailureBatch persistFailureBatch at hl ⊢
  rw [if_neg (by simp [hne])] at hl ⊢
  dsimp only at hl ⊢
  split at hl
  · next hall =>
    have hs : succeeds 0 = true := hall
    have hdb : lockedAs (failJobs db batch w now) w req.job.id = true := by
      simpa [Session.execute,hs,Statement.run] using hl
    exact absurd (List.mem_map.mpr ⟨req,h,rfl⟩) (lockedAs_failJobs hdb).2
  · next hall =>
    rw [if_neg hall]
    exact (lockedAs_failEach hl).2 req h rfl

end Failure

/-- A completion is accounted for exactly when the statement that covers it succeeded; a failure always
is, and its job is still locked only if the statement for it alone failed. -/
theorem flush_accounts_iff (succeeds : ℕ → Bool) (now : Time) (w : WorkerId) (db : Db) (hasHooks : Bool) :
    (∀ batch : List CompletionRequest, ∀ req ∈ batch,
      (Accounted (flushBatch succeeds now w db hasHooks batch).session.log (PersistsCompletion req)
        (.completeJobDirect w req) ↔ succeeds (statementIndex batch req) = true)) ∧
    ∀ batch : List FailedJob, ∀ req ∈ batch,
      Accounted (flushFailureBatch succeeds now w db hasHooks batch).session.log (PersistsFailure req)
        (failJobDirect w req) ∧
      (lockedAs (flushFailureBatch succeeds now w db hasHooks batch).session.db w req.job.id = true →
        (failJobDirect w req,false) ∈ (flushFailureBatch succeeds now w db hasHooks batch).session.log) := by
  constructor
  · intro batch req h
    rw [log_flushBatch]
    exact accounted_completion_iff h
  · intro batch req h
    exact ⟨accounted_failure h,lockedAs_flushFailureBatch h⟩

def twoClaimed : Db :=
  after [(0,.addJobs [⟨"task",.null,{ queueName := some "q" }⟩,⟨"task",.null,{}⟩] false none),
    (1,.batchGetJobsWithFilter "a" [1] .unrestricted 2)]

theorem both_groups_persisted :
    (∀ req ∈ [(⟨1,true⟩ : CompletionRequest),⟨2,false⟩],
      Accounted (flushBatch (fun _ => true) 2 "a" twoClaimed false [⟨1,true⟩,⟨2,false⟩]).session.log
        (PersistsCompletion req) (.completeJobDirect "a" req)) ∧
    (flushBatch (fun _ => true) 2 "a" twoClaimed false [⟨1,true⟩,⟨2,false⟩]).session.db.jobs.rows = [] :=
  ⟨fun req h => ((flush_accounts_iff (fun _ => true) 2 "a" twoClaimed false).1 _ req h).mpr rfl,rfl⟩

/-- The first statement fails: no statement for the queued job alone is issued, and its queue stays locked. -/
theorem queued_completion_dropped :
    let flushed := flushBatch (fun k => k != 0) 2 "a" twoClaimed false [⟨1,true⟩,⟨2,false⟩]
    flushed.session.log.map Prod.snd = [false,true] ∧
    flushed.session.db.jobs.rows.map (fun r => (r.id,r.lockedBy)) = [(1,some "a")] ∧
    flushed.session.db.jobQueues.rows.map JobQueue.lockedBy = [some "a"] ∧
    ¬Accounted flushed.session.log (PersistsCompletion ⟨1,true⟩) (.completeJobDirect "a" ⟨1,true⟩) := by
  refine ⟨by decide,by decide,by decide,?_⟩
  rw [log_flushBatch,accounted_completion_iff List.mem_cons_self]
  decide

end GraphileWorker.Batcher
