import GraphileWorker.Batcher.Flush
import Mathlib.Data.Set.Card

/-! # Hooks and wakeups

Both batchers persist first, then report the released queues to `QueueWakeup`, then run
the hooks. A request is known by its place in the batch: two requests may be equal.
-/
namespace GraphileWorker.Batcher
open Foundation Database

structure FailureRequest extends FailedJob where
  willRetry : Bool

inductive OutcomeHook where
  | jobComplete (w : WorkerId) (req : CompletionRequest)
  | jobFail (w : WorkerId) (job : Job) (error : String)
  | jobPermanentlyFail (w : WorkerId) (job : Job) (error : String)

inductive Event where
  | statement (st : Statement) (acknowledged : Bool)
  | wake (count : ℕ)
  | emit (k : ℕ) (hook : OutcomeHook)

def failureHook (w : WorkerId) (req : FailureRequest) : OutcomeHook :=
  if req.willRetry then .jobFail w req.job req.error else .jobPermanentlyFail w req.job req.error

def statements (log : List (Statement × Bool)) : List Event := log.map fun e => .statement e.1 e.2

def hooksOf {α : Type} (hook : α → OutcomeHook) (outcomes : List (α × Bool)) : List Event :=
  (outcomes.zipIdx.filter fun o => o.1.2).map fun o => .emit o.2 (hook o.1.1)

def report {α : Type} (hasHooks : Bool) (named : α → Bool) (hook : α → OutcomeHook) (outcomes : List (α × Bool)) :
    List Event :=
  .wake (outcomes.filter fun o => o.2 && named o.1).length :: if hasHooks then hooksOf hook outcomes else []

section Handlers
variable (succeeds : ℕ → Bool) (now : Time) (w : WorkerId) (db : Db) (hasHooks : Bool)

def flushBatchEvents (batch : List CompletionRequest) : List Event :=
  if batch.isEmpty then []
  else
    let result := completeBatch succeeds now w ⟨db,[]⟩ batch
    statements result.1.log ++ report hasHooks CompletionRequest.hasQueue (.jobComplete w)
      (batch.map fun req => (req,result.2.persisted req))

def flushFailureBatchEvents (batch : List FailureRequest) : List Event :=
  if batch.isEmpty then []
  else
    let result := persistFailureBatch succeeds now w ⟨db,[]⟩ (batch.map FailureRequest.toFailedJob)
    statements result.1.log ++ report hasHooks (fun req => req.job.jobQueueId.isSome) (failureHook w)
      (batch.zip result.2)

/-- What `complete` and `fail` do with a request that the closed channel gives back. -/
def directEvents (st : Statement) (named : Bool) (hook : OutcomeHook) : List Event :=
  let persisted := Session.execute succeeds now ⟨db,[]⟩ st
  statements persisted.1.log ++
    if persisted.2 then (if named then [.wake 1] else []) ++ if hasHooks then [.emit 0 hook] else [] else []

def completeEvents (req : CompletionRequest) : List Event :=
  directEvents succeeds now db hasHooks (.completeJobDirect w req) req.hasQueue (.jobComplete w req)

def failEvents (req : FailureRequest) : List Event :=
  directEvents succeeds now db hasHooks (failJobDirect w req.toFailedJob) req.job.jobQueueId.isSome (failureHook w req)

end Handlers

def woken : List Event → ℕ
  | [] => 0
  | .wake count :: rest => count + woken rest
  | .statement .. :: rest => woken rest
  | .emit .. :: rest => woken rest

section Observed
variable {α : Type} (requests : List α) (named : α → Bool) (hook : α → OutcomeHook)
  (covers : ℕ → Statement → ℕ → α → Prop) (hasHooks : Bool) (events : List Event)

/-- A statement issued for the `k`-th request was acknowledged before event `i`. -/
def AcknowledgedBefore (i k : ℕ) (req : α) : Prop :=
  ∃ j < i, ∃ st, events[j]? = some (.statement st true) ∧ covers j st k req

def Acknowledged (k : ℕ) (req : α) : Prop := AcknowledgedBefore covers events events.length k req

structure FollowsPersistence : Prop where
  once : ∀ (k i i' : ℕ) (h h' : OutcomeHook), events[i]? = some (.emit k h) →
    events[i']? = some (.emit k h') → i = i'
  after : ∀ (k i : ℕ) (h : OutcomeHook), events[i]? = some (.emit k h) →
    ∃ req, requests[k]? = some req ∧ h = hook req ∧ AcknowledgedBefore covers events i k req
  emitted : hasHooks = true → ∀ (k : ℕ) (req : α), requests[k]? = some req → Acknowledged covers events k req →
    ∃ i : ℕ, events[i]? = some (.emit k (hook req))
  wakes : woken events =
    {k | ∃ req, requests[k]? = some req ∧ named req = true ∧ Acknowledged covers events k req}.ncard

end Observed

/-- The statement was issued for this failure: the batch statement with the request at its
place, or the fallback, whose statements follow in the order of the batch. -/
def CoversFailure (w : WorkerId) (j : ℕ) (st : Statement) (k : ℕ) (req : FailureRequest) : Prop :=
  (∃ jobs, st = .failJobs w jobs ∧ jobs[k]? = some req.toFailedJob) ∨
    (st = failJobDirect w req.toFailedJob ∧ j = k + 1)

section Shape
variable {α : Type} {named : α → Bool} {hook : α → OutcomeHook} {covers : ℕ → Statement → ℕ → α → Prop}
  {hasHooks : Bool} {log : List (Statement × Bool)} {st : Statement} {h : OutcomeHook}

@[simp] theorem length_statements : (statements log).length = log.length := List.length_map _

theorem getElem?_statements {i : ℕ} {ok : Bool} :
    (statements log)[i]? = some (.statement st ok) ↔ log[i]? = some (st,ok) := by
  unfold statements
  rw [List.getElem?_map,Option.map_eq_some_iff]
  constructor
  · rintro ⟨e,he,heq⟩
    cases heq
    exact he
  · intro h
    exact ⟨_,h,rfl⟩

theorem woken_statements {rest : List Event} : woken (statements log ++ rest) = woken rest := by
  induction log with
  | nil => rfl
  | cons e log ih => exact ih

theorem woken_hooksOf {outcomes : List (α × Bool)} : woken (hooksOf hook outcomes) = 0 := by
  unfold hooksOf
  induction outcomes.zipIdx.filter fun o => o.1.2 with
  | nil => rfl
  | cons o rest ih => exact ih

theorem getElem?_hooksOf {outcomes : List (α × Bool)} {m k : ℕ}
    (hm : (hooksOf hook outcomes)[m]? = some (.emit k h)) : ∃ req, outcomes[k]? = some (req,true) ∧ h = hook req ∧
      ((outcomes.zipIdx.filter fun o => o.1.2).map Prod.snd)[m]? = some k := by
  unfold hooksOf at hm
  rw [List.getElem?_map,Option.map_eq_some_iff] at hm
  obtain ⟨⟨⟨req,ok⟩,i⟩,ho,heq⟩ := hm
  cases heq
  obtain ⟨hmem,hok⟩ := List.mem_filter.mp (List.mem_of_getElem? ho)
  cases (hok : ok = true)
  refine ⟨req,List.mem_zipIdx_iff_getElem?.mp hmem,rfl,?_⟩
  rw [List.getElem?_map,ho]
  rfl

theorem nodup_places {outcomes : List (α × Bool)} (p : (α × Bool) × ℕ → Bool) :
    ((outcomes.zipIdx.filter p).map Prod.snd).Nodup := by
  have hsub : ((outcomes.zipIdx.filter p).map Prod.snd).Sublist (outcomes.zipIdx.map Prod.snd) :=
    List.filter_sublist.map _
  refine hsub.nodup ?_
  rw [List.zipIdx_map_snd]
  exact List.nodup_range'

theorem length_places {outcomes : List (α × Bool)} (p : α × Bool → Bool) :
    ((outcomes.zipIdx.filter fun o => p o.1).map Prod.snd).length = (outcomes.filter p).length := by
  have hfst : (outcomes.zipIdx.filter fun o => p o.1).map Prod.fst = outcomes.filter p := by
    conv_rhs => rw [← List.zipIdx_map_fst 0 outcomes,List.filter_map]
    rfl
  rw [List.length_map,← hfst,List.length_map]

theorem ncard_places {outcomes : List (α × Bool)} {p : α × Bool → Bool} {S : Set ℕ}
    (h : ∀ k, k ∈ S ↔ ∃ o, outcomes[k]? = some o ∧ p o = true) : S.ncard = (outcomes.filter p).length := by
  have hS : S = ((outcomes.zipIdx.filter fun o => p o.1).map Prod.snd).toFinset := by
    ext k
    rw [h,Finset.mem_coe,List.mem_toFinset,List.mem_map]
    constructor
    · rintro ⟨o,ho,hp⟩
      exact ⟨(o,k),List.mem_filter.mpr ⟨List.mem_zipIdx_iff_getElem?.mpr ho,hp⟩,rfl⟩
    · rintro ⟨⟨o,i⟩,ho,rfl⟩
      obtain ⟨hmem,hp⟩ := List.mem_filter.mp ho
      exact ⟨o,List.mem_zipIdx_iff_getElem?.mp hmem,hp⟩
  rw [hS,Set.ncard_coe_finset,List.toFinset_card_of_nodup (nodup_places _),length_places]

def eventsOf (hasHooks : Bool) (hook : α → OutcomeHook) (log : List (Statement × Bool)) (counts : List ℕ)
    (outcomes : List (α × Bool)) : List Event :=
  statements log ++ (counts.map .wake ++ if hasHooks then hooksOf hook outcomes else [])

variable {counts : List ℕ} {outcomes : List (α × Bool)}

theorem report_eq_eventsOf : statements log ++ report hasHooks named hook outcomes =
    eventsOf hasHooks hook log [(outcomes.filter fun o => o.2 && named o.1).length] outcomes := rfl

theorem woken_eventsOf : woken (eventsOf hasHooks hook log counts outcomes) = counts.sum := by
  have hrest : woken (if hasHooks then hooksOf hook outcomes else []) = 0 := by
    split
    · exact woken_hooksOf
    · rfl
  unfold eventsOf
  rw [woken_statements]
  induction counts with
  | nil => exact hrest
  | cons count rest ih => rw [List.sum_cons,← ih]; rfl

theorem statement_eventsOf {j : ℕ} {ok : Bool} :
    (eventsOf hasHooks hook log counts outcomes)[j]? = some (.statement st ok) ↔ log[j]? = some (st,ok) := by
  unfold eventsOf
  by_cases hj : j < (statements log).length
  · rw [List.getElem?_append_left hj,getElem?_statements]
  · have hnone : log[j]? = none := List.getElem?_eq_none (by simpa using hj)
    rw [hnone]
    refine ⟨fun h => ?_,nofun⟩
    rw [List.getElem?_append_right (by omega)] at h
    rcases List.mem_append.mp (List.mem_of_getElem? h) with hm | hm
    · obtain ⟨count,-,he⟩ := List.mem_map.mp hm
      cases he
    · split at hm
      · obtain ⟨o,-,he⟩ := List.mem_map.mp hm
        cases he
      · cases hm

theorem emit_eventsOf {i k : ℕ} (hi : (eventsOf hasHooks hook log counts outcomes)[i]? = some (.emit k h)) :
    hasHooks = true ∧ ∃ m, i = log.length + (counts.length + m) ∧ (hooksOf hook outcomes)[m]? = some (.emit k h) := by
  unfold eventsOf at hi
  have hlog : log.length ≤ i := by
    by_contra hlt
    rw [List.getElem?_append_left (by simpa using hlt)] at hi
    obtain ⟨e,-,he⟩ := List.mem_map.mp (List.mem_of_getElem? hi)
    cases he
  rw [List.getElem?_append_right (by simpa using hlog),length_statements] at hi
  have hcounts : counts.length ≤ i - log.length := by
    by_contra hlt
    rw [List.getElem?_append_left (by simpa using hlt)] at hi
    obtain ⟨e,-,he⟩ := List.mem_map.mp (List.mem_of_getElem? hi)
    cases he
  rw [List.getElem?_append_right (by simpa using hcounts),List.length_map] at hi
  split at hi
  · next hh => exact ⟨hh,i - log.length - counts.length,by omega,hi⟩
  · cases hi

theorem getElem?_eventsOf_emit {m : ℕ} (hh : hasHooks = true) :
    (eventsOf hasHooks hook log counts outcomes)[log.length + (counts.length + m)]? = (hooksOf hook outcomes)[m]? := by
  unfold eventsOf
  rw [List.getElem?_append_right (by simp),List.getElem?_append_right (by simp),if_pos hh]
  congr 1
  simp

theorem follows_eventsOf {requests : List α} (hreq : outcomes.map Prod.fst = requests)
    (hcount : counts.sum = (outcomes.filter fun o => o.2 && named o.1).length)
    (hack : ∀ k req ok, outcomes[k]? = some (req,ok) →
      (ok = true ↔ ∃ j st, log[j]? = some (st,true) ∧ covers j st k req)) :
    FollowsPersistence requests named hook covers hasHooks (eventsOf hasHooks hook log counts outcomes) := by
  have hrequest : ∀ (k : ℕ) (req : α), requests[k]? = some req ↔ ∃ ok, outcomes[k]? = some (req,ok) := by
    intro k req
    rw [← hreq,List.getElem?_map,Option.map_eq_some_iff]
    constructor
    · rintro ⟨⟨r,ok⟩,ho,rfl⟩
      exact ⟨ok,ho⟩
    · rintro ⟨ok,ho⟩
      exact ⟨_,ho,rfl⟩
  have hbefore : ∀ (i k : ℕ) (req : α), log.length ≤ i → outcomes[k]? = some (req,true) →
      AcknowledgedBefore covers (eventsOf hasHooks hook log counts outcomes) i k req := by
    intro i k req hi ho
    obtain ⟨j,st,hj,hc⟩ := (hack k req true ho).mp rfl
    exact ⟨j,(List.getElem?_eq_some_iff.mp hj).1.trans_le hi,st,statement_eventsOf.mpr hj,hc⟩
  have hknown : ∀ (k : ℕ) (req : α) (ok : Bool), outcomes[k]? = some (req,ok) →
      (Acknowledged covers (eventsOf hasHooks hook log counts outcomes) k req ↔ ok = true) := by
    intro k req ok ho
    constructor
    · rintro ⟨j,-,st,hj,hc⟩
      exact (hack k req ok ho).mpr ⟨j,st,statement_eventsOf.mp hj,hc⟩
    · rintro rfl
      exact hbefore _ k req (by simp [eventsOf]) ho
  refine ⟨?_,?_,?_,?_⟩
  · intro k i i' h h' hi hi'
    obtain ⟨-,m,rfl,hm⟩ := emit_eventsOf hi
    obtain ⟨-,m',rfl,hm'⟩ := emit_eventsOf hi'
    obtain ⟨-,-,-,hplace⟩ := getElem?_hooksOf hm
    obtain ⟨-,-,-,hplace'⟩ := getElem?_hooksOf hm'
    have hlt := (List.getElem?_eq_some_iff.mp hplace).1
    rw [(List.getElem?_inj hlt (nodup_places _)).mp (hplace.trans hplace'.symm)]
  · intro k i h hi
    obtain ⟨-,m,rfl,hm⟩ := emit_eventsOf hi
    obtain ⟨req,ho,rfl,-⟩ := getElem?_hooksOf hm
    exact ⟨req,(hrequest k req).mpr ⟨true,ho⟩,rfl,hbefore _ k req (by omega) ho⟩
  · intro hh k req hk ha
    obtain ⟨ok,ho⟩ := (hrequest k req).mp hk
    cases (hknown k req ok ho).mp ha
    have hmem : Event.emit k (hook req) ∈ hooksOf hook outcomes :=
      List.mem_map.mpr ⟨((req,true),k),List.mem_filter.mpr ⟨List.mem_zipIdx_iff_getElem?.mpr ho,rfl⟩,rfl⟩
    obtain ⟨m,hm⟩ := List.mem_iff_getElem?.mp hmem
    exact ⟨_,(getElem?_eventsOf_emit hh).trans hm⟩
  · rw [woken_eventsOf,hcount]
    refine (ncard_places fun k => ?_).symm
    constructor
    · rintro ⟨req,hk,hn,ha⟩
      obtain ⟨ok,ho⟩ := (hrequest k req).mp hk
      exact ⟨(req,ok),ho,by simp [(hknown k req ok ho).mp ha,hn]⟩
    · rintro ⟨⟨req,ok⟩,ho,hp⟩
      obtain ⟨hok,hn⟩ := Bool.and_eq_true_iff.mp hp
      exact ⟨req,(hrequest k req).mpr ⟨ok,ho⟩,hn,(hknown k req ok ho).mpr hok⟩

end Shape

variable {succeeds : ℕ → Bool} {now : Time} {w : WorkerId} {db : Db} {hasHooks : Bool}
  {batch : List CompletionRequest}

theorem persisted_eq {req : CompletionRequest} (h : req ∈ batch) :
    (completeBatch succeeds now w ⟨db,[]⟩ batch).2.persisted req = succeeds (statementIndex batch req) := by
  unfold CompletionBatchResult.persisted completeBatch completeGroup statementIndex
  cases hq : req.hasQueue with
  | true =>
    have hne : (withQueueIds batch).isEmpty = false := by
      rw [List.isEmpty_eq_false_iff]
      exact List.ne_nil_of_mem (mem_withQueueIds h hq)
    simp [hne,Session.execute]
  | false =>
    have hne : (withoutQueueIds batch).isEmpty = false := by
      rw [List.isEmpty_eq_false_iff]
      exact List.ne_nil_of_mem (mem_withoutQueueIds h hq)
    cases hw : (withQueueIds batch).isEmpty with
    | true => simp [hne,Session.execute]
    | false => simp [hne,Session.execute]

theorem follows_flushBatch (batch : List CompletionRequest) :
    FollowsPersistence batch CompletionRequest.hasQueue (.jobComplete w) (fun _ st _ req => PersistsCompletion req st)
      hasHooks (flushBatchEvents succeeds now w db hasHooks batch) := by
  unfold flushBatchEvents
  split
  · next he =>
    rw [List.isEmpty_iff.mp he]
    refine ⟨?_,?_,?_,?_⟩ <;> simp [woken]
  · dsimp only
    rw [report_eq_eventsOf]
    refine follows_eventsOf ?_ List.sum_singleton ?_
    · rw [List.map_map]
      exact List.map_id _
    · intro k req ok ho
      rw [List.getElem?_map,Option.map_eq_some_iff] at ho
      obtain ⟨own,hk,heq⟩ := ho
      cases heq
      have hmem : req ∈ batch := List.mem_of_getElem? hk
      rw [persisted_eq hmem,← exists_persists_iff (w := w) hmem,log_completeBatch]
      constructor
      · rintro ⟨st,hst,hp⟩
        obtain ⟨j,hj⟩ := List.mem_iff_getElem?.mp hst
        exact ⟨j,st,hj,hp⟩
      · rintro ⟨j,st,hj,hp⟩
        exact ⟨st,List.mem_of_getElem? hj,hp⟩

theorem failEach_eq {batch : List FailedJob} {s : Session} :
    (failEach succeeds now w s batch).1.log =
      s.log ++ (batch.zipIdx s.log.length).map (fun p => (failJobDirect w p.1,succeeds p.2)) ∧
    (failEach succeeds now w s batch).2 = (batch.zipIdx s.log.length).map fun p => succeeds p.2 := by
  induction batch generalizing s with
  | nil => simp [failEach]
  | cons req rest ih =>
    obtain ⟨hlog,hanswers⟩ := ih (s := (s.execute succeeds now (failJobDirect w req)).1)
    have hlen : (s.execute succeeds now (failJobDirect w req)).1.log.length = s.log.length + 1 := by
      simp [Session.execute]
    rw [hlen] at hlog hanswers
    constructor
    · refine hlog.trans ?_
      simp [Session.execute]
    · rw [List.zipIdx_cons,List.map_cons,← hanswers]
      rfl

theorem getElem?_failed {batch : List FailureRequest} {k : ℕ} {req : FailureRequest} (hk : batch[k]? = some req) :
    (batch.map FailureRequest.toFailedJob)[k]? = some req.toFailedJob := by
  rw [List.getElem?_map,hk]
  rfl

variable (now w db) in
theorem persistFailureBatch_ok (batch : List FailedJob) (h : succeeds 0 = true) :
    (persistFailureBatch succeeds now w ⟨db,[]⟩ batch).1.log = [(.failJobs w batch,true)] ∧
    (persistFailureBatch succeeds now w ⟨db,[]⟩ batch).2 = List.replicate batch.length true := by
  simp [persistFailureBatch,Session.execute,h]

variable (now w db) in
theorem persistFailureBatch_fallback (batch : List FailedJob) (h : succeeds 0 = false) :
    (persistFailureBatch succeeds now w ⟨db,[]⟩ batch).1.log =
      (.failJobs w batch,false) :: (batch.zipIdx 1).map (fun p => (failJobDirect w p.1,succeeds p.2)) ∧
    (persistFailureBatch succeeds now w ⟨db,[]⟩ batch).2 = (batch.zipIdx 1).map fun p => succeeds p.2 := by
  have hone : persistFailureBatch succeeds now w ⟨db,[]⟩ batch =
      failEach succeeds now w ⟨db,[(.failJobs w batch,false)]⟩ batch := by
    simp [persistFailureBatch,Session.execute,h]
  rw [hone]
  exact failEach_eq

theorem follows_flushFailureBatch (batch : List FailureRequest) :
    FollowsPersistence batch (fun req => req.job.jobQueueId.isSome) (failureHook w) (CoversFailure w) hasHooks
      (flushFailureBatchEvents succeeds now w db hasHooks batch) := by
  unfold flushFailureBatchEvents
  split
  · next he =>
    rw [List.isEmpty_iff.mp he]
    refine ⟨?_,?_,?_,?_⟩ <;> simp [woken]
  · cases h0 : succeeds 0 with
    | true =>
      obtain ⟨hlog,hanswers⟩ :=
        persistFailureBatch_ok now w db (batch.map FailureRequest.toFailedJob) h0
      dsimp only
      rw [hlog,hanswers,report_eq_eventsOf]
      refine follows_eventsOf ?_ List.sum_singleton ?_
      · rw [List.map_fst_zip]
        simp
      · intro k req ok ho
        obtain ⟨hk,hok⟩ := List.getElem?_zip_eq_some.mp ho
        have htrue : ok = true := List.eq_of_mem_replicate (List.mem_of_getElem? hok)
        refine iff_of_true htrue ⟨0,_,rfl,.inl ⟨_,rfl,getElem?_failed hk⟩⟩
    | false =>
      obtain ⟨hlog,hanswers⟩ :=
        persistFailureBatch_fallback now w db (batch.map FailureRequest.toFailedJob) h0
      dsimp only
      rw [hlog,hanswers,report_eq_eventsOf]
      refine follows_eventsOf ?_ List.sum_singleton ?_
      · rw [List.map_fst_zip]
        simp
      · intro k req ok ho
        obtain ⟨hk,hok⟩ := List.getElem?_zip_eq_some.mp ho
        have hfailed := getElem?_failed hk
        have hanswer : succeeds (1 + k) = ok := by
          simpa [List.getElem?_zipIdx,hfailed] using hok
        have hstatement : (((batch.map FailureRequest.toFailedJob).zipIdx 1).map
            fun p => (failJobDirect w p.1,succeeds p.2))[k]? = some (failJobDirect w req.toFailedJob,ok) := by
          simp [List.getElem?_zipIdx,hfailed,hanswer]
        constructor
        · rintro rfl
          exact ⟨k + 1,_,hstatement,.inr ⟨rfl,rfl⟩⟩
        · rintro ⟨j,st,hj,⟨jobs,rfl,-⟩ | ⟨rfl,rfl⟩⟩
          · -- the batch statement was not acknowledged, and no other one is for a batch
            rcases List.mem_cons.mp (List.mem_of_getElem? hj) with he | he
            · cases he
            · obtain ⟨p,-,he⟩ := List.mem_map.mp he
              cases he
          · rw [List.getElem?_cons_succ,hstatement] at hj
            cases hj
            rfl

theorem follows_directEvents {α : Type} (named : α → Bool) (hook : α → OutcomeHook)
    (covers : ℕ → Statement → ℕ → α → Prop) {st : Statement} {req : α} (hc : covers 0 st 0 req) :
    FollowsPersistence [req] named hook covers hasHooks
      (directEvents succeeds now db hasHooks st (named req) (hook req)) := by
  have hevents : directEvents succeeds now db hasHooks st (named req) (hook req) =
      eventsOf hasHooks hook [(st,succeeds 0)] (if succeeds 0 && named req then [1] else []) [(req,succeeds 0)] := by
    unfold directEvents eventsOf
    cases h0 : succeeds 0 with
    | true => cases hn : named req <;> simp [Session.execute,hooksOf,h0]
    | false => simp [Session.execute,hooksOf,h0]
  rw [hevents]
  refine follows_eventsOf rfl ?_ ?_
  · cases h : succeeds 0 && named req <;> simp [h]
  · intro k own ok ho
    have hk : k = 0 := by simpa using (List.getElem?_eq_some_iff.mp ho).1
    subst hk
    cases ho
    constructor
    · intro h0
      exact ⟨0,st,by simp [h0],hc⟩
    · rintro ⟨j,st',hj,-⟩
      have hmem := List.mem_singleton.mp (List.mem_of_getElem? hj)
      exact (congrArg Prod.snd hmem).symm

def Event.issued : Event → Option (Statement × Bool)
  | .statement st ok => some (st,ok)
  | _ => none

def Event.emitted : Event → Option OutcomeHook
  | .emit _ hook => some hook
  | _ => none

section Report
variable {α : Type} {log : List (Statement × Bool)} {named : α → Bool} {hook : α → OutcomeHook}
  {outcomes : List (α × Bool)}

theorem issued_report : (statements log ++ report hasHooks named hook outcomes).filterMap Event.issued = log := by
  have hstatements : (statements log).filterMap Event.issued = log := by
    rw [statements,List.filterMap_map]
    exact List.filterMap_some
  have hhooks : (hooksOf hook outcomes).filterMap Event.issued = [] := by
    simp [hooksOf,Event.issued]
  rw [List.filterMap_append,hstatements]
  cases hasHooks with
  | true =>
    show log ++ (hooksOf hook outcomes).filterMap Event.issued = log
    rw [hhooks,List.append_nil]
  | false => exact List.append_nil log

theorem emitted_report : (statements log ++ report hasHooks named hook outcomes).filterMap Event.emitted =
    if hasHooks then (outcomes.filter Prod.snd).map fun o => hook o.1 else [] := by
  have hstatements : (statements log).filterMap Event.emitted = [] := by
    simp [statements,Event.emitted]
  have hhooks : (hooksOf hook outcomes).filterMap Event.emitted = (outcomes.filter Prod.snd).map fun o => hook o.1 := by
    rw [hooksOf,List.filterMap_map,← List.zipIdx_map_fst 0 outcomes,List.filter_map,List.map_map,
      List.zipIdx_map_fst]
    exact congrFun List.filterMap_eq_map _
  rw [List.filterMap_append,hstatements]
  cases hasHooks with
  | true => exact hhooks
  | false => rfl

end Report

/-- The events of a flush are the statements, the wakeup and the hooks of `flushBatch`. -/
theorem flushBatchEvents_eq (batch : List CompletionRequest) :
    let events := flushBatchEvents succeeds now w db hasHooks batch
    let flushed := flushBatch succeeds now w db hasHooks batch
    events.filterMap Event.issued = flushed.session.log ∧ woken events = flushed.woken ∧
      events.filterMap Event.emitted = flushed.observed.map (.jobComplete w) := by
  unfold flushBatchEvents flushBatch
  split
  · exact ⟨rfl,rfl,rfl⟩
  · dsimp only
    rw [issued_report,emitted_report,report_eq_eventsOf,woken_eventsOf,List.sum_singleton]
    refine ⟨rfl,?_,?_⟩
    · rw [List.filter_map,List.length_map]
      exact congrArg List.length (List.filter_congr fun req _ => Bool.and_comm ..)
    · rw [List.filter_map,List.map_map]
      cases hasHooks <;> rfl

theorem flushFailureBatchEvents_eq (batch : List FailureRequest) :
    let events := flushFailureBatchEvents succeeds now w db hasHooks batch
    let flushed := flushFailureBatch succeeds now w db hasHooks (batch.map FailureRequest.toFailedJob)
    events.filterMap Event.issued = flushed.session.log ∧ woken events = flushed.woken ∧
      ∃ observed : List FailureRequest, flushed.observed = observed.map FailureRequest.toFailedJob ∧
        events.filterMap Event.emitted = observed.map (failureHook w) := by
  unfold flushFailureBatchEvents flushFailureBatch
  rw [List.isEmpty_map]
  split
  · exact ⟨rfl,rfl,[],rfl,rfl⟩
  · dsimp only
    rw [issued_report,emitted_report,report_eq_eventsOf,woken_eventsOf,List.sum_singleton,List.zip_map_left]
    rw [List.filter_map,List.filter_map,List.length_map,List.map_map]
    refine ⟨rfl,rfl,?_⟩
    generalize (persistFailureBatch succeeds now w ⟨db,[]⟩ (batch.map FailureRequest.toFailedJob)).2 = answers
    cases hasHooks with
    | true =>
      refine ⟨((batch.zip answers).filter Prod.snd).map Prod.fst,?_,?_⟩
      · rw [List.map_map]
        rfl
      · rw [List.map_map]
        rfl
    | false => exact ⟨[],rfl,rfl⟩

/-- Whatever statements fail, the hooks and the wakeups follow what was acknowledged. -/
theorem observers_follow_persistence (succeeds : ℕ → Bool) (now : Time) (w : WorkerId) (db : Db) (hasHooks : Bool) :
    (∀ batch : List CompletionRequest,
      FollowsPersistence batch CompletionRequest.hasQueue (.jobComplete w)
        (fun _ st _ req => PersistsCompletion req st) hasHooks
        (flushBatchEvents succeeds now w db hasHooks batch)) ∧
    (∀ batch : List FailureRequest,
      FollowsPersistence batch (fun req => req.job.jobQueueId.isSome) (failureHook w) (CoversFailure w) hasHooks
        (flushFailureBatchEvents succeeds now w db hasHooks batch)) ∧
    (∀ req : CompletionRequest,
      FollowsPersistence [req] CompletionRequest.hasQueue (.jobComplete w)
        (fun _ st _ req => PersistsCompletion req st) hasHooks (completeEvents succeeds now w db hasHooks req)) ∧
    ∀ req : FailureRequest,
      FollowsPersistence [req] (fun req => req.job.jobQueueId.isSome) (failureHook w)
        (fun _ st _ req => st = failJobDirect w req.toFailedJob) hasHooks
        (failEvents succeeds now w db hasHooks req) := by
  refine ⟨follows_flushBatch,follows_flushFailureBatch,?_,?_⟩
  · intro req
    exact follows_directEvents CompletionRequest.hasQueue (.jobComplete w)
      (fun _ st _ req => PersistsCompletion req st) rfl
  · intro req
    exact follows_directEvents (fun req => req.job.jobQueueId.isSome) (failureHook w)
      (fun _ st _ req => st = failJobDirect w req.toFailedJob) rfl

end GraphileWorker.Batcher
