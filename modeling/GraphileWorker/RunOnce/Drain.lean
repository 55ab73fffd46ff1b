import GraphileWorker.RunOnce.Outcomes

/-! # A run drains the ready jobs

`DrainInv` lasts when the outcome of a queued job is persisted before its slot fetches again, or
no ready job waits in its queue. `Troubled` is kept until a run returns its error.
-/
namespace GraphileWorker.RunOnce
open Foundation Database

def Query.jobs : Query → List Job
  | .executed (some c) => [c.job]
  | _ => []

def Stream.jobs : Stream → List Job
  | .fetching query => query.jobs
  | _ => []

/-- The stream will not find another job. -/
def Stream.drained : Stream → Prop
  | .ended | .fetching (.executed none) => True
  | _ => False

/-- The claims of a slot without a reported outcome. -/
def Slot.unreported : Slot → List Job
  | .starting c | .running c => [c.job]
  | .fetching _ query => query.jobs
  | _ => []

/-- The claim after which the slot will fetch again. -/
def Slot.holder : Slot → List Job
  | .starting c | .running c | .released c | .reading c | .fetching c .issued => [c.job]
  | .fetching _ query => query.jobs
  | .returning _ => []

/-- No fetch of the slot has failed and it does not return its claim. -/
def Slot.calm : Slot → Bool
  | .returning _ | .fetching _ .failed => false
  | _ => true

def pendingIds (s : State) : List JobId :=
  (s.stream.jobs ++ s.slots.flatMap Slot.unreported).map Job.id ++ s.queued.map CompletionRequest.jobId ++
    s.unqueued.map CompletionRequest.jobId ++ s.failures.map fun f => f.job.id

def holders (s : State) : List Job := s.stream.jobs ++ s.slots.flatMap Slot.holder

/-- The invariant of a state without one of its slots; `u` and `h` are the claims
that this slot has to report and the one it answers for. -/
structure DrainInv (cfg : Config) (now : Time) (s : State) (u h : List Job) : Prop where
  fetches : s.fetchFailed = false
  orphans : s.orphans = 0
  calm : ∀ slot ∈ s.slots, slot.calm = true
  unnamed : ∀ req ∈ s.unqueued, ∃ j ∈ s.claims, j.id = req.jobId ∧ j.jobQueueId = none
  failed : ∀ f ∈ s.failures, f.job ∈ s.claims
  queues : QueueInv cfg now s.db s.claims (u.map Job.id ++ pendingIds s) (h ++ holders s) s.stream.drained

/-- The run has recorded an error, or the answer of a failed fetch is on its way. -/
def Troubled (s : State) : Prop :=
  s.runError = true ∨ s.stream = .fetching .failed ∨ ∃ c, .fetching c .failed ∈ s.slots

/-- The jobs that an action reports as failed. -/
def failing (s : State) : Action → List JobId
  | .slot k (.finish (.failed _ _) _ _) =>
    match s.slots[k]? with
    | some (.running c) => [c.job.id]
    | _ => []
  | .flushFailures n => (s.failures.take n).map fun f => f.job.id
  | .failDirect _ => (s.failures.take 1).map fun f => f.job.id
  | _ => []

/-- The job after which a slot fetches again. -/
def fetchedAfter (s : State) : Action → List Job
  | .slot k (.execute _) =>
    match s.slots[k]? with
    | some (.fetching last .issued) => [last.job]
    | _ => []
  | _ => []

/-- Not another process and not a shutdown. -/
def Action.isOwn : Action → Bool
  | .others _ | .shutdown => false
  | _ => true

/-- The clock stands at `now`, nobody else writes and no shutdown is requested; a
failed job waits; a slot fetches again when the outcome of its last job is
persisted, or when no ready job is in its queue. -/
def DrainsOk (cfg : Config) (now : Time) (s : State) (e : Event) : Prop :=
  e.1 = now ∧ e.2.isOwn = true ∧ (∀ i ∈ failing s e.2, BacksOff s.db i) ∧
    ∀ j ∈ fetchedAfter s e.2, lockedAs s.db cfg.workerId j.id = false ∨
      j.jobQueueId.any (hasReady cfg now s.db) = false

/-- The queue of every ready job is there and free. -/
def QueuesFree (cfg : Config) (now : Time) (db : Db) : Prop :=
  ∀ r ∈ db.jobs.rows, ready cfg now r = true → queueClause db r = true

variable {cfg : Config} {s t : State} {now : Time} {slot : Slot} {a : SlotAction} {slot' : Option Slot}
  {slots : List Slot} {db : Db}

/-- What no step of a slot touches outside the slot. -/
structure SlotFrame (s t : State) : Prop where
  stream : t.stream = s.stream
  slots : t.slots = s.slots
  shutdown : t.shutdown = s.shutdown
  orphans : t.orphans = s.orphans
  runError : s.runError = true → t.runError = true

theorem ReleaseFrame.slotFrame (h : ReleaseFrame s t) : SlotFrame s t :=
  ⟨h.stream,h.slots,h.shutdown,h.orphans,h.runError⟩

theorem slotFrame_claimJob : SlotFrame s (s.claimJob cfg now).1 := by
  rcases claimJob_cases cfg now s with ⟨_,he⟩ | ⟨r,_,he⟩
  · rw [he]
    exact ⟨rfl,rfl,rfl,rfl,id⟩
  · rw [he]
    exact ⟨rfl,rfl,rfl,rfl,id⟩

theorem slotFrame_executeQuery {ok : Bool} : SlotFrame s (s.executeQuery cfg now ok).1 := by
  unfold State.executeQuery
  split
  · exact slotFrame_claimJob
  · exact ⟨rfl,rfl,rfl,rfl,id⟩

theorem slotFrame_slotStep (h : SlotStepped cfg now s slot a t slot') : SlotFrame s t := by
  cases h with
  | returnClaim c ok => exact ReleaseFrame.write.slotFrame
  | finish c outcome closed ok t h => exact (ReleaseFrame.release h).slotFrame
  | execute c ok => exact slotFrame_executeQuery
  | lost c claim => exact ⟨rfl,rfl,rfl,rfl,fun _ => rfl⟩
  | replyFailed c lost => exact ⟨rfl,rfl,rfl,rfl,fun _ => rfl⟩
  | _ => exact ⟨rfl,rfl,rfl,rfl,id⟩

theorem slotStep_failed {c : Claim}
    (h : SlotStepped cfg now s (.fetching c .failed) a t slot') : t.runError = true := by
  cases h with
  | replyFailed c lost => rfl

theorem pendingIds_cons (slot : Slot) (rest : List Slot) :
    (pendingIds { s with slots := slot :: rest }).Perm
      (slot.unreported.map Job.id ++ pendingIds { s with slots := rest }) := by
  simp only [pendingIds,List.flatMap_cons,List.map_append,List.append_assoc]
  exact List.perm_append_comm_assoc ..

theorem holders_cons (slot : Slot) (rest : List Slot) :
    (holders { s with slots := slot :: rest }).Perm (slot.holder ++ holders { s with slots := rest }) := by
  simp only [holders,List.flatMap_cons]
  exact List.perm_append_comm_assoc ..

theorem pendingIds_perm (h : s.slots.Perm slots) : (pendingIds s).Perm (pendingIds { s with slots := slots }) := by
  unfold pendingIds
  have hf := h.flatMap_right Slot.unreported
  exact (((((hf.append_left _).map _).append_right _).append_right _).append_right _)

theorem holders_perm (h : s.slots.Perm slots) : (holders s).Perm (holders { s with slots := slots }) :=
  (h.flatMap_right Slot.holder).append_left _

namespace DrainInv

variable {slot : Slot}

theorem take {rest : List Slot} (hi : DrainInv cfg now s [] []) (hp : s.slots.Perm (slot :: rest)) :
    DrainInv cfg now { s with slots := rest } slot.unreported slot.holder ∧ slot.calm = true := by
  refine ⟨⟨hi.fetches,hi.orphans,?_,hi.unnamed,hi.failed,?_⟩,?_⟩
  · intro x hx
    exact hi.calm x (hp.mem_iff.mpr (List.mem_cons_of_mem _ hx))
  · exact hi.queues.perm ((pendingIds_perm hp).trans (pendingIds_cons slot rest))
      ((holders_perm hp).trans (holders_cons slot rest))
  · exact hi.calm slot (hp.mem_iff.mpr List.mem_cons_self)

theorem put (hi : DrainInv cfg now s slot.unreported slot.holder) (hc : slot.calm = true) :
    DrainInv cfg now { s with slots := slot :: s.slots } [] [] := by
  refine ⟨hi.fetches,hi.orphans,?_,hi.unnamed,hi.failed,?_⟩
  · intro x hx
    rcases List.mem_cons.mp hx with rfl | hx
    · exact hc
    · exact hi.calm x hx
  · exact hi.queues.perm (pendingIds_cons slot s.slots).symm (holders_cons slot s.slots).symm

end DrainInv

theorem not_eligible {taskIds : List TaskId} {filter : JobFlagFilter}
    (h : candidates db taskIds filter now 1 = []) : ∀ r ∈ db.jobs.rows, eligible db taskIds filter now r = false := by
  intro r hr
  rw [Bool.eq_false_iff]
  intro he
  have hm := (List.mem_insertionSort candidateLe).mpr (List.mem_filter.mpr ⟨hr,he⟩)
  unfold candidates at h
  rcases List.take_eq_nil_iff.mp h with hz | hn
  · cases hz
  · rw [hn] at hm
    cases hm

/-- The state and the slot after a step of the slot. -/
def SlotDrained (cfg : Config) (now : Time) (t : State) (slot : Option Slot) : Prop :=
  (t.runError = true ∨ ∃ c, slot = some (.fetching c .failed)) ∨
    DrainInv cfg now t (slot.toList.flatMap Slot.unreported) (slot.toList.flatMap Slot.holder) ∧
      ∀ x ∈ slot, x.calm = true

section Slot
variable {u h : List Job} {c : Claim} {job : Job} {ok closed : Bool} {slot : Slot}

theorem drained_write {db : Db} (hc : slot.calm = true)
    (hi : ok = true → DrainInv cfg now { s with db := db } slot.unreported slot.holder) :
    SlotDrained cfg now (s.write ok db) (some slot) := by
  unfold State.write
  split
  · next hok =>
    refine .inr ⟨?_,fun x hx => by cases hx; exact hc⟩
    simpa using hi hok
  · exact .inl (.inl rfl)

theorem drained_completed (hi : DrainInv cfg now s [c.job] [c.job]) :
    SlotDrained cfg now (s.releaseCompleted cfg c.job closed ok) (some (.released c)) := by
  have hclaim : c.job ∈ s.claims := hi.queues.claimed c.job List.mem_cons_self
  unfold State.releaseCompleted
  split
  · split
    · refine .inr ⟨⟨hi.fetches,hi.orphans,hi.calm,hi.unnamed,hi.failed,?_⟩,fun x hx => by cases hx; rfl⟩
      refine hi.queues.perm ?_ (.refl _)
      exact List.perm_iff_count.mpr fun x => by
        simp [pendingIds,Slot.unreported,List.count_append,List.count_cons]
        omega
    · next hq =>
      refine .inr ⟨⟨hi.fetches,hi.orphans,hi.calm,?_,hi.failed,?_⟩,fun x hx => by cases hx; rfl⟩
      · intro req hreq
        rcases List.mem_append.mp hreq with hreq | hreq
        · exact hi.unnamed req hreq
        · rw [List.mem_singleton.mp hreq]
          exact ⟨c.job,hclaim,rfl,by simpa using hq⟩
      · refine hi.queues.perm ?_ (.refl _)
        exact List.perm_iff_count.mpr fun x => by
          simp [pendingIds,Slot.unreported,List.count_append,List.count_cons]
          omega
  · refine drained_write rfl fun _ => ?_
    exact ⟨hi.fetches,hi.orphans,hi.calm,hi.unnamed,hi.failed,hi.queues.release_completeJob hclaim⟩

theorem drained_failed {error : String} {payload : Option Json}
    (hb : BacksOff s.db c.job.id) (hi : DrainInv cfg now s [c.job] [c.job]) :
    SlotDrained cfg now (s.releaseFailed cfg now c.job error payload closed ok) (some (.released c)) := by
  have hclaim : c.job ∈ s.claims := hi.queues.claimed c.job List.mem_cons_self
  unfold State.releaseFailed
  split
  · refine .inr ⟨⟨hi.fetches,hi.orphans,hi.calm,hi.unnamed,?_,?_⟩,fun x hx => by cases hx; rfl⟩
    · intro f hf
      rcases List.mem_append.mp hf with hf | hf
      · exact hi.failed f hf
      · rw [List.mem_singleton.mp hf]
        exact hclaim
    · refine hi.queues.perm ?_ (.refl _)
      exact List.perm_iff_count.mpr fun x => by
        simp [pendingIds,Slot.unreported,List.count_append,List.count_cons]
        omega
  · refine drained_write rfl fun _ => ?_
    exact ⟨hi.fetches,hi.orphans,hi.calm,hi.unnamed,hi.failed,hi.queues.release_failJob hclaim hb⟩

theorem persisted_keep {H : List Job}
    (hp : lockedAs s.db cfg.workerId job.id = false ∨ job.jobQueueId.any (hasReady cfg now s.db) = false) :
    ∀ j ∈ job :: H, j ∈ H ∨ lockedAs s.db cfg.workerId j.id = false ∨
      ∀ g, j.jobQueueId = some g → hasReady cfg now s.db g = false := by
  intro j hj
  rcases List.mem_cons.mp hj with rfl | hj
  · refine .inr (hp.imp_right fun hn g hg => ?_)
    rw [hg] at hn
    exact hn
  · exact .inl hj

theorem drained_execute
    (hp : lockedAs s.db cfg.workerId c.job.id = false ∨ c.job.jobQueueId.any (hasReady cfg now s.db) = false)
    (hi : DrainInv cfg now s [] [c.job]) :
    SlotDrained cfg now (s.executeQuery cfg now ok).1 (some (.fetching c (s.executeQuery cfg now ok).2)) := by
  have hsub : ∀ j ∈ holders s, j ∈ s.claims := fun j hj => hi.queues.claimed j (List.mem_cons_of_mem _ hj)
  have hcount : freeCount cfg s.db (c.job :: holders s) ≤ freeCount cfg s.db (holders s) + 1 := by
    unfold freeCount
    rw [List.countP_cons]
    split <;> omega
  unfold State.executeQuery
  split
  · rcases claimJob_cases cfg now s with ⟨hn,he⟩ | ⟨r,hr,he⟩
    · rw [he,claimRows_nil]
      refine .inr ⟨⟨hi.fetches,hi.orphans,hi.calm,hi.unnamed,hi.failed,?_⟩,fun x hx => by cases hx; rfl⟩
      refine hi.queues.dropHolders hsub (persisted_keep hp) fun _ => ?_
      rw [QueueInv.not_isOpen (not_eligible hn)]
      exact Nat.zero_le _
    · rw [he]
      obtain ⟨hmem,helig⟩ := mem_candidates (hr ▸ List.mem_singleton_self r)
      refine .inr ⟨⟨hi.fetches,hi.orphans,hi.calm,?_,?_,?_⟩,fun x hx => by cases hx; rfl⟩
      · intro req hreq
        obtain ⟨j,hj,hid⟩ := hi.unnamed req hreq
        exact ⟨j,List.mem_append_left _ hj,hid⟩
      · intro f hf
        exact List.mem_append_left _ (hi.failed f hf)
      · exact hi.queues.claim hmem helig hsub (persisted_keep hp) fun _ => hcount
  · exact .inl (.inr ⟨c,rfl⟩)

theorem drained_end (hq : c.job.jobQueueId = none) (hi : DrainInv cfg now s [] [c.job]) :
    DrainInv cfg now s [] [] := by
  refine ⟨hi.fetches,hi.orphans,hi.calm,hi.unnamed,hi.failed,?_⟩
  refine hi.queues.dropHolders (fun j hj => hi.queues.claimed j (List.mem_cons_of_mem _ hj)) ?_ fun hd => ?_
  · intro j hj
    rcases List.mem_cons.mp hj with rfl | hj
    · refine .inr (.inr fun g hg => ?_)
      rw [hq] at hg
      cases hg
    · exact .inl hj
  · have ho := hi.queues.opened hd
    have hfree : isFree cfg s.db c.job = false := by simp [isFree,hq]
    unfold freeCount at ho ⊢
    rwa [List.singleton_append,List.countP_cons_of_neg (by simp [hfree])] at ho

theorem drained_slotStep {a : SlotAction} {slot' : Option Slot} (hs : s.shutdown = false) (hc : slot.calm = true)
    (hb : ∀ error payload closed ok, a = .finish (.failed error payload) closed ok → ∀ c, slot = .running c →
      BacksOff s.db c.job.id)
    (hp : ∀ ok, a = .execute ok → ∀ c, slot = .fetching c .issued →
      lockedAs s.db cfg.workerId c.job.id = false ∨ c.job.jobQueueId.any (hasReady cfg now s.db) = false)
    (hi : DrainInv cfg now s slot.unreported slot.holder) (h : SlotStepped cfg now s slot a t slot') :
    SlotDrained cfg now t slot' := by
  cases h with
  | startReturn c hf =>
    rw [hi.fetches] at hf
    cases hf
  | startRun c hf =>
    exact .inr ⟨⟨hi.fetches,hi.orphans,hi.calm,hi.unnamed,hi.failed,hi.queues⟩,fun x hx => by cases hx; rfl⟩
  | returnClaim c ok => cases hc
  | finish c outcome closed ok t h =>
    rcases release_cases h with ⟨rfl,rfl⟩ | ⟨error,payload,rfl,rfl⟩ | ⟨_,hsd,_⟩
    · exact drained_completed hi
    · exact drained_failed (hb error payload closed ok rfl c rfl) hi
    · rw [hs] at hsd
      cases hsd
  | nextEnd c hq =>
    rcases hq with hq | hf
    · exact .inr ⟨drained_end hq hi,fun x hx => by cases hx⟩
    · rw [hi.fetches] at hf
      cases hf
  | next c hq hf => exact .inr ⟨hi,fun x hx => by cases hx; rfl⟩
  | issueEnd c hf =>
    rw [hi.fetches] at hf
    cases hf
  | issue c hf => exact .inr ⟨hi,fun x hx => by cases hx; rfl⟩
  | execute c ok => exact drained_execute (hp ok rfl c rfl) hi
  | lost c claim => exact .inl (.inl rfl)
  | replyNone c => exact .inr ⟨hi,fun x hx => by cases hx⟩
  | replySome c c' => exact .inr ⟨hi,fun x hx => by cases hx; rfl⟩
  | replyFailed c lost => cases hc

end Slot

theorem count_map_take_drop {α : Type*} (f : α → ℕ) (l : List α) (n x : ℕ) :
    (l.map f).count x = ((l.take n).map f).count x + ((l.drop n).map f).count x := by
  rw [← List.count_append,← List.map_append,List.take_append_drop]

namespace DrainInv

variable (hi : DrainInv cfg now s [] [])
include hi

theorem queues_of_count {p : List JobId} (h : ∀ x, (pendingIds s).count x = p.count x) :
    QueueInv cfg now s.db s.claims p (holders s) s.stream.drained :=
  hi.queues.perm (List.perm_iff_count.mpr h) (.refl _)

theorem executeStream (hs : s.stream = .fetching .issued) (ok : Bool) :
    (s.executeQuery cfg now ok).2 = .failed ∨
      DrainInv cfg now { (s.executeQuery cfg now ok).1 with stream := .fetching (s.executeQuery cfg now ok).2 }
        [] [] := by
  have hq := hi.queues
  unfold holders pendingIds at hq
  rw [hs] at hq
  unfold State.executeQuery
  split
  · rcases claimJob_cases cfg now s with ⟨hn,he⟩ | ⟨r,hr,he⟩
    · rw [he,claimRows_nil]
      exact .inr ⟨hi.fetches,hi.orphans,hi.calm,hi.unnamed,hi.failed,hq.drain (not_eligible hn)⟩
    · rw [he]
      obtain ⟨hmem,helig⟩ := mem_candidates (hr ▸ List.mem_singleton_self r)
      refine .inr ⟨hi.fetches,hi.orphans,hi.calm,?_,?_,?_⟩
      · intro req hreq
        obtain ⟨j,hj,hid⟩ := hi.unnamed req hreq
        exact ⟨j,List.mem_append_left _ hj,hid⟩
      · intro f hf
        exact List.mem_append_left _ (hi.failed f hf)
      · exact hq.claim hmem helig hq.claimed (fun j hj => .inl hj) fun hd => hd.elim
  · exact .inl rfl

theorem flushQueued (n : ℕ) (ok : Bool) :
    DrainInv cfg now { s with
      db := if ok then completeJobsWithQueues s.db cfg.workerId ((s.queued.take n).map CompletionRequest.jobId)
        else s.db
      queued := s.queued.drop n } [] [] := by
  refine ⟨hi.fetches,hi.orphans,hi.calm,hi.unnamed,hi.failed,?_⟩
  have hq := hi.queues_of_count
    (p := (s.queued.take n).map CompletionRequest.jobId ++ pendingIds { s with queued := s.queued.drop n }) fun x => by
      have hx := count_map_take_drop CompletionRequest.jobId s.queued n x
      simp only [pendingIds,List.count_append]
      omega
  cases ok with
  | false => exact hq.dropPending (List.sublist_append_right _ _)
  | true =>
    show QueueInv cfg now (completeJobsWithQueues s.db cfg.workerId _) _ _ _ _
    unfold completeJobsWithQueues
    split
    · exact hq.dropPending (List.sublist_append_right _ _)
    · exact hq.release_completeQueued

theorem flushUnqueued (n : ℕ) (ok : Bool) :
    DrainInv cfg now { s with
      db := if ok then completeJobsWithoutQueues s.db ((s.unqueued.take n).map CompletionRequest.jobId) else s.db
      unqueued := s.unqueued.drop n } [] [] := by
  refine ⟨hi.fetches,hi.orphans,hi.calm,fun req hreq => hi.unnamed req (List.mem_of_mem_drop hreq),hi.failed,?_⟩
  have hq := hi.queues_of_count (p := (s.unqueued.take n).map CompletionRequest.jobId ++
      pendingIds { s with unqueued := s.unqueued.drop n }) fun x => by
    have hx := count_map_take_drop CompletionRequest.jobId s.unqueued n x
    simp only [pendingIds,List.count_append]
    omega
  cases ok with
  | false => exact hq.dropPending (List.sublist_append_right _ _)
  | true =>
    show QueueInv cfg now (completeJobsWithoutQueues s.db _) _ _ _ _
    unfold completeJobsWithoutQueues
    split
    · exact hq.dropPending (List.sublist_append_right _ _)
    · refine hq.release_completeUnqueued ?_
      intro i hm r hr hid
      obtain ⟨req,hreq,rfl⟩ := List.mem_map.mp hm
      obtain ⟨j,hj,hjid,hjq⟩ := hi.unnamed req (List.mem_of_mem_take hreq)
      have hp : j.id ∈ (s.unqueued.take n).map CompletionRequest.jobId ++
          pendingIds { s with unqueued := s.unqueued.drop n } := List.mem_append_left _ (hjid ▸ hm)
      obtain ⟨row,hrow,hrid,_,hrq⟩ := hq.pendingRow hp hj
      rw [IdTable.eq_of_rowId hr hrow (hid.trans (hjid.symm.trans hrid.symm)),hrq,hjq]

theorem flushFailures {n : ℕ}
    (hb : ∀ f ∈ s.failures.take n, BacksOff s.db f.job.id) :
    DrainInv cfg now { s with
      db := failJobs s.db (s.failures.take n) cfg.workerId now
      failures := s.failures.drop n } [] [] := by
  refine ⟨hi.fetches,hi.orphans,hi.calm,hi.unnamed,fun f hf => hi.failed f (List.mem_of_mem_drop hf),?_⟩
  have hq := hi.queues_of_count (p := (s.failures.take n).map (fun f => f.job.id) ++
      pendingIds { s with failures := s.failures.drop n }) fun x => by
    have hx := count_map_take_drop (fun f : FailedJob => f.job.id) s.failures n x
    simp only [pendingIds,List.count_append]
    omega
  exact hq.release_failJobs (fun f hf => hi.failed f (List.mem_of_mem_take hf)) hb

theorem failDirect {f : FailedJob} {rest : List FailedJob}
    (hf : s.failures = f :: rest) (hb : BacksOff s.db f.job.id) (ok : Bool) :
    DrainInv cfg now { s with
      db := if ok then failJob s.db f.job cfg.workerId now f.error none else s.db
      failures := rest } [] [] := by
  have hfail : ∀ g ∈ f :: rest, g.job ∈ s.claims := hf ▸ hi.failed
  refine ⟨hi.fetches,hi.orphans,hi.calm,hi.unnamed,fun g hg => hfail g (List.mem_cons_of_mem _ hg),?_⟩
  have hq := hi.queues_of_count (p := f.job.id :: pendingIds { s with failures := rest }) fun x => by
    simp only [pendingIds,hf,List.count_append,List.count_cons,List.map_cons]
    omega
  cases ok with
  | false => exact hq.dropPending (List.sublist_cons_self _ _)
  | true => exact hq.release_failJob (hfail f List.mem_cons_self) hb

end DrainInv

def Drains (cfg : Config) (now : Time) (s : State) : Prop :=
  s.shutdown = false ∧ (Troubled s ∨ DrainInv cfg now s [] [])

theorem Troubled.of_stream (hi : Troubled s) (hne : s.stream ≠ .fetching .failed)
    (hrun : s.runError = true → t.runError = true) (hslots : ∀ x ∈ s.slots, x ∈ t.slots) : Troubled t := by
  rcases hi with hi | hst | ⟨c,hc⟩
  · exact .inl (hrun hi)
  · exact absurd hst hne
  · exact .inr (.inr ⟨c,hslots _ hc⟩)

theorem DrainInv.setStream {stream : Stream} (hi : DrainInv cfg now s [] []) (hj : stream.jobs = s.stream.jobs)
    (hd : stream.drained → s.stream.drained) : DrainInv cfg now { s with stream := stream } [] [] := by
  refine ⟨hi.fetches,hi.orphans,hi.calm,hi.unnamed,hi.failed,?_⟩
  have hq := hi.queues
  unfold holders pendingIds at hq ⊢
  rw [← hj] at hq
  exact hq.weaken hd

theorem drains_slot {k : ℕ} {rest : List Slot}
    (hok : DrainsOk cfg now s (now,.slot k a)) (hget : s.slots[k]? = some slot) (hperm : s.slots.Perm (slot :: rest))
    (h : SlotStepped cfg now { s with slots := rest } slot a t slot') (hi : Drains cfg now s) :
    Drains cfg now { t with slots := slot'.toList ++ t.slots } := by
  obtain ⟨_,_,hb,hp⟩ := hok
  have hframe := slotFrame_slotStep h
  refine ⟨hframe.shutdown.trans hi.1,?_⟩
  rcases hi.2 with (hrun | hst | ⟨c,hc⟩) | hi'
  · exact .inl (.inl (hframe.runError hrun))
  · exact .inl (.inr (.inl (hframe.stream.trans hst)))
  · rcases List.mem_cons.mp (hperm.mem_iff.mp hc) with rfl | hc
    · have hrun : t.runError = true := slotStep_failed h
      exact .inl (.inl hrun)
    · refine .inl (.inr (.inr ⟨c,List.mem_append_right _ ?_⟩))
      rw [hframe.slots]
      exact hc
  · obtain ⟨hinv,hcalm⟩ := hi'.take hperm
    have hshut : ({ s with slots := rest } : State).shutdown = false := hi.1
    have hd := drained_slotStep hshut hcalm ?_ ?_ hinv h
    · rcases hd with (hrun | ⟨c,rfl⟩) | ⟨hd,hc⟩
      · exact .inl (.inl hrun)
      · exact .inl (.inr (.inr ⟨c,List.mem_cons_self⟩))
      · cases slot' with
        | none => exact .inr hd
        | some x => exact .inr (DrainInv.put (by simpa using hd) (hc x rfl))
    · rintro error payload closed ok rfl c rfl
      refine hb c.job.id ?_
      simp [failing,hget]
    · rintro ok rfl c rfl
      refine hp c.job ?_
      simp [fetchedAfter,hget]

theorem DrainInv.streamJob {c : Claim} (hi : DrainInv cfg now s [] [])
    (hst : s.stream = .fetching (.executed (some c))) :
    DrainInv cfg now { s with stream := .idle, slots := .starting c :: s.slots } [] [] := by
  have hq := hi.queues
  unfold holders pendingIds at hq
  rw [hst] at hq
  refine ⟨hi.fetches,hi.orphans,?_,hi.unnamed,hi.failed,hq⟩
  intro x hx
  rcases List.mem_cons.mp hx with rfl | hx
  · rfl
  · exact hi.calm x hx

theorem drains_step {e : Event} (hok : DrainsOk cfg now s e) (h : step cfg s e = some t) (hi : Drains cfg now s) :
    Drains cfg now t := by
  obtain rfl : e.1 = now := hok.1
  have hown := hok.2.1
  have hb := hok.2.2.1
  obtain ⟨hs,hi⟩ := hi
  cases step_cases h with
  | others now db => cases hown
  | shutdown now => cases hown
  | pollEnd now hst hroom hf =>
    refine ⟨hs,hi.imp (fun hi => hi.of_stream (by simp [hst]) id fun _ => id) fun hi => ?_⟩
    rw [hi.fetches] at hf
    cases hf
  | poll now hst hroom hf =>
    refine ⟨hs,hi.imp (fun hi => hi.of_stream (by simp [hst]) id fun _ => id) fun hi => ?_⟩
    exact hi.setStream (by rw [hst]; rfl) (by rw [hst]; exact id)
  | executeStream now ok hst =>
    have hframe : SlotFrame s (s.executeQuery cfg now ok).1 := slotFrame_executeQuery
    refine ⟨hframe.shutdown.trans hs,?_⟩
    rcases hi with hi | hi
    · exact .inl (hi.of_stream (by simp [hst]) hframe.runError fun _ hx => hframe.slots ▸ hx)
    · rcases hi.executeStream hst ok with hf | hi
      · exact .inl (.inr (.inl (by rw [hf])))
      · exact .inr hi
  | lostStream now claim hst => exact ⟨hs,.inl (.inl rfl)⟩
  | streamEnd now hst =>
    refine ⟨hs,hi.imp (fun hi => hi.of_stream (by simp [hst]) id fun _ => id) fun hi => ?_⟩
    exact hi.setStream (by rw [hst]; rfl) (by rw [hst]; exact id)
  | streamJob now c hst =>
    refine ⟨hs,hi.imp (fun hi => ?_) fun hi => hi.streamJob hst⟩
    exact hi.of_stream (by simp [hst]) id fun _ => List.mem_cons_of_mem _
  | failedStream now lost hst => exact ⟨hs,.inl (.inl rfl)⟩
  | cancelIssued now hsd hst =>
    rw [hs] at hsd
    cases hsd
  | cancelAnswered now query hsd hst =>
    rw [hs] at hsd
    cases hsd
  | executeOrphan now ho =>
    have hframe : SlotFrame s (s.claimJob cfg now).1 := slotFrame_claimJob
    refine ⟨hframe.shutdown.trans hs,hi.imp (fun hi => ?_) fun hi => absurd hi.orphans ho⟩
    rcases hi with hrun | hst | ⟨c,hc⟩
    · exact .inl (hframe.runError hrun)
    · exact .inr (.inl (hframe.stream.trans hst))
    · exact .inr (.inr ⟨c,hframe.slots ▸ hc⟩)
  | slot now k action slot rest s' slot' hk hp hs' => exact drains_slot hok hk hp hs' ⟨hs,hi⟩
  | flushQueued now n ok => exact ⟨hs,hi.imp id fun hi => hi.flushQueued n ok⟩
  | flushUnqueued now n ok => exact ⟨hs,hi.imp id fun hi => hi.flushUnqueued n ok⟩
  | flushFailures now n =>
    exact ⟨hs,hi.imp id fun hi => hi.flushFailures fun f hf => hb _ (List.mem_map.mpr ⟨f,hf,rfl⟩)⟩
  | failDirect now ok f rest hf =>
    refine ⟨hs,hi.imp id fun hi => hi.failDirect hf (hb _ ?_) ok⟩
    simp [failing,hf]
  | finish now hst hsl hfin =>
    exact ⟨hs,hi.imp id fun hi => ⟨hi.fetches,hi.orphans,hi.calm,hi.unnamed,hi.failed,hi.queues⟩⟩

theorem drains_start {db₀ : Db} (h : QueuesFree cfg now db₀) : Drains cfg now { db := db₀ } := by
  refine ⟨rfl,.inr ⟨rfl,rfl,by simp,by simp,by simp,?_⟩⟩
  -- the queue of a ready job, as the queue clause sees it
  have hqueue : ∀ r ∈ db₀.jobs.rows, ready cfg now r = true → ∀ g, r.jobQueueId = some g →
      ∃ q ∈ db₀.jobQueues.rows, q.id = g ∧ q.isAvailable = true := by
    intro r hr hready g hg
    exact queue_of_eligible (by rw [eligible_eq,hready,h r hr hready]; rfl) hg
  refine ⟨?_,?_,?_,?_,List.nodup_nil,?_,?_,?_,?_,fun hd => hd.elim,fun hd => hd.elim⟩
  · intro j hj
    cases hj
  · intro j hj
    cases hj
  · rintro r ⟨_,_,j,hj,_⟩
    cases hj
  · rintro r r' ⟨_,_,j,hj,_⟩
    cases hj
  · intro i hi
    cases hi
  · intro j hj
    cases hj
  · intro q hq hl hg
    obtain ⟨r,hr,hready,hrq⟩ := hasReady_iff.mp hg
    obtain ⟨q',hq',hid,ha⟩ := hqueue r hr hready q.id hrq
    rw [IdTable.eq_of_rowId hq' hq hid,hl] at ha
    cases ha
  · intro r hr hready g hg
    obtain ⟨q,hq,hid,_⟩ := hqueue r hr hready g hg
    exact ⟨q,hq,hid⟩

theorem QueueInv.none_ready {claims : List Job} {pending : List JobId} {drained : Prop}
    (hi : QueueInv cfg now db claims pending [] drained) (hd : drained) :
    ∀ r ∈ db.jobs.rows, ready cfg now r = false := by
  intro r hr
  rw [Bool.eq_false_iff]
  intro hready
  obtain ⟨g,hg⟩ := Option.isSome_iff_exists.mp (hi.unnamed hd r hr hready)
  obtain ⟨q,hq,rfl⟩ := hi.present r hr hready g hg
  have hgr := hasReady_iff.mpr ⟨r,hr,hready,hg⟩
  cases ha : q.isAvailable with
  | true =>
    have hpos : 0 < openCount cfg now db :=
      List.countP_pos_iff.mpr ⟨q,hq,Bool.and_eq_true_iff.mpr ⟨ha,hgr⟩⟩
    exact absurd (hi.opened hd) (Nat.not_le.mpr hpos)
  | false =>
    obtain ⟨j,hj,_⟩ := hi.blocked q hq ha hgr
    cases hj

/-- If a slot fetches again only when the outcome of its last job is persisted or no ready job waits in its
queue, no ready job is left when the run returns without an error. -/
theorem run_once_drains (cfg : Config) (db₀ : Db) (now now' : Time) {s t : State} (hq : QueuesFree cfg now db₀)
    (h : Reaches (step cfg) (DrainsOk cfg now) { db := db₀ } s) (hf : step cfg s (now',.finish) = some t)
    (hok : t.runError = false) : ∀ r ∈ t.db.jobs.rows, ready cfg now r = false := by
  have hd : Drains cfg now s :=
    h.invariant (I := Drains cfg now) (fun _ _ _ hok he hi => drains_step hok he hi) (drains_start hq)
  obtain ⟨hst,hsl,rfl⟩ := finish_cases hf
  rcases hd.2 with (hrun | hfail | ⟨c,hc⟩) | hi
  · have hnone : s.runError = false := hok
    rw [hrun] at hnone
    cases hnone
  · rw [hst] at hfail
    cases hfail
  · rw [hsl] at hc
    cases hc
  · have hi := hi.queues
    unfold holders at hi
    rw [hst,hsl] at hi
    exact hi.none_ready trivial

instance (db : Db) (i : JobId) : Decidable (BacksOff db i) :=
  inferInstanceAs (Decidable (∀ r ∈ db.jobs.rows, r.id = i → 0 < expSeconds (min r.attempts 10)))

instance (cfg : Config) (now : Time) (s : State) (e : Event) : Decidable (DrainsOk cfg now s e) :=
  inferInstanceAs (Decidable (_ ∧ _ ∧ _ ∧ _))

instance (cfg : Config) (now : Time) (db : Db) : Decidable (QueuesFree cfg now db) :=
  inferInstanceAs (Decidable (∀ r ∈ db.jobs.rows, ready cfg now r = true → queueClause db r = true))

def twoQueued : Db :=
  after [(0,.addJobs [⟨"task",.null,{ queueName := some "q" }⟩,⟨"task",.null,{ queueName := some "q" }⟩] false none)]

def slotRound : List Event :=
  [(1,.slot 0 .start),(1,.slot 0 (.finish .completed false true)),(1,.slot 0 .next),(1,.slot 0 .issue),
    (1,.slot 0 (.execute true)),(1,.slot 0 (.reply false))]

def streamRound : List Event := [(1,.pollStream),(1,.executeStream true),(1,.replyStream false)]

theorem queued_jobs_drained :
    let events := streamRound ++ slotRound ++ slotRound ++ streamRound
    let s := stateAfter oneWorker twoQueued events
    let t := stateAfter oneWorker twoQueued (events ++ [(1,.finish)])
    exec (step oneWorker) (DrainsOk oneWorker 1) { db := twoQueued } events = some s ∧
      step oneWorker s (1,.finish) = some t ∧ t.runError = false ∧ t.ran = [0,1] ∧
      ∀ r ∈ t.db.jobs.rows, ready oneWorker 1 r = false :=
  ⟨rfl,rfl,rfl,rfl,run_once_drains oneWorker twoQueued 1 1 (by decide) (reaches_exec (rfl :
    exec (step oneWorker) (DrainsOk oneWorker 1) { db := twoQueued }
      (streamRound ++ slotRound ++ slotRound ++ streamRound) =
        some (stateAfter oneWorker twoQueued (streamRound ++ slotRound ++ slotRound ++ streamRound)))) rfl rfl⟩

/-- The slot and the stream fetch before the batcher flushes. -/
def unflushedEvents : List Event := streamRound ++ slotRound ++ streamRound ++ [(1,.finish),(1,.flushQueued 1 true)]

/-- The second job of the queue was ready from the start and was never claimed. -/
theorem batched_completion_strands_queue :
    let cfg := { oneWorker with completionBatcher := true }
    let t := stateAfter cfg twoQueued unflushedEvents
    exec (step cfg) (fun _ e => e.1 = 1 ∧ e.2.isOwn = true) { db := twoQueued } unflushedEvents = some t ∧
      QueuesFree cfg 1 twoQueued ∧ t.finished = true ∧ t.runError = false ∧ t.ran = [0] ∧
      (twoQueued.jobs.rows.filter (ready cfg 1)).map Job.id = [1,2] ∧
      (t.db.jobs.rows.filter (ready cfg 1)).map Job.id = [2] ∧
      t.db.jobQueues.rows.map JobQueue.isAvailable = [true] :=
  ⟨rfl,by decide,rfl,rfl,rfl,rfl,rfl,rfl⟩

end GraphileWorker.RunOnce
