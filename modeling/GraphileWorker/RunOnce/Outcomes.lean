import GraphileWorker.RunOnce.Queues

/-! # Persisted outcomes keep the queue invariant

A statement for a batch does to jobs and queues what the statements for its requests do one
after the other.
-/
namespace GraphileWorker.RunOnce
open Foundation Database

variable {cfg : Config} {now : Time} {db db' : Db} {claims holders : List Job} {pending : List JobId} {drained : Prop}
  {i : JobId} {job row : Job} {w : WorkerId} {p : Job → Bool} {error : String} {payload : Option Json}

theorem QueueInv.congr (hi : QueueInv cfg now db claims pending holders drained) (hj : db'.jobs = db.jobs)
    (hq : db'.jobQueues = db.jobQueues) : QueueInv cfg now db' claims pending holders drained := by
  have hl : ∀ x, lockedAs db' cfg.workerId x = lockedAs db cfg.workerId x := fun x => by
    rw [lockedAs,hj,lockedAs]
  have hr : ∀ g, hasReady cfg now db' g = hasReady cfg now db g := fun g => by rw [hasReady,hj,hasReady]
  have hh : ∀ r, HeldRow cfg db' claims r ↔ HeldRow cfg db claims r := fun r => by rw [HeldRow,hj,HeldRow]
  have ho : openCount cfg now db' = openCount cfg now db := by
    unfold openCount isOpen
    simp only [hq,hr]
  have hf : freeCount cfg db' holders = freeCount cfg db holders := by
    unfold freeCount isFree
    simp only [hl]
  refine ⟨?_,?_,?_,?_,hi.nodup,?_,hi.claimed,?_,?_,?_,?_⟩
  · rw [hj]
    exact hi.unready
  · rw [hj]
    exact hi.same
  · simp only [hh,hq]
    exact hi.queue
  · simp only [hh]
    exact hi.single
  · simp only [hh]
    exact hi.unreported
  · simp only [hq,hr,hl]
    exact hi.blocked
  · rw [hj,hq]
    exact hi.present
  · rw [ho,hf]
    exact hi.opened
  · rw [hj]
    exact hi.unnamed

theorem heldQueueOf_singleton (hrow : row ∈ db.jobs.rows) (hp : p row = true)
    (honly : ∀ r ∈ db.jobs.rows, p r = true → r = row) (q : JobQueue) :
    heldQueueOf w (db.jobs.rows.filter p) q = (q.lockedBy == some w && row.jobQueueId == some q.id) := by
  unfold heldQueueOf
  congr 1
  rw [Bool.eq_iff_iff,List.any_eq_true]
  constructor
  · rintro ⟨r,hr,hq⟩
    obtain ⟨hr,hpr⟩ := List.mem_filter.mp hr
    rwa [honly r hr hpr] at hq
  · intro hq
    exact ⟨row,List.mem_filter.mpr ⟨hrow,hp⟩,hq⟩

theorem unlockQueues_rows (hrow : row ∈ db.jobs.rows) (hp : p row = true)
    (honly : ∀ r ∈ db.jobs.rows, p r = true → r = row) :
    (db'.unlockQueues (heldQueueOf w (db.jobs.rows.filter p))).jobQueues.rows = db'.jobQueues.rows.map fun q =>
      if q.lockedBy == some w && row.jobQueueId == some q.id then q.unlock else q := by
  refine List.map_congr_left ?_
  intro q _
  rw [heldQueueOf_singleton hrow hp honly]

theorem released_completeQueued : Released cfg now db (completeQueued db [i] cfg.workerId) i where
  kept := by
    intro r hne
    show r ∈ db.jobs.rows.filter _ ↔ _
    simp [hne]
  gone := by
    intro r hr hid
    have := (List.mem_filter.mp hr).2
    simp [hid] at this
  queues := by
    rintro row hrow rfl
    refine unlockQueues_rows hrow (by simp) ?_
    intro r hr hp
    exact IdTable.eq_of_rowId hr hrow (by simpa using hp)

theorem released_completeUnqueued (hq : ∀ r ∈ db.jobs.rows, r.id = i → r.jobQueueId = none) :
    Released cfg now db (completeUnqueued db [i]) i := by
  have h : Released cfg now db (completeQueued db [i] cfg.workerId) i := released_completeQueued
  refine ⟨h.kept,h.gone,fun row hrow hid => ?_⟩
  show db.jobQueues.rows = _
  simp [hq row hrow hid]

theorem released_completeJob (hq : ∀ r ∈ db.jobs.rows, r.id = job.id → r.jobQueueId = job.jobQueueId) :
    Released cfg now db (completeJob db job cfg.workerId) job.id := by
  unfold completeJob
  cases hj : job.jobQueueId with
  | none => exact released_completeUnqueued fun r hr hid => (hq r hr hid).trans hj
  | some g => exact released_completeQueued

def BacksOff (db : Db) (i : JobId) : Prop := ∀ r ∈ db.jobs.rows, r.id = i → 0 < expSeconds (min r.attempts 10)

theorem not_ready_fail {r : Job}
    (h : 0 < expSeconds (min r.attempts 10)) : ready cfg now (r.fail now error payload) = false := by
  have hlt : ¬(max now r.runAt + expSeconds (min r.attempts 10) ≤ now) :=
    not_le.mpr (lt_of_le_of_lt (le_max_left now r.runAt) (Int.lt_add_of_pos_right _ h))
  simp [ready,Job.fail,hlt]

theorem released_failJob (hrow : row ∈ db.jobs.rows)
    (hid : row.id = job.id) (hw : row.lockedBy = some cfg.workerId) (hq : row.jobQueueId = job.jobQueueId)
    (hb : BacksOff db job.id) : Released cfg now db (failJob db job cfg.workerId now error payload) job.id := by
  have honly : ∀ r ∈ db.jobs.rows, ownedBy cfg.workerId [job.id] r = true → r = row := by
    intro r hr ho
    have hrid := List.mem_singleton.mp ((ownedBy_iff _).mp ho).1
    exact IdTable.eq_of_rowId hr hrow (hrid.trans hid.symm)
  have hown : ownedBy cfg.workerId [job.id] row = true :=
    (ownedBy_iff _).mpr ⟨List.mem_singleton.mpr hid,hw⟩
  have hrows : (failJob db job cfg.workerId now error payload).jobs.rows =
      db.jobs.rows.map fun r => if ownedBy cfg.workerId [job.id] r then r.fail now error payload else r := by
    rw [failJob_jobs]
    rfl
  have hqueues : (failJob db job cfg.workerId now error payload).jobQueues.rows =
      db.jobQueues.rows.map fun q =>
        if q.lockedBy == some cfg.workerId && row.jobQueueId == some q.id then q.unlock else q := by
    unfold failJob
    cases hj : job.jobQueueId with
    | none =>
      have hnone : row.jobQueueId = none := hq.trans hj
      simp [hnone,Db.updateJobs]
    | some g => exact unlockQueues_rows hrow hown honly
  refine ⟨?_,?_,?_⟩
  · intro r hne
    rw [hrows]
    constructor
    · intro hr
      obtain ⟨x,hx,rfl⟩ := List.mem_map.mp hr
      split at hne
      · next ho =>
        refine absurd ?_ hne
        rw [honly x hx ho]
        exact hid
      · next ho =>
        rw [if_neg ho]
        exact hx
    · intro hr
      refine List.mem_map.mpr ⟨r,hr,?_⟩
      rw [if_neg]
      intro ho
      rw [honly r hr ho] at hne
      exact hne hid
  · intro r hr hrid
    rw [hrows] at hr
    obtain ⟨x,hx,rfl⟩ := List.mem_map.mp hr
    split at hrid
    · next ho =>
      rw [if_pos ho]
      exact ⟨rfl,not_ready_fail (hb x hx hrid)⟩
    · next ho =>
      obtain rfl : x = row := IdTable.eq_of_rowId hx hrow (hrid.trans hid.symm)
      exact absurd hown ho
  · intro r hr hrid
    rw [hqueues,IdTable.eq_of_rowId hr hrow (hrid.trans hid.symm)]

section Batches
variable {w : WorkerId} {f : FailedJob}

theorem deleteWhere_cons (i : JobId) (ids : List JobId) :
    (db.jobs.deleteWhere fun r => [i].contains r.id).deleteWhere (fun r => ids.contains r.id) =
      db.jobs.deleteWhere fun r => (i :: ids).contains r.id := by
  ext1
  · refine (List.filter_filter ..).trans (List.filter_congr ?_)
    intro r _
    simp only [List.contains_cons]
    cases r.id == i <;> simp
  · rfl

end Batches

namespace QueueInv

theorem pendingRow (hi : QueueInv cfg now db claims pending holders drained) (hp : job.id ∈ pending)
    (hj : job ∈ claims) : ∃ row ∈ db.jobs.rows, row.id = job.id ∧ row.lockedBy = some cfg.workerId ∧
      row.jobQueueId = job.jobQueueId := by
  obtain ⟨row,⟨hrow,hw,_⟩,hid⟩ := hi.unreported job.id hp
  exact ⟨row,hrow,hid,hw,hi.same job hj row hrow hid hw⟩

theorem release_completeJob (hi : QueueInv cfg now db claims (job.id :: pending) holders drained) (hj : job ∈ claims) :
    QueueInv cfg now (completeJob db job cfg.workerId) claims pending holders drained := by
  obtain ⟨row,hrow,hid,_,hq⟩ := hi.pendingRow List.mem_cons_self hj
  refine hi.release (released_completeJob ?_)
  intro r hr hrid
  rw [IdTable.eq_of_rowId hr hrow (hrid.trans hid.symm)]
  exact hq

theorem release_failJob {error : String} {payload : Option Json}
    (hi : QueueInv cfg now db claims (job.id :: pending) holders drained) (hj : job ∈ claims)
    (hb : BacksOff db job.id) :
    QueueInv cfg now (failJob db job cfg.workerId now error payload) claims pending holders drained := by
  obtain ⟨row,hrow,hid,hw,hq⟩ := hi.pendingRow List.mem_cons_self hj
  exact hi.release (released_failJob hrow hid hw hq hb)

variable {ids : List JobId}

theorem release_completeQueued (hi : QueueInv cfg now db claims (ids ++ pending) holders drained) :
    QueueInv cfg now (completeQueued db ids cfg.workerId) claims pending holders drained := by
  induction ids generalizing db with
  | nil => rwa [completeQueued_nil]
  | cons i ids ih =>
    have hone := hi.release released_completeQueued
    have hrest := ih hone
    rw [completeQueued_append] at hrest
    exact hrest

theorem release_completeUnqueued (hi : QueueInv cfg now db claims (ids ++ pending) holders drained)
    (hq : ∀ i ∈ ids, ∀ r ∈ db.jobs.rows, r.id = i → r.jobQueueId = none) :
    QueueInv cfg now (completeUnqueued db ids) claims pending holders drained := by
  induction ids generalizing db with
  | nil =>
    refine hi.congr ?_ rfl
    ext1
    · exact List.filter_eq_self.mpr fun _ _ => rfl
    · rfl
  | cons i ids ih =>
    have hone := hi.release (released_completeUnqueued (hq i List.mem_cons_self))
    refine (ih hone ?_).congr (deleteWhere_cons i ids).symm rfl
    intro x hx r hr
    exact hq x (List.mem_cons_of_mem _ hx) r (List.mem_filter.mp hr).1

theorem release_failJobs {jobs : List FailedJob}
    (hi : QueueInv cfg now db claims ((jobs.map fun f => f.job.id) ++ pending) holders drained)
    (hj : ∀ f ∈ jobs, f.job ∈ claims) (hb : ∀ f ∈ jobs, BacksOff db f.job.id) :
    QueueInv cfg now (failJobs db jobs cfg.workerId now) claims pending holders drained := by
  induction jobs generalizing db with
  | nil => exact hi
  | cons f rest ih =>
    obtain ⟨row,hrow,hid,hw,hq⟩ := hi.pendingRow List.mem_cons_self (hj f List.mem_cons_self)
    have hrel : Released cfg now db (failJob db f.job cfg.workerId now f.error none) f.job.id :=
      released_failJob hrow hid hw hq (hb f List.mem_cons_self)
    have hone := hi.release hrel
    have hother : ∀ g ∈ rest, g.job.id ≠ f.job.id := by
      intro g hg he
      refine (List.nodup_cons.mp hi.nodup).1 (List.mem_append_left _ ?_)
      exact List.mem_map.mpr ⟨g,hg,he⟩
    have hrest : QueueInv cfg now (failJobs (failJob db f.job cfg.workerId now f.error none) rest cfg.workerId now)
        claims pending holders drained := by
      refine ih hone (fun g hg => hj g (List.mem_cons_of_mem _ hg)) ?_
      intro g hg r hr hrid
      have hne : r.id ≠ f.job.id := hrid.symm ▸ hother g hg
      exact hb g (List.mem_cons_of_mem _ hg) r ((hrel.kept r hne).mp hr) hrid
    have hmatch : ∀ g ∈ f :: rest, ∀ r ∈ db.jobs.rows, ownedBy cfg.workerId [g.job.id] r = true →
        r.jobQueueId = g.job.jobQueueId := by
      intro g hg r hr ho
      obtain ⟨hrid,hl⟩ := (ownedBy_iff _).mp ho
      exact hi.same g.job (hj g hg) r hr (List.mem_singleton.mp hrid) hl
    rwa [failJob_eq_failJobs,failJobs_cons hmatch] at hrest

end QueueInv

end GraphileWorker.RunOnce
