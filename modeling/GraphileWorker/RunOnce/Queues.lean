import GraphileWorker.RunOnce.Claims
import GraphileWorker.Foundation.Counting

/-! # Ready jobs, queue locks and the slots that answer for them

`QueueInv`: a locked queue with ready jobs is locked for a holder, a claim whose slot has yet to
fetch again. Once the stream has ended there are no more free queues with ready jobs than holders
whose outcome is persisted.
-/
namespace GraphileWorker.RunOnce
open Foundation Database

/-- The claim query without its queue clause. -/
def ready (cfg : Config) (now : Time) (r : Job) : Bool :=
  r.isAvailable && decide (r.runAt ≤ now) && cfg.taskIds.contains r.taskId && cfg.filter.accepts r.flags

variable {cfg : Config} {now : Time} {db db' : Db}

theorem eligible_eq (r : Job) : eligible db cfg.taskIds cfg.filter now r = (ready cfg now r && queueClause db r) := by
  unfold eligible ready
  cases r.isAvailable <;> cases decide (r.runAt ≤ now) <;> cases cfg.taskIds.contains r.taskId <;>
    cases queueClause db r <;> simp

theorem ready_lock {r : Job} (h : ready cfg now r = true) : r.lock = none := by
  simp only [ready,Job.isAvailable,Bool.and_eq_true] at h
  simpa using h.1.1.1.1

section
variable (cfg now db)

def hasReady (g : QueueId) : Bool := db.jobs.rows.any fun r => ready cfg now r && r.jobQueueId == some g

/-- A queue from which the next fetch can take a job. -/
def isOpen (q : JobQueue) : Bool := q.isAvailable && hasReady cfg now db q.id

def openCount : ℕ := db.jobQueues.rows.countP (isOpen cfg now db)

/-- A job of a named queue that the worker has not locked any more. -/
def isFree (j : Job) : Bool := j.jobQueueId.isSome && !lockedAs db cfg.workerId j.id

def freeCount (holders : List Job) : ℕ := holders.countP (isFree cfg db)

/-- The rows of this run's claims that are still locked for it. -/
def HeldRow (claims : List Job) (r : Job) : Prop :=
  r ∈ db.jobs.rows ∧ r.lockedBy = some cfg.workerId ∧ ∃ j ∈ claims, j.id = r.id

structure QueueInv (claims : List Job) (pending : List JobId) (holders : List Job) (drained : Prop) : Prop where
  unready : ∀ j ∈ claims, ∀ r ∈ db.jobs.rows, r.id = j.id → ready cfg now r = false
  same : ∀ j ∈ claims, ∀ r ∈ db.jobs.rows, r.id = j.id → r.lockedBy = some cfg.workerId →
    r.jobQueueId = j.jobQueueId
  queue : ∀ r, HeldRow cfg db claims r → ∀ g, r.jobQueueId = some g →
    ∃ q ∈ db.jobQueues.rows, q.id = g ∧ q.lockedBy = some cfg.workerId
  single : ∀ r r', HeldRow cfg db claims r → HeldRow cfg db claims r' → ∀ g, r.jobQueueId = some g →
    r'.jobQueueId = some g → r = r'
  nodup : pending.Nodup
  unreported : ∀ i ∈ pending, ∃ r, HeldRow cfg db claims r ∧ r.id = i
  claimed : ∀ j ∈ holders, j ∈ claims
  blocked : ∀ q ∈ db.jobQueues.rows, q.isAvailable = false → hasReady cfg now db q.id = true →
    ∃ j ∈ holders, j.jobQueueId = some q.id ∧ lockedAs db cfg.workerId j.id = true
  present : ∀ r ∈ db.jobs.rows, ready cfg now r = true → ∀ g, r.jobQueueId = some g →
    ∃ q ∈ db.jobQueues.rows, q.id = g
  opened : drained → openCount cfg now db ≤ freeCount cfg db holders
  unnamed : drained → ∀ r ∈ db.jobs.rows, ready cfg now r = true → r.jobQueueId.isSome = true

/-- The row of job `i` is gone or waits for later, and its queue is unlocked if the worker holds it. -/
structure Released (db' : Db) (i : JobId) : Prop where
  kept : ∀ r, r.id ≠ i → (r ∈ db'.jobs.rows ↔ r ∈ db.jobs.rows)
  gone : ∀ r ∈ db'.jobs.rows, r.id = i → r.lock = none ∧ ready cfg now r = false
  queues : ∀ r ∈ db.jobs.rows, r.id = i → db'.jobQueues.rows = db.jobQueues.rows.map fun q =>
    if q.lockedBy == some cfg.workerId && r.jobQueueId == some q.id then q.unlock else q

end

theorem hasReady_iff {g : QueueId} :
    hasReady cfg now db g = true ↔ ∃ r ∈ db.jobs.rows, ready cfg now r = true ∧ r.jobQueueId = some g := by
  simp [hasReady]

variable {claims holders : List Job} {pending : List JobId} {drained : Prop} {i : JobId}

theorem lockedAs_heldRow {j : Job} (h : j ∈ claims) (hl : lockedAs db cfg.workerId j.id = true) :
    ∃ r, HeldRow cfg db claims r ∧ r.id = j.id := by
  obtain ⟨r,hf,hw⟩ := lockedAs_iff.mp hl
  obtain ⟨hr,hid⟩ := find_job.mp hf
  exact ⟨r,⟨hr,hw,j,h,hid.symm⟩,hid⟩

namespace Released

variable (h : Released cfg now db db' i)
include h

theorem lockedAs_ne {x : JobId} (hx : x ≠ i) : lockedAs db' cfg.workerId x = lockedAs db cfg.workerId x := by
  rw [Bool.eq_iff_iff,lockedAs_iff,lockedAs_iff]
  constructor
  · rintro ⟨r,hf,hl⟩
    obtain ⟨hr,rfl⟩ := find_job.mp hf
    exact ⟨r,find_job.mpr ⟨(h.kept r hx).mp hr,rfl⟩,hl⟩
  · rintro ⟨r,hf,hl⟩
    obtain ⟨hr,rfl⟩ := find_job.mp hf
    exact ⟨r,find_job.mpr ⟨(h.kept r hx).mpr hr,rfl⟩,hl⟩

theorem lockedAs_self : lockedAs db' cfg.workerId i = false := by
  rw [Bool.eq_false_iff,ne_eq,lockedAs_iff]
  rintro ⟨r,hf,hl⟩
  obtain ⟨hr,hid⟩ := find_job.mp hf
  rw [Job.lockedBy,(h.gone r hr hid).1] at hl
  cases hl

theorem ready_kept {r : Job} (hr : r ∈ db'.jobs.rows) (hready : ready cfg now r = true) :
    r ∈ db.jobs.rows ∧ r.id ≠ i := by
  have hne : r.id ≠ i := by
    intro hid
    rw [(h.gone r hr hid).2] at hready
    cases hready
  exact ⟨(h.kept r hne).mp hr,hne⟩

theorem heldRow_kept {r : Job} (hr : HeldRow cfg db' claims r) : HeldRow cfg db claims r ∧ r.id ≠ i := by
  obtain ⟨hm,hw,hj⟩ := hr
  have hne : r.id ≠ i := by
    intro hid
    rw [Job.lockedBy,(h.gone r hm hid).1] at hw
    cases hw
  exact ⟨⟨(h.kept r hne).mp hm,hw,hj⟩,hne⟩

theorem hasReady_eq (hlock : ∀ r ∈ db.jobs.rows, r.id = i → r.lock.isSome = true) (g : QueueId) :
    hasReady cfg now db' g = hasReady cfg now db g := by
  rw [Bool.eq_iff_iff,hasReady_iff,hasReady_iff]
  constructor
  · rintro ⟨r,hr,hready,hg⟩
    exact ⟨r,(h.ready_kept hr hready).1,hready,hg⟩
  · rintro ⟨r,hr,hready,hg⟩
    have hne : r.id ≠ i := by
      intro hid
      have hs := hlock r hr hid
      rw [ready_lock hready] at hs
      cases hs
    exact ⟨r,(h.kept r hne).mpr hr,hready,hg⟩

end Released

theorem isOpen_kept {row : Job} (hready : ∀ g, hasReady cfg now db' g = hasReady cfg now db g) {q : JobQueue}
    (hne : row.jobQueueId ≠ some q.id ∨ hasReady cfg now db q.id = false)
    (ho : isOpen cfg now db' (if q.lockedBy == some cfg.workerId && row.jobQueueId == some q.id then q.unlock
      else q) = true) : isOpen cfg now db q = true := by
  rcases hne with hne | hnone
  · have hc : ¬(q.lockedBy == some cfg.workerId && row.jobQueueId == some q.id) = true := by simp [hne]
    rw [if_neg hc] at ho
    unfold isOpen at ho ⊢
    rwa [hready] at ho
  · have hq := (Bool.and_eq_true_iff.mp ho).2
    have hqid : ((if q.lockedBy == some cfg.workerId && row.jobQueueId == some q.id then q.unlock
        else q) : JobQueue).id = q.id := by
      split <;> rfl
    rw [hready,hqid,hnone] at hq
    cases hq

theorem Released.isFree_mono (h : Released cfg now db db' i) {j : Job} (hf : isFree cfg db j = true) :
    isFree cfg db' j = true := by
  obtain ⟨hs,hl⟩ := Bool.and_eq_true_iff.mp hf
  refine Bool.and_eq_true_iff.mpr ⟨hs,?_⟩
  by_cases he : j.id = i
  · rw [he,h.lockedAs_self]
    rfl
  · rwa [h.lockedAs_ne he]

namespace QueueInv

theorem openCount_release {row : Job} (hi : QueueInv cfg now db claims pending holders drained)
    (h : Released cfg now db db' row.id) (hrow : HeldRow cfg db claims row)
    (hready : ∀ g, hasReady cfg now db' g = hasReady cfg now db g)
    (hholder : ∀ j ∈ holders, ∀ g, row.jobQueueId = some g → j.jobQueueId = some g →
      lockedAs db cfg.workerId j.id = true → j.id = row.id)
    (hopen : openCount cfg now db ≤ freeCount cfg db holders) :
    openCount cfg now db' ≤ freeCount cfg db' holders := by
  have hmono : freeCount cfg db holders ≤ freeCount cfg db' holders :=
    List.countP_mono_left fun j _ => h.isFree_mono
  have hcount : openCount cfg now db' = db.jobQueues.rows.countP fun q => isOpen cfg now db'
      (if q.lockedBy == some cfg.workerId && row.jobQueueId == some q.id then q.unlock else q) := by
    rw [openCount,h.queues row hrow.1 rfl,List.countP_map]
    rfl
  by_cases hg : ∃ g, row.jobQueueId = some g ∧ hasReady cfg now db g = true
  · obtain ⟨g,hg,hgr⟩ := hg
    obtain ⟨q,hq,hqid,hqw⟩ := hi.queue row hrow g hg
    have hqa : q.isAvailable = false := by
      obtain ⟨l,hl,_⟩ := Option.map_eq_some_iff.mp hqw
      simp [JobQueue.isAvailable,hl]
    obtain ⟨j,hj,hjq,hjl⟩ := hi.blocked q hq hqa (hqid.symm ▸ hgr)
    have hjid := hholder j hj g hg (hqid ▸ hjq) hjl
    have hless : freeCount cfg db holders < freeCount cfg db' holders := by
      refine countP_lt_countP (fun j _ => h.isFree_mono) ⟨j,hj,?_,?_⟩
      · simp [isFree,hjl]
      · simp [isFree,hjq,hjid,h.lockedAs_self]
    have hsucc : openCount cfg now db' ≤ openCount cfg now db + 1 := by
      rw [hcount]
      refine countP_le_succ db.jobQueues.nodup (k := g) ?_
      intro q' _ ho
      by_cases hne : q'.id = g
      · exact .inr hne
      · exact .inl (isOpen_kept hready (.inl (by rw [hg]; simpa using Ne.symm hne)) ho)
    omega
  · have hle : openCount cfg now db' ≤ openCount cfg now db := by
      rw [hcount]
      refine List.countP_mono_left ?_
      intro q _ ho
      refine isOpen_kept hready ?_ ho
      by_cases hq : row.jobQueueId = some q.id
      · refine .inr (Bool.eq_false_iff.mpr fun hr => hg ⟨q.id,hq,hr⟩)
      · exact .inl hq
    omega

theorem release (hi : QueueInv cfg now db claims (i :: pending) holders drained)
    (h : Released cfg now db db' i) : QueueInv cfg now db' claims pending holders drained := by
  obtain ⟨row,hrow,rfl⟩ := hi.unreported i List.mem_cons_self
  obtain ⟨hmem,hlock,hclaim⟩ := hrow
  have hqueues := h.queues row hmem rfl
  have huniq : ∀ r ∈ db.jobs.rows, r.id = row.id → r = row := fun r hr hid => IdTable.eq_of_rowId hr hmem hid
  have hlocked : ∀ r ∈ db.jobs.rows, r.id = row.id → r.lock.isSome = true := by
    intro r hr hid
    rw [huniq r hr hid]
    obtain ⟨l,hl,_⟩ := Option.map_eq_some_iff.mp hlock
    rw [hl]
    rfl
  have hready := h.hasReady_eq hlocked
  have hold : HeldRow cfg db claims row := ⟨hmem,hlock,hclaim⟩
  -- a holder in the released queue is the released claim
  have hholder : ∀ j ∈ holders, ∀ g, row.jobQueueId = some g → j.jobQueueId = some g →
      lockedAs db cfg.workerId j.id = true → j.id = row.id := by
    intro j hj g hg hjg hl
    obtain ⟨r,hr,hid⟩ := lockedAs_heldRow (hi.claimed j hj) hl
    have hrg : r.jobQueueId = some g := (hi.same j (hi.claimed j hj) r hr.1 hid hr.2.1).trans hjg
    rw [← hid,hi.single r row hr hold g hrg hg]
  constructor
  case unready =>
    intro j hj r hr hid
    by_cases he : r.id = row.id
    · exact (h.gone r hr he).2
    · exact hi.unready j hj r ((h.kept r he).mp hr) hid
  case same =>
    intro j hj r hr hid hw
    by_cases he : r.id = row.id
    · rw [Job.lockedBy,(h.gone r hr he).1] at hw
      cases hw
    · exact hi.same j hj r ((h.kept r he).mp hr) hid hw
  case queue =>
    intro r hr g hg
    obtain ⟨hr',hne⟩ := h.heldRow_kept hr
    obtain ⟨q,hq,hqid,hqw⟩ := hi.queue r hr' g hg
    refine ⟨q,?_,hqid,hqw⟩
    rw [hqueues]
    refine List.mem_map.mpr ⟨q,hq,?_⟩
    rw [if_neg]
    intro hc
    obtain ⟨_,hrow⟩ := Bool.and_eq_true_iff.mp hc
    have hrowg : row.jobQueueId = some g := by
      rw [← hqid]
      simpa using hrow
    exact hne (by rw [hi.single r row hr' hold g hg hrowg])
  case single =>
    intro r r' hr hr' g hg hg'
    exact hi.single r r' (h.heldRow_kept hr).1 (h.heldRow_kept hr').1 g hg hg'
  case nodup =>
    exact (List.nodup_cons.mp hi.nodup).2
  case unreported =>
    intro x hx
    obtain ⟨r,⟨hr,hw,hj⟩,rfl⟩ := hi.unreported x (List.mem_cons_of_mem _ hx)
    have hne : r.id ≠ row.id := by
      intro he
      rw [he] at hx
      exact (List.nodup_cons.mp hi.nodup).1 hx
    exact ⟨r,⟨(h.kept r hne).mpr hr,hw,hj⟩,rfl⟩
  case claimed => exact hi.claimed
  case blocked =>
    intro q' hq' hl hg
    rw [hqueues] at hq'
    obtain ⟨q,hq,rfl⟩ := List.mem_map.mp hq'
    by_cases hc : (q.lockedBy == some cfg.workerId && row.jobQueueId == some q.id) = true
    · rw [if_pos hc] at hl
      cases hl
    · rw [if_neg hc] at hl hg ⊢
      rw [hready] at hg
      obtain ⟨j,hj,hjq,hjl⟩ := hi.blocked q hq hl hg
      refine ⟨j,hj,hjq,?_⟩
      rw [h.lockedAs_ne]
      · exact hjl
      · intro he
        obtain ⟨r,hr,hid⟩ := lockedAs_heldRow (hi.claimed j hj) hjl
        have hrow : r = row := huniq r hr.1 (hid.trans he)
        have hrowq : row.jobQueueId = some q.id := by
          rw [← hrow,hi.same j (hi.claimed j hj) r hr.1 hid hr.2.1,hjq]
        obtain ⟨q₂,hq₂,hid₂,hw₂⟩ := hi.queue row hold q.id hrowq
        rw [IdTable.eq_of_rowId hq₂ hq hid₂] at hw₂
        exact hc (by simp [hw₂,hrowq])
  case present =>
    intro r hr hready' g hg
    obtain ⟨q,hq,hqid⟩ := hi.present r (h.ready_kept hr hready').1 hready' g hg
    rw [hqueues]
    refine ⟨_,List.mem_map.mpr ⟨q,hq,rfl⟩,?_⟩
    split <;> exact hqid
  case opened =>
    intro hd
    exact hi.openCount_release h hold hready hholder (hi.opened hd)
  case unnamed =>
    intro hd r hr hready'
    exact hi.unnamed hd r (h.ready_kept hr hready').1 hready'

end QueueInv

section Claimed
variable {r x : Job} {w : WorkerId} {g : QueueId}

theorem not_ready_claim : ready cfg now (r.claim w now) = false := by
  simp [ready,Job.isAvailable,Job.claim]

theorem ready_claimRows (hr : r ∈ db.jobs.rows) (hx : x ∈ (claimRows db w now [r]).jobs.rows)
    (hready : ready cfg now x = true) : x ∈ db.jobs.rows ∧ x.id ≠ r.id := by
  rcases (mem_claimRows hr).mp hx with rfl | hx
  · rw [not_ready_claim] at hready
    cases hready
  · exact hx

theorem hasReady_claimRows (hr : r ∈ db.jobs.rows)
    (h : hasReady cfg now (claimRows db w now [r]) g = true) : hasReady cfg now db g = true := by
  obtain ⟨x,hx,hready,hg⟩ := hasReady_iff.mp h
  exact hasReady_iff.mpr ⟨x,(ready_claimRows hr hx hready).1,hready,hg⟩

theorem lockedAs_claimRows (hr : r ∈ db.jobs.rows) {y : JobId} :
    lockedAs (claimRows db w now [r]) w y = true ↔ y = r.id ∨ lockedAs db w y = true := by
  rw [lockedAs_iff,lockedAs_iff]
  constructor
  · rintro ⟨x,hf,hl⟩
    obtain ⟨hx,rfl⟩ := find_job.mp hf
    rcases (mem_claimRows hr).mp hx with rfl | ⟨hx,_⟩
    · exact .inl rfl
    · exact .inr ⟨x,find_job.mpr ⟨hx,rfl⟩,hl⟩
  · intro h
    by_cases hy : y = r.id
    · exact ⟨r.claim w now,find_job.mpr ⟨(mem_claimRows hr).mpr (.inl rfl),hy.symm⟩,rfl⟩
    · obtain ⟨x,hf,hl⟩ := h.resolve_left hy
      obtain ⟨hx,hid⟩ := find_job.mp hf
      exact ⟨x,find_job.mpr ⟨(mem_claimRows hr).mpr (.inr ⟨hx,fun he => hy (hid.symm.trans he)⟩),hid⟩,hl⟩

theorem queue_of_eligible (he : eligible db cfg.taskIds cfg.filter now r = true)
    (hg : r.jobQueueId = some g) : ∃ q ∈ db.jobQueues.rows, q.id = g ∧ q.isAvailable = true := by
  rw [eligible_eq] at he
  have hq := (Bool.and_eq_true_iff.mp he).2
  unfold queueClause at hq
  rw [hg] at hq
  simpa using hq

theorem heldRow_claimRows (hr : r ∈ db.jobs.rows)
    (h : HeldRow cfg (claimRows db cfg.workerId now [r]) (claims ++ [r.claim cfg.workerId now]) x) :
    x = r.claim cfg.workerId now ∨ (HeldRow cfg db claims x ∧ x.id ≠ r.id) := by
  obtain ⟨hx,hw,j,hj,hid⟩ := h
  rcases (mem_claimRows hr).mp hx with rfl | ⟨hx,hne⟩
  · exact .inl rfl
  · refine .inr ⟨⟨hx,hw,j,?_,hid⟩,hne⟩
    rcases List.mem_append.mp hj with hj | hj
    · exact hj
    · rw [List.mem_singleton.mp hj] at hid
      exact absurd hid.symm hne

end Claimed

namespace QueueInv
variable {r : Job} {rest : List Job}

theorem freeCount_claim (cfg : Config) (now : Time) (hr : r ∈ db.jobs.rows) (hne : ∀ j ∈ rest, j.id ≠ r.id) :
    freeCount cfg db rest ≤
      freeCount cfg (claimRows db cfg.workerId now [r]) (r.claim cfg.workerId now :: rest) := by
  unfold freeCount
  rw [List.countP_cons]
  refine le_trans (List.countP_mono_left ?_) (Nat.le_add_right _ _)
  intro j hj hf
  obtain ⟨hs,hl⟩ := Bool.and_eq_true_iff.mp hf
  refine Bool.and_eq_true_iff.mpr ⟨hs,?_⟩
  rw [Bool.not_eq_true',Bool.eq_false_iff,ne_eq,lockedAs_claimRows hr]
  rintro (hid | hl')
  · exact hne j hj hid
  · rw [hl'] at hl
    cases hl

theorem not_isOpen (hn : ∀ r ∈ db.jobs.rows, eligible db cfg.taskIds cfg.filter now r = false) :
    openCount cfg now db = 0 := by
  unfold openCount
  rw [List.countP_eq_zero]
  intro q hq ho
  obtain ⟨ha,hg⟩ := Bool.and_eq_true_iff.mp ho
  obtain ⟨r,hr,hready,hrq⟩ := hasReady_iff.mp hg
  have hc : queueClause db r = true := by
    unfold queueClause
    rw [hrq]
    exact List.any_eq_true.mpr ⟨q,hq,by simp [ha]⟩
  have := hn r hr
  rw [eligible_eq,hready,hc] at this
  cases this

variable (hi : QueueInv cfg now db claims pending holders drained)
include hi

theorem heldRow_queue_ne (he : eligible db cfg.taskIds cfg.filter now r = true) {x : Job} (hx : HeldRow cfg db claims x)
    {g : QueueId} (hg : x.jobQueueId = some g) : r.jobQueueId ≠ some g := by
  intro hrg
  obtain ⟨q,hq,hqid,hqa⟩ := queue_of_eligible he hrg
  obtain ⟨q',hq',hqid',hqw⟩ := hi.queue x hx g hg
  rw [IdTable.eq_of_rowId hq' hq (hqid'.trans hqid.symm)] at hqw
  obtain ⟨l,hl,_⟩ := Option.map_eq_some_iff.mp hqw
  rw [JobQueue.isAvailable,hl] at hqa
  cases hqa

theorem openCount_claim (hd : drained)
    (hr : r ∈ db.jobs.rows) (he : eligible db cfg.taskIds cfg.filter now r = true)
    (hready : ready cfg now r = true) :
    openCount cfg now (claimRows db cfg.workerId now [r]) < openCount cfg now db := by
  obtain ⟨g,hg⟩ := Option.isSome_iff_exists.mp (hi.unnamed hd r hr hready)
  obtain ⟨q,hq,hqid,hqa⟩ := queue_of_eligible he hg
  have hcount : openCount cfg now (claimRows db cfg.workerId now [r]) = db.jobQueues.rows.countP fun q =>
      isOpen cfg now (claimRows db cfg.workerId now [r])
        (if [r].any fun c => c.jobQueueId == some q.id then q.claim cfg.workerId now else q) :=
    List.countP_map ..
  rw [hcount]
  refine countP_lt_countP ?_ ⟨q,hq,?_,?_⟩
  · intro q' _ ho
    split at ho
    · exact absurd (Bool.and_eq_true_iff.mp ho).1 (by simp [JobQueue.isAvailable,JobQueue.claim])
    · obtain ⟨ha,hrd⟩ := Bool.and_eq_true_iff.mp ho
      exact Bool.and_eq_true_iff.mpr ⟨ha,hasReady_claimRows hr hrd⟩
  · have hc : ([r].any fun c => c.jobQueueId == some q.id) = true := by simp [hg,hqid]
    rw [if_pos hc]
    simp [isOpen,JobQueue.isAvailable,JobQueue.claim]
  · exact Bool.and_eq_true_iff.mpr ⟨hqa,hasReady_iff.mpr ⟨r,hr,hready,hqid ▸ hg⟩⟩

theorem blocked_rest (hkeep : ∀ j ∈ holders, j ∈ rest ∨ lockedAs db cfg.workerId j.id = false ∨
      ∀ g, j.jobQueueId = some g → hasReady cfg now db g = false) {q : JobQueue} (hq : q ∈ db.jobQueues.rows)
    (hl : q.isAvailable = false) (hg : hasReady cfg now db q.id = true) :
    ∃ j ∈ rest, j.jobQueueId = some q.id ∧ lockedAs db cfg.workerId j.id = true := by
  obtain ⟨j,hj,hjq,hjl⟩ := hi.blocked q hq hl hg
  refine ⟨j,?_,hjq,hjl⟩
  rcases hkeep j hj with hrest | hfree | hnone
  · exact hrest
  · rw [hfree] at hjl
    cases hjl
  · rw [hnone q.id hjq] at hg
    cases hg

/-- A job is claimed, and the slot that fetched it answers for it; `rest` are the other holders. -/
theorem claim (hr : r ∈ db.jobs.rows)
    (he : eligible db cfg.taskIds cfg.filter now r = true) (hsub : ∀ j ∈ rest, j ∈ claims)
    (hkeep : ∀ j ∈ holders, j ∈ rest ∨ lockedAs db cfg.workerId j.id = false ∨
      ∀ g, j.jobQueueId = some g → hasReady cfg now db g = false)
    (hcount : drained → freeCount cfg db holders ≤ freeCount cfg db rest + 1) :
    QueueInv cfg now (claimRows db cfg.workerId now [r]) (claims ++ [r.claim cfg.workerId now])
      (r.id :: pending) (r.claim cfg.workerId now :: rest) drained := by
  have hready : ready cfg now r = true := by
    rw [eligible_eq] at he
    exact (Bool.and_eq_true_iff.mp he).1
  -- a claimed job is not claimed again
  have hfresh : ∀ j ∈ claims, j.id ≠ r.id := by
    intro j hj hid
    have := hi.unready j hj r hr hid.symm
    rw [hready] at this
    cases this
  constructor
  case unready =>
    intro j hj x hx hid
    rcases (mem_claimRows hr).mp hx with rfl | ⟨hx,hne⟩
    · exact not_ready_claim
    · rcases List.mem_append.mp hj with hj | hj
      · exact hi.unready j hj x hx hid
      · rw [List.mem_singleton.mp hj] at hid
        exact absurd hid hne
  case same =>
    intro j hj x hx hid hw
    rcases (mem_claimRows hr).mp hx with rfl | ⟨hx,hne⟩
    · rcases List.mem_append.mp hj with hj | hj
      · exact absurd hid.symm (hfresh j hj)
      · rw [List.mem_singleton.mp hj]
    · rcases List.mem_append.mp hj with hj | hj
      · exact hi.same j hj x hx hid hw
      · rw [List.mem_singleton.mp hj] at hid
        exact absurd hid hne
  case queue =>
    intro x hx g hg
    rcases heldRow_claimRows hr hx with rfl | ⟨hx,_⟩
    · have hrg : r.jobQueueId = some g := hg
      obtain ⟨q,hq,hqid,_⟩ := queue_of_eligible he hrg
      refine ⟨q.claim cfg.workerId now,List.mem_map.mpr ⟨q,hq,?_⟩,hqid,rfl⟩
      rw [if_pos]
      simp [hrg,hqid]
    · obtain ⟨q,hq,hqid,hqw⟩ := hi.queue x hx g hg
      refine ⟨q,List.mem_map.mpr ⟨q,hq,?_⟩,hqid,hqw⟩
      rw [if_neg]
      have hne := hi.heldRow_queue_ne he hx hg
      simpa [hqid] using hne
  case single =>
    intro x x' hx hx' g hg hg'
    rcases heldRow_claimRows hr hx with rfl | ⟨hx,_⟩
    · rcases heldRow_claimRows hr hx' with rfl | ⟨hx',_⟩
      · rfl
      · exact absurd hg (hi.heldRow_queue_ne he hx' hg')
    · rcases heldRow_claimRows hr hx' with rfl | ⟨hx',_⟩
      · exact absurd hg' (hi.heldRow_queue_ne he hx hg)
      · exact hi.single x x' hx hx' g hg hg'
  case nodup =>
    refine List.nodup_cons.mpr ⟨fun hp => ?_,hi.nodup⟩
    obtain ⟨x,⟨_,_,j,hj,hjx⟩,hid⟩ := hi.unreported r.id hp
    exact hfresh j hj (hjx.trans hid)
  case unreported =>
    intro y hy
    rcases List.mem_cons.mp hy with rfl | hy
    · exact ⟨r.claim cfg.workerId now,⟨(mem_claimRows hr).mpr (.inl rfl),rfl,_,
        List.mem_append_right _ (List.mem_singleton_self _),rfl⟩,rfl⟩
    · obtain ⟨x,⟨hx,hw,j,hj,hjx⟩,hid⟩ := hi.unreported y hy
      have hne : x.id ≠ r.id := fun he' => hfresh j hj (hjx.trans he')
      exact ⟨x,⟨(mem_claimRows hr).mpr (.inr ⟨hx,hne⟩),hw,j,List.mem_append_left _ hj,hjx⟩,hid⟩
  case claimed =>
    intro j hj
    rcases List.mem_cons.mp hj with rfl | hj
    · exact List.mem_append_right _ (List.mem_singleton_self _)
    · exact List.mem_append_left _ (hsub j hj)
  case blocked =>
    intro q' hq' hl hg
    obtain ⟨q,hq,rfl⟩ := List.mem_map.mp hq'
    by_cases hc : ([r].any fun c => c.jobQueueId == some q.id) = true
    · have hrq : r.jobQueueId = some q.id := by simpa using hc
      rw [if_pos hc]
      exact ⟨_,List.mem_cons_self,hrq,(lockedAs_claimRows hr).mpr (.inl rfl)⟩
    · rw [if_neg hc] at hl hg ⊢
      obtain ⟨j,hj,hjq,hjl⟩ := hi.blocked_rest hkeep hq hl (hasReady_claimRows hr hg)
      exact ⟨j,List.mem_cons_of_mem _ hj,hjq,(lockedAs_claimRows hr).mpr (.inr hjl)⟩
  case present =>
    intro x hx hrx g hg
    obtain ⟨q,hq,hqid⟩ := hi.present x (ready_claimRows hr hx hrx).1 hrx g hg
    refine ⟨_,List.mem_map.mpr ⟨q,hq,rfl⟩,?_⟩
    split <;> exact hqid
  case opened =>
    intro hd
    have hless := hi.openCount_claim hd hr he hready
    have hopen := hi.opened hd
    have hfree := hcount hd
    have hmono := freeCount_claim cfg now hr fun j hj => hfresh j (hsub j hj)
    omega
  case unnamed =>
    intro hd x hx hrx
    exact hi.unnamed hd x (ready_claimRows hr hx hrx).1 hrx

theorem drain (hn : ∀ r ∈ db.jobs.rows, eligible db cfg.taskIds cfg.filter now r = false) :
    QueueInv cfg now db claims pending holders True := by
  refine { hi with opened := fun _ => ?_, unnamed := fun _ r hr hready => ?_ }
  · rw [not_isOpen hn]
    exact Nat.zero_le _
  · by_contra hnone
    have hq : r.jobQueueId = none := by simpa using hnone
    have hc : queueClause db r = true := by
      unfold queueClause
      rw [hq]
    have := hn r hr
    rw [eligible_eq,hready,hc] at this
    cases this

theorem dropHolders (hsub : ∀ j ∈ rest, j ∈ claims)
    (hkeep : ∀ j ∈ holders, j ∈ rest ∨ lockedAs db cfg.workerId j.id = false ∨
      ∀ g, j.jobQueueId = some g → hasReady cfg now db g = false)
    (hopen : drained → openCount cfg now db ≤ freeCount cfg db rest) :
    QueueInv cfg now db claims pending rest drained :=
  { hi with
    claimed := hsub
    blocked := fun _ hq hl hg => hi.blocked_rest hkeep hq hl hg
    opened := hopen }

theorem dropPending {rest : List JobId}
    (h : rest.Sublist pending) : QueueInv cfg now db claims rest holders drained :=
  { hi with
    nodup := hi.nodup.sublist h
    unreported := fun i hi' => hi.unreported i (h.subset hi') }

theorem weaken {drained' : Prop}
    (h : drained' → drained) : QueueInv cfg now db claims pending holders drained' :=
  { hi with
    opened := fun hd => hi.opened (h hd)
    unnamed := fun hd => hi.unnamed (h hd) }

theorem perm {pending' : List JobId}
    {holders' : List Job} (hp : pending.Perm pending') (hh : holders.Perm holders') :
    QueueInv cfg now db claims pending' holders' drained := by
  refine { hi with
    nodup := hp.nodup_iff.mp hi.nodup
    unreported := fun i h => hi.unreported i (hp.mem_iff.mpr h)
    claimed := fun j h => hi.claimed j (hh.mem_iff.mpr h)
    blocked := fun q hq hl hg => ?_
    opened := fun hd => ?_ }
  · obtain ⟨j,hj,hjq⟩ := hi.blocked q hq hl hg
    exact ⟨j,hh.mem_iff.mp hj,hjq⟩
  · unfold freeCount
    rw [← hh.countP_eq]
    exact hi.opened hd

end QueueInv

end GraphileWorker.RunOnce
