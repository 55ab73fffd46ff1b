import GraphileWorker.Recovery.Retirement
import Mathlib.Logic.Relation

/-! # What a statement can write to a job row

`Write` lists the assignments that the statements make to a row. `Rewrites` says that every row
after a step comes from a row before it, or is new, by such assignments; it composes.
-/
namespace GraphileWorker.Recovery
open Foundation Database

/-- The jobs whose schedule a statement may set. -/
def reschedules : RecoveryStatement → List JobId
  | .plain (.rescheduleJobs ids _) => ids
  | .setRecoveredJobSchedule jobId _ _ => [jobId]
  | _ => []

/-- The statements by which the worker reports a failure of the job. -/
def failsJob (w : WorkerId) (i : JobId) : Statement → Bool
  | .failJob v job _ _ => v == w && [job.id].contains i
  | .failJobs v jobs => v == w && (jobs.map fun f => f.job.id).contains i
  | _ => false

/-- The statements that unlock a job while the worker holds it. -/
def givesUp (w : WorkerId) (i : JobId) : RecoveryStatement → Bool
  | .plain (.privateReturnJobs v ids _) => v == w && ids.contains i
  | .plain (.recoverDeadWorkerJobs ws _) => ws.contains w
  | .plain (.forceUnlockWorkers ws) => ws.contains w
  | .plain st => failsJob w i st
  | .setRecoveredJobSchedule .. => false

/-- The statements that give a consumed attempt back. -/
def restores : RecoveryStatement → Bool
  | .plain (.privateReturnJobs ..) | .plain (.recoverDeadWorkerJobs ..) => true
  | _ => false

inductive Write (now : Time) (st : RecoveryStatement) (r : Job) : Job → Prop
  | replaced (excluded : Job) (preserve : Bool) (ha : r.isAvailable = true) (hm : 1 ≤ excluded.maxAttempts)
      (hk : r.key.isSome = true) : Write now st r (Job.replaceWith excluded preserve now r)
  | deduped : Write now st r (r.dedupe now)
  | retired : Write now st r (r.retire now)
  | claimed (w : WorkerId) (ha : r.isAvailable = true) (hd : r.runAt ≤ now) (hs : restores st = false) :
      Write now st r (r.claim w now)
  | failed (w : WorkerId) (error : String) (payload : Option Json) (hl : r.lockedBy = some w)
      (hg : givesUp w r.id st = true) : Write now st r (r.fail now error payload)
  /-- A return, a recovery or a forced unlock. -/
  | released (w : WorkerId) (r' : Job) (hl : r.lockedBy = some w) (hg : givesUp w r.id st = true)
      (hid : r'.id = r.id) (hn : r'.lock = none) (hm : r'.maxAttempts = r.maxAttempts)
      (ha : r'.attempts = r.attempts ∨ restores st = true ∧ r'.attempts = max 0 (r.attempts - 1))
      (hk : r'.key = r.key) : Write now st r r'
  | failedPermanently (message : Option String) : Write now st r (r.failPermanently now message)
  | rescheduled (o : RescheduleJobOptions) (hi : r.id ∈ reschedules st)
      (hm : 1 ≤ (Job.reschedule now o r).maxAttempts) :
      Write now st r (Job.reschedule now o r)
  | scheduled (runAt : Time) (attempts : Option ℤ) (hi : r.id ∈ reschedules st) :
      Write now st r (setSchedule now runAt attempts r)

variable {r : Job}

theorem Write.id_eq {now : Time} {st : RecoveryStatement} {r' : Job} (h : Write now st r r') :
    r'.id = r.id := by
  cases h with
  | released w r' hl hg hid hn hm ha => exact hid
  | replaced | deduped | retired | claimed | failed | failedPermanently | rescheduled | scheduled => rfl

structure Fresh (r : Job) : Prop where
  lock : r.lock = none
  attempts : r.attempts = 0
  maxAttempts : 1 ≤ r.maxAttempts

structure Rewrites (W : Job → Job → Prop) (db db' : Db) : Prop where
  next : db.jobs.next ≤ db'.jobs.next
  rows : ∀ r' ∈ db'.jobs.rows, (∃ r ∈ db.jobs.rows, r.id = r'.id ∧ Relation.ReflTransGen W r r') ∨
    (db.jobs.next ≤ r'.id ∧ ∃ r, Fresh r ∧ Relation.ReflTransGen W r r')

variable {W : Job → Job → Prop} {db db' db'' : Db} {now : Time} {st : RecoveryStatement} {ids : List JobId}
  {w : WorkerId}
  {P : Job → Prop}

namespace Rewrites

theorem of_subset (hn : db.jobs.next ≤ db'.jobs.next) (hs : db'.jobs.rows ⊆ db.jobs.rows) : Rewrites W db db' :=
  ⟨hn,fun r hr => .inl ⟨r,hs hr,rfl,.refl⟩⟩

theorem of_eq (h : db'.jobs = db.jobs) : Rewrites W db db' :=
  of_subset (by rw [h]) (by rw [h]; exact List.Subset.refl _)

theorem refl : Rewrites W db db := of_eq rfl

theorem trans (h : Rewrites W db db') (h' : Rewrites W db' db'') : Rewrites W db db'' := by
  refine ⟨h.next.trans h'.next,fun r'' hr'' => ?_⟩
  rcases h'.rows r'' hr'' with ⟨r',hr',hid',hw'⟩ | ⟨hid,hfresh⟩
  · rcases h.rows r' hr' with ⟨r,hr,hid,hw⟩ | ⟨hid,r,hf,hw⟩
    · exact .inl ⟨r,hr,hid.trans hid',hw.trans hw'⟩
    · exact .inr ⟨hid' ▸ hid,r,hf,hw.trans hw'⟩
  · exact .inr ⟨h.next.trans hid,hfresh⟩

variable {p : Job → Bool}

theorem update {f : Job → Job} (hr : db'.jobs.rows = db.jobs.rows.map fun r => if p r then f r else r)
    (hn : db'.jobs.next = db.jobs.next) (hf : ∀ r, (f r).id = r.id)
    (hw : ∀ r ∈ db.jobs.rows, p r = true → W r (f r)) : Rewrites W db db' := by
  refine ⟨hn.ge,fun r' hr' => ?_⟩
  rw [hr] at hr'
  obtain ⟨r,hm,rfl⟩ := List.mem_map.mp hr'
  by_cases hp : p r = true
  · rw [if_pos hp]
    exact .inl ⟨r,hm,(hf r).symm,.single (hw r hm hp)⟩
  · rw [if_neg hp]
    exact .inl ⟨r,hm,rfl,.refl⟩

theorem deleteJobs : Rewrites W db (db.deleteJobs p) :=
  of_subset (le_refl _) (List.filter_subset_self _)

theorem insert {mk : ℕ → Job} {hmk : ∀ n, rowId (mk n) = n} (hf : Fresh (mk db.jobs.next)) :
    Rewrites W db { db with jobs := db.jobs.insert mk hmk } := by
  refine ⟨Nat.le_succ _,fun r hr => ?_⟩
  rcases List.mem_append.mp hr with hr | hr
  · exact .inl ⟨r,hr,rfl,.refl⟩
  · rw [List.mem_singleton.mp hr]
    exact .inr ⟨(hmk db.jobs.next).ge,_,hf,.refl⟩

theorem skip : Rewrites W db { db with jobs := db.jobs.skip } := of_subset (Nat.le_succ _) (List.Subset.refl _)

theorem unlocking (h : Rewrites W db db') {pq : JobQueue → Bool} (queued : Bool) :
    Rewrites W db (if queued then db'.unlockQueues pq else db') := by
  cases queued with
  | true => exact h.trans (of_eq rfl)
  | false => exact h

end Rewrites

theorem rewrites_of_adds (h : Adds now db db') : Rewrites (Write now st) db db' := by
  cases h with
  | task | queue => exact .of_eq rfl
  | retire specs => exact .update rfl rfl (fun _ => rfl) fun _ _ _ => .retired
  | insert spec taskId hcheck => exact .insert ⟨rfl,rfl,maxAttempts_of_checkJob hcheck⟩
  | skip => exact .skip
  | replace excluded r preserve hr ha hm hk =>
    refine .update rfl rfl (fun _ => rfl) fun s hs hsel => ?_
    have hid : s.id = r.id := by simpa using (Bool.and_eq_true_iff.mp hsel).1
    obtain rfl : s = r := IdTable.eq_of_rowId hs hr hid
    exact .replaced excluded preserve ha hm hk
  | dedupe i => exact .update rfl rfl (fun _ => rfl) fun _ _ _ => .deduped

theorem rewrites_of_added (h : Added now db db') : Rewrites (Write now st) db db' := by
  induction h with
  | refl => exact .refl
  | tail _ hs ih => exact ih.trans (rewrites_of_adds hs)

theorem rewrites_claimRows {j : List Job} (hs : restores st = false)
    (hj : ∀ c ∈ j, c ∈ db.jobs.rows ∧ c.isAvailable = true ∧ c.runAt ≤ now) :
    Rewrites (Write now st) db (claimRows db w now j) := by
  refine .update rfl rfl (fun _ => rfl) fun r hr hsel => ?_
  obtain ⟨c,hc,hid⟩ := List.any_eq_true.mp hsel
  obtain ⟨hmem,ha,hd⟩ := hj c hc
  obtain rfl : c = r := IdTable.eq_of_rowId hmem hr (by simpa using hid)
  exact .claimed w ha hd hs

theorem available_of_eligible {taskIds : List TaskId} {filter : JobFlagFilter}
    (h : eligible db taskIds filter now r = true) : r.isAvailable = true ∧ r.runAt ≤ now := by
  simp only [eligible,Bool.and_eq_true,decide_eq_true_eq] at h
  exact h.1.1.1

theorem owned_of_ownedBy (h : ownedBy w ids r = true) : r.lockedBy = some w ∧ (w == w && ids.contains r.id) = true := by
  obtain ⟨hi,hw⟩ := (ownedBy_iff _).mp h
  exact ⟨hw,by simpa using hi⟩

theorem rewrites_completed (w : WorkerId) (queued : Bool) :
    Rewrites W db (if queued then completeQueued db ids w else completeUnqueued db ids) :=
  Rewrites.unlocking .deleteJobs queued

theorem holder_of_lockedJob {ws : List WorkerId} (h : lockedJob ws r = true) :
    ∃ w, r.lockedBy = some w ∧ ws.contains w = true := by
  cases hl : r.lockedBy with
  | none => simp [lockedJob,lockedByAny,hl] at h
  | some w => exact ⟨w,rfl,by simpa [lockedJob,lockedByAny,hl] using h⟩

theorem rewrites_removeJob {key : String} : Rewrites (Write now st) db (removeJob db key now).1 := by
  unfold removeJob
  split
  · exact .deleteJobs
  · exact Rewrites.update rfl rfl (fun _ => rfl) fun _ _ _ => .retired

theorem rewrites_rescheduleJobs {o : RescheduleJobOptions} {rows : List Job}
    (h : rescheduleJobs db ids o now = .ok (db',rows)) :
    Rewrites (Write now (.plain (.rescheduleJobs ids o))) db db' := by
  obtain ⟨o',rfl,hmax⟩ := rescheduleJobs_ok h
  refine .update rfl rfl (fun _ => rfl) fun r hr hsel => ?_
  have hi : r.id ∈ ids := by simpa using (Bool.and_eq_true_iff.mp hsel).1
  exact .rescheduled o' hi (hmax r hr hsel)

theorem rewrites_statement (st : Statement) :
    Rewrites (Write now (.plain st)) db (st.run db now) := by
  cases st with
  | addJob job localNow =>
    exact committed_of_ok (Rewrites _ db) .refl fun _ _ h => rewrites_of_added (added_addJobSql (mapError_eq_ok.mp h))
  | addJobs jobs preserve localNow =>
    exact committed_of_ok (Rewrites _ db) .refl fun _ _ h => rewrites_of_added (added_addJobs h)
  | getJobWithFilter w taskIds filter =>
    exact rewrites_claimRows rfl fun c hc => ⟨(mem_candidates hc).1,available_of_eligible (mem_candidates hc).2⟩
  | batchGetJobsWithFilter w taskIds filter n =>
    exact rewrites_claimRows rfl fun c hc => ⟨(mem_batchRows hc).1,available_of_eligible (mem_batchRows hc).2⟩
  | completeJob w job => exact rewrites_completed w _
  | completeJobsWithQueues w ids =>
    cases ids with
    | nil => exact .refl
    | cons i rest => exact rewrites_completed w true
  | completeJobsWithoutQueues w ids =>
    cases ids with
    | nil => exact .refl
    | cons i rest => exact rewrites_completed w false
  | completeJobDirect w req => exact rewrites_completed w _
  | failJob w job message payload =>
    have hj := failJob_jobs db job w now message payload
    refine .update (congrArg IdTable.rows hj) (congrArg IdTable.next hj :) (fun _ => rfl) fun r _ hsel => ?_
    exact .failed w message payload (owned_of_ownedBy hsel).1 (owned_of_ownedBy hsel).2
  | failJobs w jobs =>
    have hj := failJobs_jobs db jobs w now
    refine .update (congrArg IdTable.rows hj) (congrArg IdTable.next hj :) (fun _ => rfl) fun r _ hsel => ?_
    exact .failed w _ none (owned_of_ownedBy hsel).1 (owned_of_ownedBy hsel).2
  | privateReturnJobs w ids o =>
    refine .update rfl rfl (fun _ => rfl) fun r _ hsel => ?_
    refine .released w _ (owned_of_ownedBy hsel).1 (owned_of_ownedBy hsel).2 rfl rfl rfl ?_ rfl
    simp only [Job.giveBack,restoredAttempts]
    split
    · exact .inl rfl
    · exact .inr ⟨rfl,rfl⟩
  | recoverDeadWorkerJobs ws delayMs =>
    simp only [Statement.run,Database.recoverDeadWorkerJobs]
    split
    · exact .refl
    · refine Rewrites.update rfl rfl (fun _ => rfl) fun r _ hsel => ?_
      obtain ⟨w,hl,hg⟩ := holder_of_lockedJob hsel
      refine .released w _ hl hg rfl rfl rfl ?_ rfl
      simp only [Job.recover]
      split
      · exact .inl rfl
      · exact .inr ⟨rfl,rfl⟩
  | forceUnlockWorkers ws =>
    refine .update rfl rfl (fun _ => rfl) fun r _ hsel => ?_
    obtain ⟨w,hl,hg⟩ := holder_of_lockedJob hsel
    exact .released w _ hl hg rfl rfl rfl (.inl rfl) rfl
  | completeJobs ids => exact .deleteJobs
  | removeJob key => exact rewrites_removeJob
  | permanentlyFailJobs ids message =>
    exact Rewrites.update rfl rfl (fun _ => rfl) fun _ _ _ => .failedPermanently message
  | rescheduleJobs ids o => exact committed_of_ok (Rewrites _ db) .refl fun _ _ h => rewrites_rescheduleJobs h

theorem rewrites_run (db : Db) (c : RecoveryCall) : Rewrites (Write c.1 c.2) db (c.2.run db c.1) := by
  obtain ⟨now,st⟩ := c
  cases st with
  | plain st => exact rewrites_statement st
  | setRecoveredJobSchedule jobId runAt attempts =>
    refine .update rfl rfl (fun _ => rfl) fun r _ hsel => ?_
    exact .scheduled runAt attempts (by simpa [reschedules] using hsel)

theorem Rewrites.forall_rows (h : Rewrites W db db')
    (hnew : ∀ r, Fresh r → P r) (hW : ∀ r r', P r → W r r' → P r') (hdb : ∀ r ∈ db.jobs.rows, P r) :
    ∀ r ∈ db'.jobs.rows, P r := by
  have hchain : ∀ r r', P r → Relation.ReflTransGen W r r' → P r' := by
    intro r r' hr hw
    induction hw with
    | refl => exact hr
    | tail _ hstep ih => exact hW _ _ ih hstep
  intro r' hr'
  rcases h.rows r' hr' with ⟨r,hr,-,hw⟩ | ⟨-,r,hf,hw⟩
  · exact hchain r r' (hdb r hr) hw
  · exact hchain r r' (hnew r hf) hw

/-- A property of the row of one job, which is there or was issued before. -/
theorem Rewrites.row_kept {i : JobId} (h : Rewrites W db db') (hi : i < db.jobs.next)
    (hW : ∀ r r', r.id = i → P r → W r r' → P r') (hid : ∀ r r', W r r' → r'.id = r.id)
    (hdb : ∀ r ∈ db.jobs.rows, r.id = i → P r) : ∀ r ∈ db'.jobs.rows, r.id = i → P r := by
  intro r' hr' hr'i
  rcases h.rows r' hr' with ⟨r,hr,hrid,hw⟩ | ⟨hnext,-⟩
  · have hri : r.id = i := hrid.trans hr'i
    have hchain : r'.id = i ∧ P r' := by
      clear hr'i hrid hr'
      induction hw with
      | refl => exact ⟨hri,hdb r hr hri⟩
      | tail _ hstep ih => exact ⟨(hid _ _ hstep).trans ih.1,hW _ _ ih.1 ih.2 hstep⟩
    exact hchain.2
  · rw [hr'i] at hnext
    exact absurd hi (not_lt.mpr hnext)

variable {ok : Db → RecoveryCall → Prop} {i : JobId}

/-- What every write of an admissible call keeps for the row of one job holds in every run;
a job whose row is gone is not inserted again. -/
theorem reaches_row (hW : ∀ db c r r', ok db c → r.id = i → P r → Write c.1 c.2 r r' → P r') (hi : i < db.jobs.next)
    (hdb : ∀ r ∈ db.jobs.rows, r.id = i → P r) (h : Reaches recoveryStep ok db db') :
    ∀ r ∈ db'.jobs.rows, r.id = i → P r := by
  refine (h.invariant (I := fun db => i < db.jobs.next ∧ ∀ r ∈ db.jobs.rows, r.id = i → P r) ?_ ⟨hi,hdb⟩).2
  rintro t c u hc he ⟨hi,hdb⟩
  rw [← Option.some.inj he]
  have hrw := rewrites_run t c
  exact ⟨hi.trans_le hrw.next,hrw.row_kept hi (fun r r' hr hP hw => hW t c r r' hc hr hP hw)
    (fun r r' hw => hw.id_eq) hdb⟩

theorem not_claimed {taskIds : List TaskId} {filter : JobFlagFilter}
    (h : ∀ r ∈ db.jobs.rows, r.id = i → eligible db taskIds filter now r = false) (w : WorkerId) (n : ℕ) :
    (∀ job ∈ (getJobWithFilter db taskIds w filter now).2, job.id ≠ i) ∧
      ∀ job ∈ (batchGetJobsWithFilter db taskIds w filter n now).2, job.id ≠ i := by
  have hne : ∀ r, r ∈ db.jobs.rows ∧ eligible db taskIds filter now r = true → (r.claim w now).id ≠ i := by
    rintro r ⟨hm,he⟩ hi
    exact absurd he (by simp [h r hm hi])
  constructor
  · intro job hjob
    obtain ⟨r,hr,rfl⟩ := List.mem_map.mp (List.mem_of_mem_head? hjob)
    exact hne r (mem_candidates hr)
  · intro job hjob
    obtain ⟨r,hr,rfl⟩ := List.mem_map.mp hjob
    exact hne r (mem_batchRows hr)

theorem eligible_of_not_available {taskIds : List TaskId} {filter : JobFlagFilter} (h : r.isAvailable = false) :
    eligible db taskIds filter now r = false := by
  simp [eligible,h]

end GraphileWorker.Recovery
