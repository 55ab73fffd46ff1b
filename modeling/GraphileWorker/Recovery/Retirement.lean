import GraphileWorker.Recovery.Jobs

/-! # Retired jobs stay exhausted

A job that was superseded, removed or failed for good while it was locked keeps its row with a
retirement marker. `Sound` says once what a step may do to markers and attempts; it composes.
-/
namespace GraphileWorker.Recovery
open Foundation Database

/-- Markers belong to issued ids, and a marked row has no attempt left. -/
structure RetiredInv (db : Db) : Prop where
  exhausted : ∀ r ∈ db.jobs.rows, db.isRetired r.id = true → r.maxAttempts ≤ r.attempts
  below : ∀ i, db.isRetired i = true → i < db.jobs.next

/-- The job is marked, or it is gone for good. -/
def Out (db : Db) (i : JobId) : Prop :=
  db.isRetired i = true ∨ (i < db.jobs.next ∧ db.jobs.find i = none)

/-- The step keeps the invariant and brings no job back but the listed ones. -/
def Sound (revived : List JobId) (db db' : Db) : Prop :=
  RetiredInv db → RetiredInv db' ∧ ∀ i ∉ revived, Out db i → Out db' i

variable {db db' db'' : Db} {revived ids : List JobId} {now : Time} {w : WorkerId}

namespace Sound

theorem refl : Sound revived db db := fun h => ⟨h,fun _ _ ho => ho⟩

theorem trans (h : Sound revived db db') (h' : Sound revived db' db'') : Sound revived db db'' := by
  intro hi
  obtain ⟨hi',ho⟩ := h hi
  obtain ⟨hi'',ho'⟩ := h' hi'
  exact ⟨hi'',fun i hn hout => ho' i hn (ho i hn hout)⟩

theorem of_eq (hj : db'.jobs = db.jobs) (hr : db'.jobRetirements = db.jobRetirements) :
    Sound revived db db' := by
  have he : ∀ i, db'.isRetired i = db.isRetired i := fun i => by rw [Db.isRetired,hr,Db.isRetired]
  intro h
  refine ⟨⟨?_,?_⟩,?_⟩
  · simpa [hj,he] using h.exhausted
  · simpa [hj,he] using h.below
  · intro i _ ho
    simpa [Out,hj,he] using ho

variable {p : Job → Bool} {f : Job → Job} {hf : ∀ r, rowId (f r) = rowId r} {ids : List JobId}

theorem updateJobs (hk : ∀ r ∈ db.jobs.rows, p r = true → db.isRetired r.id = true → r.maxAttempts ≤ r.attempts →
      (f r).maxAttempts ≤ (f r).attempts) : Sound revived db (db.updateJobs p f hf) := by
  intro h
  refine ⟨⟨?_,h.below⟩,?_⟩
  · intro r hr hret
    obtain ⟨s,hs,rfl⟩ := List.mem_map.mp hr
    by_cases hp : p s = true
    · simp only [hp,if_true] at hret ⊢
      have hid : (f s).id = s.id := hf s
      rw [hid] at hret
      exact hk s hs hp hret (h.exhausted s hs hret)
    · simp only [hp] at hret ⊢
      exact h.exhausted s hs hret
  · rintro i _ (ho | ⟨hlt,hn⟩)
    · exact .inl ho
    · exact .inr ⟨hlt,by simp [Db.updateJobs,hn]⟩

theorem unlockQueues {p : JobQueue → Bool} : Sound revived db (db.unlockQueues p) := of_eq rfl rfl

theorem deleteJobs : Sound revived db (db.deleteJobs p) := by
  have hsub : ∀ i, (db.deleteJobs p).isRetired i = true → db.isRetired i = true := by
    intro i h
    rw [Db.isRetired,List.contains_iff_mem] at h ⊢
    exact (List.mem_filter.mp h).1
  intro h
  refine ⟨⟨fun r hr hret => h.exhausted r (List.mem_filter.mp hr).1 (hsub _ hret),fun i hi => h.below i (hsub i hi)⟩,?_⟩
  rintro i _ (ho | ⟨hlt,hn⟩)
  · cases hd : db.jobs.rows.any fun r => r.id == i && p r with
    | true =>
      -- the marker goes with its row
      obtain ⟨r,hr,hrp⟩ := List.any_eq_true.mp hd
      obtain ⟨hri,hp⟩ := Bool.and_eq_true_iff.mp hrp
      have hf : db.jobs.find i = some r := find_job.mpr ⟨hr,by simpa using hri⟩
      refine .inr ⟨h.below i ho,?_⟩
      simp [Db.deleteJobs,hf,hp,Option.filter]
    | false =>
      refine .inl ?_
      rw [Db.isRetired,List.contains_iff_mem] at ho ⊢
      exact List.mem_filter.mpr ⟨ho,by simp [hd]⟩
  · exact .inr ⟨hlt,by simp [Db.deleteJobs,hn]⟩

theorem isRetired_retire {i : JobId} : (db.retire ids).isRetired i = true ↔ db.isRetired i = true ∨ i ∈ ids := by
  simp only [Db.isRetired,Db.retire,List.contains_iff_mem,List.mem_append,List.mem_filter,Bool.not_eq_true']
  constructor
  · rintro (h | ⟨h,_⟩)
    · exact .inl h
    · exact .inr h
  · rintro (h | h)
    · exact .inl h
    · by_cases hm : i ∈ db.jobRetirements
      · exact .inl hm
      · exact .inr ⟨h,by simpa using hm⟩

theorem retire (hlt : ∀ i ∈ ids, i < db.jobs.next)
    (hx : ∀ r ∈ db.jobs.rows, r.id ∈ ids → r.maxAttempts ≤ r.attempts) : Sound revived db (db.retire ids) := by
  intro h
  refine ⟨⟨?_,?_⟩,?_⟩
  · intro r hr hret
    rcases isRetired_retire.mp hret with hret | hm
    · exact h.exhausted r hr hret
    · exact hx r hr hm
  · intro i hi
    rcases isRetired_retire.mp hi with hi | hm
    · exact h.below i hi
    · exact hlt i hm
  · rintro i _ (ho | ho)
    · exact .inl (isRetired_retire.mpr (.inl ho))
    · exact .inr ho

theorem updateRetire (hx : ∀ r, (f r).maxAttempts ≤ (f r).attempts)
    {jobs : List Job} (hjobs : ∀ r ∈ jobs, r ∈ db.jobs.rows ∧ p r = true) :
    Sound revived db ((db.updateJobs p f hf).retire (jobs.map Job.id)) := by
  refine Sound.trans (updateJobs fun r _ _ _ _ => hx r) (retire ?_ ?_)
  · intro i hi
    obtain ⟨r,hr,rfl⟩ := List.mem_map.mp hi
    exact db.jobs.lt_next r (hjobs r hr).1
  · intro r hr hi
    obtain ⟨s,hs,rfl⟩ := List.mem_map.mp hr
    obtain ⟨c,hc,he⟩ := List.mem_map.mp hi
    obtain ⟨hc,hp⟩ := hjobs c hc
    have hid : c.id = s.id := by
      rw [he]
      split
      · exact hf s
      · rfl
    obtain rfl : c = s := IdTable.eq_of_rowId hc hs hid
    rw [if_pos hp]
    exact hx c

theorem insert {mk : ℕ → Job} {hmk : ∀ n, rowId (mk n) = n} :
    Sound revived db { db with jobs := db.jobs.insert mk hmk } := by
  intro h
  refine ⟨⟨?_,fun i hi => (h.below i hi).trans (Nat.lt_succ_self _)⟩,?_⟩
  · intro r hr hret
    rcases List.mem_append.mp hr with hr | hr
    · exact h.exhausted r hr hret
    · -- a fresh id has no marker
      have hid : r.id = db.jobs.next := by
        rw [List.mem_singleton.mp hr]
        exact hmk _
      have hlt := h.below r.id hret
      rw [hid] at hlt
      exact absurd hlt (Nat.lt_irrefl _)
  · rintro i _ (ho | ⟨hlt,hn⟩)
    · exact .inl ho
    · refine .inr ⟨hlt.trans (Nat.lt_succ_self _),?_⟩
      rw [IdTable.find_insert,if_neg (Nat.ne_of_lt hlt)]
      exact hn

theorem skip : Sound revived db { db with jobs := db.jobs.skip } := by
  intro h
  refine ⟨⟨h.exhausted,fun i hi => (h.below i hi).trans (Nat.lt_succ_self _)⟩,?_⟩
  rintro i _ (ho | ⟨hlt,hn⟩)
  · exact .inl ho
  · exact .inr ⟨hlt.trans (Nat.lt_succ_self _),hn⟩

end Sound

theorem sound_of_adds (h : Adds now db db') : Sound revived db db' := by
  cases h with
  | task | queue => exact .of_eq rfl rfl
  | retire specs => exact .updateRetire (fun r => le_refl _) fun r hr => List.mem_filter.mp hr
  | insert => exact .insert
  | skip => exact .skip
  | replace excluded r preserve hr ha =>
    -- an available row is not exhausted, so it has no marker
    refine .updateJobs fun s hs hsel _ hx => ?_
    have hid : s.id = r.id := by simpa using (Bool.and_eq_true_iff.mp hsel).1
    obtain rfl : s = r := IdTable.eq_of_rowId hs hr hid
    have hlt : s.attempts < s.maxAttempts := by simpa using (Bool.and_eq_true_iff.mp ha).2
    omega
  | dedupe => exact .updateJobs fun _ _ _ _ hx => hx

theorem sound_of_added (h : Added now db db') : Sound revived db db' := by
  induction h with
  | refl => exact .refl
  | tail _ hs ih => exact ih.trans (sound_of_adds hs)

theorem sound_claimRows {j : List Job} : Sound revived db (claimRows db w now j) := by
  have hjobs : Sound revived db (db.updateJobs (fun r => j.any fun c => c.id == r.id) (Job.claim w now)
      (Job.rowId_claim w now)) := by
    refine .updateJobs fun r _ _ _ hx => ?_
    simp only [Job.claim]
    omega
  exact hjobs.trans (.of_eq rfl rfl)

theorem sound_completed (w : WorkerId) (queued : Bool) :
    Sound revived db (if queued then completeQueued db ids w else completeUnqueued db ids) := by
  cases queued with
  | true => exact Sound.deleteJobs.trans .unlockQueues
  | false => exact .deleteJobs

theorem sound_release {p : Job → Bool} {f : Job → Job} {hf : ∀ r, rowId (f r) = rowId r}
    {pq : JobQueue → Bool} (queued : Bool)
    (hk : ∀ r, db.isRetired r.id = true → (f r).attempts = r.attempts ∧ (f r).maxAttempts = r.maxAttempts) :
    Sound revived db (if queued then (db.updateJobs p f hf).unlockQueues pq else db.updateJobs p f hf) := by
  have hu : Sound revived db (db.updateJobs p f hf) := by
    refine .updateJobs fun r _ _ hret hx => ?_
    obtain ⟨ha,hm⟩ := hk r hret
    rw [ha,hm]
    exact hx
  cases queued with
  | true => exact hu.trans .unlockQueues
  | false => exact hu

theorem sound_privateReturnJobs {o : ReturnOptions} : Sound revived db (privateReturnJobs db w ids now o) :=
  sound_release true fun r hret => ⟨by simp [Job.giveBack,restoredAttempts,hret],rfl⟩

theorem sound_recoverDeadWorkerJobs {ws : List WorkerId} {delayMs : ℤ} :
    Sound revived db (recoverDeadWorkerJobs db ws delayMs now).1 := by
  unfold recoverDeadWorkerJobs
  split
  · exact .refl
  · exact sound_release true fun r hret => ⟨by simp [Job.recover,hret],rfl⟩

theorem sound_removeJob {key : String} : Sound revived db (removeJob db key now).1 := by
  unfold removeJob
  cases hf : db.jobs.rows.find? (removable now key) with
  | some job => exact .deleteJobs
  | none =>
    refine .updateRetire (fun r => le_refl _) fun r hr => ?_
    have hfind := Option.mem_toList.mp hr
    exact ⟨List.mem_of_find?_eq_some hfind,List.find?_some hfind⟩

theorem sound_rescheduleJobs {o : RescheduleJobOptions} {rows : List Job}
    (h : rescheduleJobs db ids o now = .ok (db',rows)) : Sound ids db db' := by
  obtain ⟨o',rfl,_⟩ := rescheduleJobs_ok h
  intro hi
  refine ⟨⟨?_,?_⟩,?_⟩
  · intro r hr hret
    obtain ⟨s,hs,rfl⟩ := List.mem_map.mp hr
    rw [Db.isRetired,List.contains_iff_mem,List.mem_filter] at hret
    obtain ⟨hret,hclear⟩ := hret
    by_cases hp : adminRow now ids s = true
    · -- the marker of an updated row is cleared
      simp only [hp,if_true] at hclear
      simp only [Bool.not_eq_true',List.any_eq_false,List.mem_filter,beq_iff_eq] at hclear
      exact absurd rfl (hclear s ⟨hs,hp⟩)
    · simp only [hp] at hret ⊢
      exact hi.exhausted s hs (List.contains_iff_mem.mpr hret)
  · intro i hx
    rw [Db.isRetired,List.contains_iff_mem,List.mem_filter] at hx
    exact hi.below i (List.contains_iff_mem.mpr hx.1)
  · rintro i hn (ho | ⟨hlt,hf⟩)
    · refine .inl ?_
      rw [Db.isRetired,List.contains_iff_mem,List.mem_filter]
      refine ⟨List.contains_iff_mem.mp ho,?_⟩
      simp only [Bool.not_eq_true',List.any_eq_false,List.mem_filter,beq_iff_eq]
      rintro r ⟨_,hr⟩ rfl
      exact hn (by simpa using (Bool.and_eq_true_iff.mp hr).1)
    · exact .inr ⟨hlt,by simp [Db.updateJobs,hf]⟩

/-- The jobs a statement may revive. -/
def revives : RecoveryStatement → List JobId
  | .plain (.rescheduleJobs ids _) => ids
  | _ => []

/-- A schedule set after a recovery leaves a marked job without attempts. -/
def KeepsRetired (db : Db) (c : Time × RecoveryStatement) : Prop :=
  match c.2 with
  | .setRecoveredJobSchedule jobId _ (some attempts) =>
    db.isRetired jobId = true → ∀ r ∈ db.jobs.rows, r.id = jobId → r.maxAttempts ≤ attempts
  | _ => True

theorem sound_statement (st : Statement) :
    Sound (revives (.plain st)) db (st.run db now) := by
  cases st with
  | addJob job localNow =>
    exact committed_of_ok (Sound _ db) .refl fun _ _ h => sound_of_added (added_addJobSql (mapError_eq_ok.mp h))
  | addJobs jobs preserve localNow =>
    exact committed_of_ok (Sound _ db) .refl fun _ _ h => sound_of_added (added_addJobs h)
  | getJobWithFilter w taskIds filter => exact sound_claimRows
  | batchGetJobsWithFilter w taskIds filter n => exact sound_claimRows
  | completeJob w job => exact sound_completed w _
  | completeJobsWithQueues w ids =>
    cases ids with
    | nil => exact .refl
    | cons i rest => exact sound_completed w true
  | completeJobsWithoutQueues w ids =>
    cases ids with
    | nil => exact .refl
    | cons i rest => exact sound_completed w false
  | completeJobDirect w req => exact sound_completed w _
  | failJob w job message payload => exact sound_release _ fun _ _ => ⟨rfl,rfl⟩
  | failJobs w jobs =>
    cases jobs with
    | nil => exact .refl
    | cons f rest => exact sound_release _ fun _ _ => ⟨rfl,rfl⟩
  | privateReturnJobs w ids o => exact sound_privateReturnJobs
  | recoverDeadWorkerJobs ws delayMs => exact sound_recoverDeadWorkerJobs
  | forceUnlockWorkers ws => exact sound_release true fun _ _ => ⟨rfl,rfl⟩
  | completeJobs ids => exact .deleteJobs
  | removeJob key => exact sound_removeJob
  | permanentlyFailJobs ids message => exact .updateRetire (fun _ => le_refl _) fun _ hr => List.mem_filter.mp hr
  | rescheduleJobs ids o => exact committed_of_ok (Sound _ db) .refl fun _ _ h => sound_rescheduleJobs h

abbrev RecoveryCall := Time × RecoveryStatement

def recoveryStep (db : Db) (c : RecoveryCall) : Option Db := some (c.2.run db c.1)

def RetiredExhausted (db : Db) : Prop :=
  ∀ r ∈ db.jobs.rows, db.isRetired r.id = true → r.maxAttempts ≤ r.attempts

variable {c : RecoveryCall}

theorem sound_run (hk : KeepsRetired db c) : Sound (revives c.2) db (c.2.run db c.1) := by
  obtain ⟨now,st⟩ := c
  cases st with
  | plain st => exact sound_statement st
  | setRecoveredJobSchedule jobId runAt attempts =>
    refine .updateJobs ?_
    intro r hr hid hret hx
    have hid : r.id = jobId := by simpa using hid
    cases attempts with
    | none => exact hx
    | some attempts => exact hk (hid ▸ hret) r hr hid

theorem keepsRetired_of_exhausted (h : RetiredExhausted (c.2.run db c.1)) : KeepsRetired db c := by
  obtain ⟨now,st⟩ := c
  cases st with
  | plain st => trivial
  | setRecoveredJobSchedule jobId runAt attempts =>
    cases attempts with
    | none => trivial
    | some attempts =>
      intro hret r hr hid
      refine h (setSchedule now runAt (some attempts) r) (List.mem_map.mpr ⟨r,hr,by simp [hid]⟩) ?_
      subst hid
      exact hret

theorem reaches_retiredInv {ok : Db → RecoveryCall → Prop} (hok : ∀ db c, ok db c → KeepsRetired db c)
    (h : RetiredInv db) (hr : Reaches recoveryStep ok db db') : RetiredInv db' := by
  refine hr.invariant (I := RetiredInv) ?_ h
  intro t c u hc he hi
  rw [← Option.some.inj he]
  exact (sound_run (hok t c hc) hi).1

theorem reaches_out {i : JobId} (hi : RetiredInv db) (ho : Out db i)
    (hr : Reaches recoveryStep (fun db c => KeepsRetired db c ∧ i ∉ revives c.2) db db') : Out db' i := by
  refine (hr.invariant (I := fun db => RetiredInv db ∧ Out db i) ?_ ⟨hi,ho⟩).2
  rintro t c u ⟨hk,hn⟩ he ⟨hi,ho⟩
  rw [← Option.some.inj he]
  obtain ⟨hi',ho'⟩ := sound_run hk hi
  exact ⟨hi',ho' i hn ho⟩

theorem not_eligible_of_out {taskIds : List TaskId} {filter : JobFlagFilter} {i : JobId} {r : Job}
    (hi : RetiredInv db) (ho : Out db i) (hr : r ∈ db.jobs.rows) (he : eligible db taskIds filter now r = true) :
    r.id ≠ i := by
  rintro rfl
  rcases ho with ho | ⟨_,hn⟩
  · have hx := hi.exhausted r hr ho
    have hlt : r.attempts < r.maxAttempts := by
      simp only [eligible,Job.isAvailable,Bool.and_eq_true,decide_eq_true_eq] at he
      exact he.1.1.1.1.2
    omega
  · rw [find_job.mpr ⟨hr,rfl⟩] at hn
    cases hn

/-- If recovery schedules leave the marked jobs without attempts, every marked job is exhausted, the next
statement keeps it so exactly when it does that too, and no claim takes a marked job. -/
theorem retired_stays_exhausted {db₀ db : Db} (h₀ : db₀.jobRetirements = [])
    (h : Reaches recoveryStep KeepsRetired db₀ db) :
    RetiredExhausted db ∧
    (∀ c : RecoveryCall, RetiredExhausted (c.2.run db c.1) ↔ KeepsRetired db c) ∧
    ∀ i db', db.isRetired i = true →
      Reaches recoveryStep (fun db c => KeepsRetired db c ∧ i ∉ revives c.2) db db' →
      ∀ taskIds w filter now n,
        (∀ job ∈ (getJobWithFilter db' taskIds w filter now).2, job.id ≠ i) ∧
        ∀ job ∈ (batchGetJobsWithFilter db' taskIds w filter n now).2, job.id ≠ i := by
  have hinit : RetiredInv db₀ := by
    constructor <;> simp [Db.isRetired,h₀]
  have hi : RetiredInv db := reaches_retiredInv (fun _ _ hk => hk) hinit h
  refine ⟨hi.exhausted,fun c => ⟨keepsRetired_of_exhausted,fun hk => (sound_run hk hi).1.exhausted⟩,?_⟩
  intro i db' hret hr taskIds w filter now n
  have hi' : RetiredInv db' := reaches_retiredInv (fun _ _ hk => hk.1) hi hr
  have ho : Out db' i := reaches_out hi (.inl hret) hr
  constructor
  · intro job hjob
    obtain ⟨r,hr,rfl⟩ := List.mem_map.mp (List.mem_of_mem_head? hjob)
    obtain ⟨hm,he⟩ := mem_candidates hr
    have hne : r.id ≠ i := not_eligible_of_out hi' ho hm he
    exact hne
  · intro job hjob
    obtain ⟨r,hr,rfl⟩ := List.mem_map.mp hjob
    obtain ⟨hm,he⟩ := mem_batchRows hr
    have hne : r.id ≠ i := not_eligible_of_out hi' ho hm he
    exact hne

instance (db : Db) : (c : RecoveryCall) → Decidable (KeepsRetired db c)
  | (_,.plain _) => .isTrue trivial
  | (_,.setRecoveredJobSchedule _ _ none) => .isTrue trivial
  | (_,.setRecoveredJobSchedule jobId _ (some attempts)) => inferInstanceAs
    (Decidable (db.isRetired jobId = true → ∀ r ∈ db.jobs.rows, r.id = jobId → r.maxAttempts ≤ attempts))

def keyedJob : JobToAdd := ⟨"task",.null,{ jobKey := some "k" }⟩

/-- Worker `a` claims a keyed job, and another job is added under its key. -/
def supersedingCalls : List RecoveryCall :=
  [(0,.plain (.addJob keyedJob none)),(1,.plain (.getJobWithFilter "a" [1] .unrestricted)),
    (2,.plain (.addJob keyedJob none))]

/-- The recovery of the claimed job when the hooks reschedule it with these attempts. -/
def rescheduleCalls (attempts : Option ℤ) : List RecoveryCall :=
  ({ sweepRequest (.reschedule 1 attempts) with
      job := { readJob with key := some "k", lock := some ⟨1,"a"⟩ }
      previousWorkerId := "a" } : JobRecoveryRequest).statements.map fun st => (3,st)

def recoveryAfter (calls : List RecoveryCall) : Db := calls.foldl (fun db c => c.2.run db c.1) Db.empty

theorem superseded_job_not_claimed :
    (∃ db, exec recoveryStep KeepsRetired Db.empty (supersedingCalls ++ rescheduleCalls none) = some db ∧
      db.isRetired 1 = true ∧ db.jobs.rows.map Job.lockedBy = [none,none] ∧ RetiredExhausted db ∧
      ∀ job ∈ (getJobWithFilter db [1] "b" .unrestricted 4).2, job.id ≠ 1) := by
  refine ⟨recoveryAfter (supersedingCalls ++ rescheduleCalls none),rfl,by decide,by decide,?_⟩
  have hr := retired_stays_exhausted rfl (reaches_exec
    (rfl : exec recoveryStep KeepsRetired Db.empty (supersedingCalls ++ rescheduleCalls none) =
      some (recoveryAfter (supersedingCalls ++ rescheduleCalls none))))
  exact ⟨hr.1,(hr.2.2 1 _ (by decide) .refl [1] "b" .unrestricted 4 1).1⟩

/-- Rescheduled with its attempts set to zero, the superseded job is claimed before the one that replaced it. -/
theorem superseded_job_claimed_again :
    let db := recoveryAfter (supersedingCalls ++ rescheduleCalls (some 0))
    db.isRetired 1 = true ∧
    db.jobs.rows.map (fun r => (r.id,r.attempts,r.maxAttempts,r.key)) = [(1,0,25,none),(2,0,25,some "k")] ∧
    ((getJobWithFilter db [1] "b" .unrestricted 4).2.map Job.id) = some 1 := by
  decide

end GraphileWorker.Recovery
