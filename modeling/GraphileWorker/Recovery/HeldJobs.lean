import GraphileWorker.Recovery.RowWrites

/-! # How long a claim holds and how long a failure keeps a job away

A claim is given up by a failure or a return of its worker, or by a recovery or a forced unlock
that names the worker. The other calls may delete the row, but never unlock it.
-/
namespace GraphileWorker.Recovery
open Foundation Database

variable {db db' : Db} {i : JobId} {w : WorkerId} {now due : Time} {r r' : Job} {st : RecoveryStatement}

theorem lt_next_of_find (hr : db.jobs.find i = some r) : i < db.jobs.next :=
  (find_job.mp hr).2 ▸ db.jobs.lt_next r (find_job.mp hr).1

theorem forall_row_of_find {P : Job → Prop} (hr : db.jobs.find i = some r) (hP : P r) :
    ∀ s ∈ db.jobs.rows, s.id = i → P s := by
  intro s hs hi
  rw [Option.some.inj ((find_job.mpr ⟨hs,hi⟩).symm.trans hr)]
  exact hP

theorem not_available_of_lockedBy (hw : r.lockedBy = some w) : r.isAvailable = false := by
  cases hl : r.lock with
  | none => simp [Job.lockedBy,hl] at hw
  | some l => simp [Job.isAvailable,hl]

theorem lockedBy_write (h : Write now st r r') (hg : givesUp w r.id st = false) (hw : r.lockedBy = some w) :
    r'.lockedBy = some w := by
  have hna := not_available_of_lockedBy hw
  cases h with
  | replaced excluded preserve ha hm hk => simp [hna] at ha
  | claimed v ha hd => simp [hna] at ha
  | failed v error payload hl hv =>
    obtain rfl : v = w := Option.some.inj (hl.symm.trans hw)
    simp [hg] at hv
  | released v r' hl hv hid hn hm ha =>
    obtain rfl : v = w := Option.some.inj (hl.symm.trans hw)
    simp [hg] at hv
  | deduped | retired | failedPermanently | rescheduled | scheduled => exact hw

/-- In every run without a call that gives the job up, the worker holds it as long as its row is there, and no
claim of any worker takes it. -/
theorem claim_exclusive (hr : db.jobs.find i = some r) (hw : r.lockedBy = some w)
    (h : Reaches recoveryStep (fun _ c => givesUp w i c.2 = false) db db') :
    (∀ s ∈ db'.jobs.rows, s.id = i → s.lockedBy = some w) ∧
    ∀ taskIds filter now v n,
      (∀ job ∈ (getJobWithFilter db' taskIds v filter now).2, job.id ≠ i) ∧
      ∀ job ∈ (batchGetJobsWithFilter db' taskIds v filter n now).2, job.id ≠ i := by
  have hheld := reaches_row (fun _ _ _ _ hc hi hw hwrite => lockedBy_write hwrite (hi ▸ hc) hw) (lt_next_of_find hr)
    (forall_row_of_find hr hw) h
  refine ⟨hheld,fun taskIds filter now v n => not_claimed (fun s hs hi => ?_) v n⟩
  exact eligible_of_not_available (not_available_of_lockedBy (hheld s hs hi))

def firstClaim : List RecoveryCall :=
  [(0,.plain (.addJob ⟨"task",.null,{}⟩ none)),(1,.plain (.getJobWithFilter "a" [1] .unrestricted))]

def othersUnlocked : List RecoveryCall := firstClaim ++ [(2,.plain (.forceUnlockWorkers ["b"]))]

theorem claim_outlives_unlock : lockedAs (recoveryAfter othersUnlocked) "a" 1 = true ∧
    ∀ job ∈ (getJobWithFilter (recoveryAfter othersUnlocked) [1] "b" .unrestricted 3).2, job.id ≠ 1 := by
  have hrun : exec recoveryStep (fun _ c => givesUp "a" 1 c.2 = false) (recoveryAfter firstClaim)
      (othersUnlocked.drop 2) = some (recoveryAfter othersUnlocked) := rfl
  exact ⟨rfl,((claim_exclusive rfl rfl (reaches_exec hrun)).2 [1] .unrestricted 3 "b" 1).1⟩

/-- Unlocked, without a key and not due before the instant. -/
structure Resting (due : Time) (r : Job) : Prop where
  lock : r.lock = none
  key : r.key = none
  due : due ≤ r.runAt

theorem resting_write (h : Write now st r r') (hnow : now < due) (hi : r.id ∉ reschedules st)
    (hr : Resting due r) : Resting due r' := by
  cases h with
  | replaced excluded preserve ha hm hk => simp [hr.key] at hk
  | claimed v ha hd => exact absurd (hr.due.trans hd) (not_le.mpr hnow)
  | failed v error payload hl hg => simp [Job.lockedBy,hr.lock] at hl
  | released v r' hl hg hid hn hm ha => simp [Job.lockedBy,hr.lock] at hl
  | retired => exact ⟨hr.lock,rfl,hr.due⟩
  | deduped | failedPermanently => exact ⟨hr.lock,hr.key,hr.due⟩
  | rescheduled o hm => contradiction
  | scheduled runAt attempts hm => contradiction

theorem resting_reaches (hi : i < db.jobs.next) (hdb : ∀ r ∈ db.jobs.rows, r.id = i → Resting due r)
    (h : Reaches recoveryStep (fun _ c => c.1 < due ∧ i ∉ reschedules c.2) db db') :
    ∀ r ∈ db'.jobs.rows, r.id = i → Resting due r :=
  reaches_row (fun _ _ _ _ hc hri hr hw => resting_write hw hc.1 (hri ▸ hc.2) hr) hi hdb h

theorem find_failsJob (now : Time) {st : Statement} (hf : failsJob w i st = true) (hr : db.jobs.find i = some r)
    (hw : r.lockedBy = some w) : ∃ error payload, (st.run db now).jobs.find i = some (r.fail now error payload) := by
  have howned : ∀ {v : WorkerId} {ids : List JobId}, (v == w && ids.contains i) = true → ownedBy v ids r = true := by
    intro v ids h
    have hid := (find_job.mp hr).2
    simp_all [ownedBy]
  cases st with
  | failJob v job message payload =>
    refine ⟨message,payload,?_⟩
    rw [Statement.run,failJob_jobs,IdTable.find_updateWhere,hr,Option.map_some,if_pos (howned hf)]
  | failJobs v jobs =>
    refine ⟨errorOf jobs r,none,?_⟩
    rw [Statement.run,failJobs_jobs,IdTable.find_updateWhere,hr,Option.map_some,if_pos (howned hf)]
    rfl
  | _ => cases hf

/-- Until the back-off is over, in every run of calls that do not set the schedule of the job, it stays unlocked
and no claim takes it. -/
theorem failure_backs_off {st : Statement} (hf : failsJob w i st = true) (hr : db.jobs.find i = some r)
    (hw : r.lockedBy = some w) (hk : r.key = none)
    (h : Reaches recoveryStep
      (fun _ c => c.1 < max now r.runAt + expSeconds (min r.attempts 10) ∧ i ∉ reschedules c.2) (st.run db now) db') :
    (∀ s ∈ db'.jobs.rows, s.id = i → s.lock = none) ∧
    ∀ taskIds filter instant v n, instant < max now r.runAt + expSeconds (min r.attempts 10) →
      (∀ job ∈ (getJobWithFilter db' taskIds v filter instant).2, job.id ≠ i) ∧
      ∀ job ∈ (batchGetJobsWithFilter db' taskIds v filter n instant).2, job.id ≠ i := by
  obtain ⟨error,payload,hfind⟩ := find_failsJob now hf hr hw
  have hrest := resting_reaches (lt_next_of_find hfind) (forall_row_of_find hfind ⟨rfl,hk,le_refl _⟩) h
  refine ⟨fun s hs hi => (hrest s hs hi).lock,fun taskIds filter instant v n hat => not_claimed (fun s hs hi => ?_) v n⟩
  have hdue : ¬s.runAt ≤ instant := not_le.mpr (hat.trans_le (hrest s hs hi).due)
  simp [eligible,hdue]

def failedThenClaimed : List RecoveryCall := firstClaim ++
  [(2,.plain (.failJob "a" readJob "error" none)),(3,.plain (.getJobWithFilter "b" [1] .unrestricted))]

theorem first_failure_backs_off : lockedAs (recoveryAfter failedThenClaimed) "b" 1 = false ∧
    ∀ job ∈ (getJobWithFilter (recoveryAfter failedThenClaimed) [1] "b" .unrestricted 2000002).2, job.id ≠ 1 := by
  have hr : (recoveryAfter firstClaim).jobs.find 1 = some { readJob with lock := some ⟨1,"a"⟩ } := rfl
  have hrun : exec recoveryStep (fun _ c => c.1 < max 2 0 + expSeconds (min 1 10) ∧ 1 ∉ reschedules c.2)
      ((Statement.failJob "a" readJob "error" none).run (recoveryAfter firstClaim) 2) (failedThenClaimed.drop 3) =
      some (recoveryAfter failedThenClaimed) := rfl
  exact ⟨rfl,((failure_backs_off (by decide) hr rfl rfl (reaches_exec hrun)).2 [1] .unrestricted 2000002 "b" 1
    (by decide)).1⟩

end GraphileWorker.Recovery
