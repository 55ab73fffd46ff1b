import GraphileWorker.Maintenance.Transactions

/-! # Entries of the tables and references to them

What private versions, drawn identities and a `DELETE` do to the entries of the two tables
with names. Every statement other than an addition leaves the entries alone.
-/
namespace GraphileWorker.Maintenance
open Foundation Database

section Entries
variable {db mine : Db} {w : Written} {τ σ : NamedTable} {p : ℕ × String} {ids : List ℕ} {r : Job}

theorem mem_entries_overlay : p ∈ entries (overlay db mine w) τ ↔
    (p.1 ∉ w.of τ ∧ p ∈ entries db τ) ∨ (p.1 ∈ w.of τ ∧ p ∈ entries mine τ) := by
  have hrows : ∀ {α : Type} [RowId α] (t u : IdTable α) (ids : List ℕ) (e : α → ℕ × String),
      (∀ r, (e r).1 = rowId r) → (p ∈ (t.overlay u ids).rows.map e ↔
        (p.1 ∉ ids ∧ p ∈ t.rows.map e) ∨ (p.1 ∈ ids ∧ p ∈ u.rows.map e)) := by
    intro α _ t u ids e he
    simp only [List.mem_map,IdTable.mem_overlay]
    constructor
    · rintro ⟨r,hr | hr,rfl⟩
      · exact .inl ⟨he r ▸ hr.1,r,hr.2,rfl⟩
      · exact .inr ⟨he r ▸ hr.1,r,hr.2,rfl⟩
    · rintro (⟨hi,r,hr,rfl⟩ | ⟨hi,r,hr,rfl⟩)
      · exact ⟨r,.inl ⟨he r ▸ hi,hr⟩,rfl⟩
      · exact ⟨r,.inr ⟨he r ▸ hi,hr⟩,rfl⟩
  cases τ with
  | tasks => exact hrows db.tasks mine.tasks w.tasks _ fun _ => rfl
  | jobQueues => exact hrows db.jobQueues mine.jobQueues w.jobQueues _ fun _ => rfl

theorem mem_jobs_overlay : r ∈ (overlay db mine w).jobs.rows ↔
    (r.id ∉ w.jobs ∧ r ∈ db.jobs.rows) ∨ (r.id ∈ w.jobs ∧ r ∈ mine.jobs.rows) := IdTable.mem_overlay

theorem nextOf_overlay : nextOf (overlay db mine w) τ = max (nextOf db τ) (nextOf mine τ) := by
  cases τ <;> rfl

theorem entries_advance : entries (advance db mine) τ = entries db τ := by
  cases τ <;> rfl

theorem nextOf_advance : nextOf (advance db mine) τ = max (nextOf db τ) (nextOf mine τ) := by
  cases τ <;> rfl

theorem lt_nextOf (h : p ∈ entries db τ) : p.1 < nextOf db τ := by
  cases τ with
  | tasks =>
    obtain ⟨t,ht,rfl⟩ := List.mem_map.mp h
    exact db.tasks.lt_next t ht
  | jobQueues =>
    obtain ⟨q,hq,rfl⟩ := List.mem_map.mp h
    exact db.jobQueues.lt_next q hq

theorem mem_entries_deleteEntries :
    p ∈ entries (deleteEntries db ids σ) τ ↔ p ∈ entries db τ ∧ (τ = σ → p.1 ∉ ids) := by
  have hrows : ∀ {α : Type} (l : List α) (e : α → ℕ × String) (f : α → ℕ), (∀ r, (e r).1 = f r) →
      (p ∈ (l.filter fun r => !ids.contains (f r)).map e ↔ p ∈ l.map e ∧ p.1 ∉ ids) := by
    intro α l e f he
    simp only [List.mem_map,List.mem_filter]
    constructor
    · rintro ⟨r,⟨hr,hn⟩,rfl⟩
      exact ⟨⟨r,hr,rfl⟩,by simpa [he] using hn⟩
    · rintro ⟨⟨r,hr,rfl⟩,hn⟩
      exact ⟨r,⟨hr,by simpa [he] using hn⟩,rfl⟩
  cases σ with
  | tasks =>
    cases τ with
    | tasks => exact (hrows db.tasks.rows _ Task.id fun _ => rfl).trans (and_congr_right' (by simp))
    | jobQueues => simp [deleteEntries,entries]
  | jobQueues =>
    cases τ with
    | tasks => simp [deleteEntries,entries]
    | jobQueues => exact (hrows db.jobQueues.rows _ JobQueue.id fun _ => rfl).trans (and_congr_right' (by simp))

theorem jobs_deleteEntries : (deleteEntries db ids σ).jobs = db.jobs := by
  cases σ <;> rfl

theorem nextOf_deleteEntries : nextOf (deleteEntries db ids σ) τ = nextOf db τ := by
  cases σ <;> cases τ <;> rfl

theorem ref_unusedIds {keep : List String} {i : ℕ} (hr : r ∈ db.jobs.rows) (hi : ref r τ = some i) :
    i ∉ unusedIds db keep τ := by
  intro hm
  cases τ with
  | tasks =>
    obtain ⟨t,ht,rfl⟩ := List.mem_map.mp hm
    have hunused := (Bool.and_eq_true_iff.mp (List.mem_filter.mp ht).2).1
    have hused : (db.jobs.rows.any fun r => r.taskId == t.id) = true :=
      List.any_eq_true.mpr ⟨r,hr,by simpa [ref] using hi⟩
    rw [hused] at hunused
    cases hunused
  | jobQueues =>
    obtain ⟨q,hq,rfl⟩ := List.mem_map.mp hm
    have hunused := (Bool.and_eq_true_iff.mp (List.mem_filter.mp hq).2).2
    have hused : (db.jobs.rows.any fun r => r.jobQueueId == some q.id) = true :=
      List.any_eq_true.mpr ⟨r,hr,by simpa [ref] using hi⟩
    rw [hused] at hunused
    cases hunused

end Entries

/-- No entry comes or goes, and every row keeps its references. -/
structure Tends (db db' : Db) : Prop where
  entries : ∀ τ, entries db' τ = entries db τ
  next : ∀ τ, nextOf db' τ = nextOf db τ
  rows : ∀ r' ∈ db'.jobs.rows, ∃ r ∈ db.jobs.rows, r.id = r'.id ∧ ∀ τ, ref r' τ = ref r τ

namespace Tends
variable {db db' db'' : Db}

theorem trans (h : Tends db db') (h' : Tends db' db'') : Tends db db'' := by
  refine ⟨fun τ => (h'.entries τ).trans (h.entries τ),fun τ => (h'.next τ).trans (h.next τ),fun r'' hr'' => ?_⟩
  obtain ⟨r',hr',hid',href'⟩ := h'.rows r'' hr''
  obtain ⟨r,hr,hid,href⟩ := h.rows r' hr'
  exact ⟨r,hr,hid.trans hid',fun τ => (href' τ).trans (href τ)⟩

theorem of_subset (ht : db'.tasks = db.tasks) (hq : db'.jobQueues = db.jobQueues)
    (hs : db'.jobs.rows ⊆ db.jobs.rows) : Tends db db' := by
  refine ⟨fun τ => ?_,fun τ => ?_,fun r hr => ⟨r,hs hr,rfl,fun _ => rfl⟩⟩
  · cases τ with
    | tasks => rw [Maintenance.entries,Maintenance.entries,ht]
    | jobQueues => rw [Maintenance.entries,Maintenance.entries,hq]
  · cases τ with
    | tasks => rw [nextOf,nextOf,ht]
    | jobQueues => rw [nextOf,nextOf,hq]

theorem refl (db : Db) : Tends db db := of_subset rfl rfl (List.Subset.refl _)

theorem deleteJobs (db : Db) (p : Job → Bool) : Tends db (db.deleteJobs p) :=
  of_subset rfl rfl (List.filter_subset_self _)

theorem retire (db : Db) (ids : List JobId) : Tends db (db.retire ids) := of_subset rfl rfl (List.Subset.refl _)

theorem updateJobs (db : Db) {p : Job → Bool} {f : Job → Job} (hf : ∀ r, rowId (f r) = rowId r)
    (ht : ∀ r, (f r).taskId = r.taskId) (hq : ∀ r, (f r).jobQueueId = r.jobQueueId) :
    Tends db (db.updateJobs p f hf) := by
  refine ⟨fun τ => ?_,fun τ => ?_,fun r' hr' => ?_⟩
  · cases τ <;> rfl
  · cases τ <;> rfl
  · obtain ⟨r,hr,rfl⟩ := List.mem_map.mp hr'
    refine ⟨r,hr,?_,fun τ => ?_⟩
    · split
      · exact (hf r).symm
      · rfl
    · split
      · cases τ with
        | tasks => exact congrArg some (ht r)
        | jobQueues => exact hq r
      · rfl

theorem updateQueues (db : Db) {p : JobQueue → Bool} {f : JobQueue → JobQueue} {hf : ∀ q, rowId (f q) = rowId q}
    (hn : ∀ q, (f q).queueName = q.queueName) :
    Tends db { db with jobQueues := db.jobQueues.updateWhere p f hf } := by
  refine ⟨fun τ => ?_,fun τ => ?_,fun r hr => ⟨r,hr,rfl,fun _ => rfl⟩⟩
  · cases τ with
    | tasks => rfl
    | jobQueues =>
      refine (List.map_map ..).trans (List.map_congr_left fun q _ => ?_)
      have hid : (f q).id = q.id := hf q
      dsimp only [Function.comp_apply]
      split
      · rw [hid,hn]
      · rfl
  · cases τ <;> rfl

theorem unlockQueues (db : Db) (p : JobQueue → Bool) : Tends db (db.unlockQueues p) :=
  updateQueues db fun _ => rfl

theorem claimRows (db : Db) (w : WorkerId) (now : Time) (j : List Job) : Tends db (claimRows db w now j) := by
  have hjobs : Tends db (db.updateJobs (fun r => j.any fun c => c.id == r.id) (Job.claim w now)
      (Job.rowId_claim w now)) := updateJobs db _ (fun _ => rfl) fun _ => rfl
  exact hjobs.trans (updateQueues _ fun _ => rfl)

theorem completeQueued (db : Db) (ids : List JobId) (w : WorkerId) : Tends db (completeQueued db ids w) :=
  (deleteJobs db _).trans (unlockQueues _ _)

theorem completeUnqueued (db : Db) (ids : List JobId) : Tends db (completeUnqueued db ids) := deleteJobs db _

theorem release {db db' : Db} (h : Tends db db') (queued : Bool) (p : JobQueue → Bool) :
    Tends db (if queued then db'.unlockQueues p else db') := by
  cases queued with
  | false => exact h
  | true => exact h.trans (unlockQueues db' p)

end Tends

theorem tends_statement (db : Db) (now : Time) {st : Statement} (h : Single.adds (.statement (now,st)) = false) :
    Tends db (st.run db now) := by
  cases st with
  | addJob job localNow => cases h
  | addJobs jobs preserve localNow => cases h
  | getJobWithFilter w taskIds filter => exact .claimRows db w now _
  | batchGetJobsWithFilter w taskIds filter n => exact .claimRows db w now _
  | completeJob w job =>
    show Tends db (if _ then _ else _)
    split
    · exact .completeQueued db _ w
    · exact .completeUnqueued db _
  | completeJobsWithQueues w ids =>
    show Tends db (if _ then _ else _)
    split
    · exact .refl db
    · exact .completeQueued db ids w
  | completeJobsWithoutQueues w ids =>
    show Tends db (if _ then _ else _)
    split
    · exact .refl db
    · exact .completeUnqueued db ids
  | completeJobDirect w req =>
    show Tends db (if _ then _ else _)
    split
    · exact .completeQueued db _ w
    · exact .completeUnqueued db _
  | failJob w job message payload =>
    exact .release (.updateJobs db (Job.rowId_fail now message payload) (fun _ => rfl) fun _ => rfl)
      job.jobQueueId.isSome _
  | failJobs w jobs =>
    show Tends db (if _ then _ else _)
    split
    · exact .refl db
    · exact .release (.updateJobs db (Job.rowId_failWith now jobs) (fun _ => rfl) fun _ => rfl)
        (jobs.any fun f => f.job.jobQueueId.isSome) _
  | privateReturnJobs w ids o =>
    exact (Tends.updateJobs db (Job.rowId_giveBack db now o) (fun _ => rfl) fun _ => rfl).trans (.unlockQueues _ _)
  | recoverDeadWorkerJobs ws delayMs =>
    show Tends db (recoverDeadWorkerJobs db ws delayMs now).1
    unfold recoverDeadWorkerJobs
    split
    · exact .refl db
    · exact .trans (.updateJobs db (Job.rowId_recover db.isRetired now delayMs) (fun _ => rfl) fun _ => rfl)
        (.unlockQueues _ _)
  | forceUnlockWorkers ws =>
    exact (Tends.updateJobs db Job.rowId_unlock (fun _ => rfl) fun _ => rfl).trans (.unlockQueues _ _)
  | completeJobs ids => exact .deleteJobs db _
  | removeJob key =>
    show Tends db (removeJob db key now).1
    unfold removeJob
    split
    · exact .deleteJobs db _
    · exact (Tends.updateJobs db (Job.rowId_retire now) (fun _ => rfl) fun _ => rfl).trans (.retire _ _)
  | permanentlyFailJobs ids message =>
    exact (Tends.updateJobs db (Job.rowId_failPermanently now message) (fun _ => rfl) fun _ => rfl).trans (.retire _ _)
  | rescheduleJobs ids o =>
    refine committed_of_ok (Tends db) (.refl db) fun db' rows h => ?_
    obtain ⟨o',rfl,_⟩ := rescheduleJobs_ok h
    have hrows : Tends db (db.updateJobs (adminRow now ids) _ (Job.rowId_reschedule now o')) :=
      .updateJobs db _ (fun _ => rfl) fun _ => rfl
    exact hrows.trans (.of_subset rfl rfl (List.Subset.refl _))

theorem tends_single (db : Db) {c : Single} (h : c.adds = false) : Tends db (c.run db) := by
  cases c with
  | statement call => exact tends_statement db call.1 h
  | claim w now ids => exact .claimRows db w now _
  | deletePermanentlyFailedJobs => exact .deleteJobs db _

end GraphileWorker.Maintenance
