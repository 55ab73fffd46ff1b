import GraphileWorker.Database.AddNames

/-! # When adding a job succeeds

Outside the `unsafe_dedupe` mode a locked row with the key is retired first, so the insert
finds no row that it may not replace. Only a full revision counter stops it.
-/
namespace GraphileWorker.Database
open Foundation

/-- The values of a spec pass the casts and the check constraints. -/
structure DbJobSpec.Fits (spec : DbJobSpec) : Prop where
  identifier : spec.identifier.length ≤ 128
  queueName : ∀ q ∈ spec.queueName, q.length ≤ 128
  maxAttempts : ∀ m ∈ spec.maxAttempts, 1 ≤ m ∧ m ≤ 32767
  priority : ∀ p ∈ spec.priority, -32768 ≤ p ∧ p ≤ 32767
  jobKey : ∀ k ∈ spec.jobKey, 0 < k.length ∧ k.length ≤ 512

/-- Every row can be replaced this many times before its revision is full. -/
def RevisionRoom (db : Db) (n : ℕ) : Prop :=
  (n : ℤ) ≤ 2147483647 ∧ ∀ r ∈ db.jobs.rows, r.revision + n ≤ 2147483647

variable {db : Db} {spec : DbJobSpec} {now : Time} {n : ℕ} {mode : Option String}

theorem toSmallintOpt_ok {o : Option ℤ} (h : ∀ m ∈ o, -32768 ≤ m ∧ m ≤ 32767) : toSmallintOpt o = .ok o := by
  cases o with
  | none => rfl
  | some m => simp [toSmallintOpt,toSmallint,h m rfl,Except.map]

theorem DbJobSpec.Fits.casts (h : spec.Fits) :
    toSmallintOpt spec.maxAttempts = .ok spec.maxAttempts ∧ toSmallintOpt spec.priority = .ok spec.priority := by
  refine ⟨toSmallintOpt_ok fun m hm => ?_,toSmallintOpt_ok h.priority⟩
  have := h.maxAttempts m hm
  omega

theorem RevisionRoom.retireKeyed (h : RevisionRoom db n) (specs : List DbJobSpec) :
    RevisionRoom (retireKeyed db specs now) n := by
  refine ⟨h.1,fun r hr => ?_⟩
  obtain ⟨s,hs,rfl⟩ := List.mem_map.mp hr
  have := h.2 s hs
  split
  · exact this
  · exact this

theorem unlocked_of_conflicting {r : Job} (h : conflicting (retireKeyed db [spec] now) spec.jobKey = some r) :
    r.lock = none :=
  unlocked_of_isAvailable (keyedAvailable_retireKeyed.conflicting List.mem_cons_self h)

theorem checkJob_ok (h : spec.Fits) (taskId : TaskId) (i : ℕ) :
    checkJob (proposedJob db spec taskId now i) = .ok () := by
  have hmax : ¬(proposedJob db spec taskId now i).maxAttempts < 1 := by
    unfold proposedJob
    cases hm : spec.maxAttempts with
    | none => simp
    | some m =>
      have := (h.maxAttempts m hm).1
      simpa using this
  unfold checkJob
  rw [if_neg hmax]
  cases hk : spec.jobKey with
  | none => simp [proposedJob,hk]
  | some k =>
    have := h.jobKey k hk
    simp [proposedJob,hk,this]

theorem exists_insertOne (now : Time) (h : spec.Fits) (ht : (taskIdOf db spec.identifier).isSome = true)
    (hl : ∀ r, conflicting db spec.jobKey = some r → r.lock = none) (hr : RevisionRoom db (n + 1)) (preserve : Bool) :
    ∃ db' row, insertOne db [] spec preserve now = .ok (db',some row) ∧ RevisionRoom db' n := by
  obtain ⟨taskId,ht⟩ := Option.isSome_iff_exists.mp ht
  have hn := hr.1
  push_cast at hn
  unfold insertOne
  simp only [ht]
  rw [checkJob_ok h]
  cases hc : conflicting db spec.jobKey with
  | none =>
    refine ⟨_,_,rfl,by omega,fun r hm => ?_⟩
    rcases List.mem_append.mp hm with hm | hm
    · have := hr.2 r hm
      push_cast at this
      omega
    · rw [List.mem_singleton.mp hm]
      show (0 : ℤ) + n ≤ 2147483647
      omega
  | some r =>
    obtain ⟨k,-,hf⟩ := Option.bind_eq_some_iff.mp hc
    have hrev := hr.2 r (List.mem_of_find?_eq_some hf)
    push_cast at hrev
    have hfull : r.revision ≠ 2147483647 := by omega
    refine ⟨_,_,by simp only [hl r hc,hfull]; rfl,by omega,fun s hm => ?_⟩
    obtain ⟨s,hs,rfl⟩ := List.mem_map.mp hm
    have hrev' := hr.2 s hs
    push_cast at hrev'
    split
    · show s.revision + 1 + n ≤ 2147483647
      omega
    · omega

/-- The modes that a crontab entry can ask for. -/
def ReplacingMode (mode : Option String) : Prop :=
  mode = none ∨ mode = some "replace" ∨ mode = some "preserve_run_at"

theorem ReplacingMode.replaces (hm : ReplacingMode mode) :
    (spec.jobKey.isNone || mode.isNone || mode == some "replace" || mode == some "preserve_run_at") = true := by
  rcases hm with rfl | rfl | rfl <;> simp

theorem dedup_queueName (spec : DbJobSpec) :
    ([spec].filterMap DbJobSpec.queueName).dedup = spec.queueName.toList := by
  cases hs : spec.queueName <;> simp [hs]

theorem exists_prepared (hid : spec.identifier.length ≤ 128) (hqueue : ∀ q ∈ spec.queueName, q.length ≤ 128) (db : Db)
    (now : Time) (preserve : Bool) : ∃ db₂, db₂.jobs = db.jobs ∧
    (taskIdOf (retireKeyed db₂ [spec] now) spec.identifier).isSome = true ∧
    addJobsSql db [spec] preserve now = insertAll preserve now (retireKeyed db₂ [spec] now) [] [spec] := by
  have htasks := (insertTasks_ok_iff db ([spec].map DbJobSpec.identifier).dedup).1 fun x hx =>
    .inr (List.mem_singleton.mp (List.mem_dedup.mp hx) ▸ hid)
  have hqueues := fun db₁ => (insertQueues_ok_iff db₁ ([spec].filterMap DbJobSpec.queueName).dedup).1 fun x hx =>
    .inr (hqueue x (by simpa [dedup_queueName] using hx))
  have hknown : (taskNames.idOf (taskNames.registerAll db.tasks ([spec].map DbJobSpec.identifier).dedup)
      spec.identifier).isSome = true := NameColumn.isSome_idOf_registerAll.mpr (.inr (by simp))
  refine ⟨db.register _ ([spec].filterMap DbJobSpec.queueName).dedup,rfl,hknown,?_⟩
  unfold addJobsSql
  rw [bind_of_ok htasks,bind_of_ok (hqueues _)]
  rfl

theorem exists_addJobsSql (now : Time) (h : spec.Fits) (hr : RevisionRoom db (n + 1)) (preserve : Bool) :
    ∃ db' row, addJobsSql db [spec] preserve now = .ok (db',[row]) ∧ RevisionRoom db' n := by
  obtain ⟨db₂,hjobs,htask,heq⟩ := exists_prepared h.identifier h.queueName db now preserve
  have hroom : RevisionRoom db₂ (n + 1) := by
    unfold RevisionRoom
    rw [hjobs]
    exact hr
  obtain ⟨db₃,row,h₃,hroom₃⟩ := exists_insertOne now h htask (fun r => unlocked_of_conflicting)
    (hroom.retireKeyed [spec]) preserve
  exact ⟨db₃,row,heq.trans (bind_of_ok h₃ _),hroom₃⟩

theorem exists_addJobSql (now : Time) (h : spec.Fits) (hm : ReplacingMode mode) (hr : RevisionRoom db (n + 1)) :
    ∃ db' job, addJobSql db spec mode now = .ok (db',some job) ∧ RevisionRoom db' n := by
  obtain ⟨db',row,hadd,hroom⟩ := exists_addJobsSql now h hr (mode == some "preserve_run_at")
  refine ⟨db',row,?_,hroom⟩
  unfold addJobSql
  rw [if_pos hm.replaces,bind_of_ok h.casts.1,bind_of_ok h.casts.2]
  exact bind_of_ok hadd _

theorem insertOne_of_fits (h : spec.Fits) (ht : (taskIdOf db spec.identifier).isSome = true)
    (hl : ∀ r, conflicting db spec.jobKey = some r → r.lock = none) (preserve : Bool) :
    (∃ db' row, insertOne db [] spec preserve now = .ok (db',some row)) ∨
      insertOne db [] spec preserve now = .error .integerOutOfRange := by
  obtain ⟨taskId,ht⟩ := Option.isSome_iff_exists.mp ht
  unfold insertOne
  simp only [ht]
  rw [checkJob_ok h]
  cases hc : conflicting db spec.jobKey with
  | none => exact .inl ⟨_,_,rfl⟩
  | some r =>
    by_cases hfull : r.revision = 2147483647
    · exact .inr (by simp only [hl r hc,hfull]; rfl)
    · exact .inl ⟨_,_,by simp only [hl r hc,hfull]; rfl⟩

theorem addJobSql_of_fits (now : Time) (h : spec.Fits) (hm : ReplacingMode mode) (db : Db) :
    (∃ db' job, addJobSql db spec mode now = .ok (db',some job)) ∨
      addJobSql db spec mode now = .error .integerOutOfRange := by
  obtain ⟨db₂,-,htask,heq⟩ := exists_prepared h.identifier h.queueName db now (mode == some "preserve_run_at")
  unfold addJobSql
  rw [if_pos hm.replaces,bind_of_ok h.casts.1,bind_of_ok h.casts.2]
  rcases insertOne_of_fits h htask (fun r => unlocked_of_conflicting) (mode == some "preserve_run_at") with
    ⟨db',row,hone⟩ | herr
  · exact .inl ⟨db',row,bind_of_ok (heq.trans (bind_of_ok hone _)) _⟩
  · refine .inr ?_
    have hall : addJobsSql db [spec] (mode == some "preserve_run_at") now = .error .integerOutOfRange := by
      rw [heq,insertAll,herr]
      rfl
    rw [hall]
    rfl

theorem checkJob_error (db : Db) (now : Time)
    (h : ¬((∀ m ∈ spec.maxAttempts, 1 ≤ m) ∧ ∀ k ∈ spec.jobKey, 0 < k.length ∧ k.length ≤ 512)) (taskId : TaskId) (i : ℕ) : ∃ constraint,
      checkJob (proposedJob db spec taskId now i) = .error (.checkViolation constraint) := by
  unfold checkJob
  by_cases hmax : (proposedJob db spec taskId now i).maxAttempts < 1
  · exact ⟨_,if_pos hmax⟩
  · rw [if_neg hmax]
    cases hk : spec.jobKey with
    | none =>
      refine absurd ⟨fun m hm => ?_,by simp [hk]⟩ h
      simpa [proposedJob,show spec.maxAttempts = some m from hm] using hmax
    | some k =>
      refine ⟨"jobs_key_check",?_⟩
      have hkey : ¬(0 < k.length ∧ k.length ≤ 512) := by
        intro hkey
        refine h ⟨fun m hm => ?_,by simpa [hk] using hkey⟩
        simpa [proposedJob,show spec.maxAttempts = some m from hm] using hmax
      simp only [proposedJob,hk,if_neg hkey]

/-- A value that passes the casts but does not fit violates a check, unless its task or queue exists already. -/
theorem addJobsSql_of_not_fits (db : Db) (spec : DbJobSpec) (now : Time) (ht : taskIdOf db spec.identifier = none)
    (hq : ∀ q ∈ spec.queueName, queueIdOf db q = none)
    (h : ¬(spec.identifier.length ≤ 128 ∧ (∀ q ∈ spec.queueName, q.length ≤ 128) ∧
      (∀ m ∈ spec.maxAttempts, 1 ≤ m) ∧ ∀ k ∈ spec.jobKey, 0 < k.length ∧ k.length ≤ 512))
    (preserve : Bool) : ∃ constraint, addJobsSql db [spec] preserve now = .error (.checkViolation constraint) := by
  have htasks : ([spec].map DbJobSpec.identifier).dedup.foldlM insertTask db = insertTask db spec.identifier := by
    rw [List.map_singleton,List.Nodup.dedup (List.nodup_singleton _)]
    exact bind_pure _
  by_cases hid : spec.identifier.length ≤ 128
  · by_cases hqueue : ∀ q ∈ spec.queueName, q.length ≤ 128
    · obtain ⟨db₂,-,htask,heq⟩ := exists_prepared hid hqueue db now preserve
      obtain ⟨taskId,htask⟩ := Option.isSome_iff_exists.mp htask
      obtain ⟨constraint,hc⟩ := checkJob_error (retireKeyed db₂ [spec] now) now
        (fun hok => h ⟨hid,hqueue,hok⟩) taskId (retireKeyed db₂ [spec] now).jobs.next
      refine ⟨constraint,?_⟩
      rw [heq,insertAll,insertOne]
      simp only [htask]
      rw [hc]
      rfl
    · push Not at hqueue
      obtain ⟨q,hmem,hlong⟩ := hqueue
      refine ⟨"job_queues_queue_name_check",?_⟩
      have htask : insertTask db spec.identifier = .ok { db with
          tasks := db.tasks.insert (newTask spec.identifier) (rowId_newTask spec.identifier) } := by
        rw [insertTask,ht,if_neg (by simp),if_pos hid]
      have hnew : queueIdOf { db with
          tasks := db.tasks.insert (newTask spec.identifier) (rowId_newTask spec.identifier) } q = none := hq q hmem
      unfold addJobsSql
      rw [htasks,bind_of_ok htask,dedup_queueName,show spec.queueName = some q from hmem,Option.toList_some,
        List.foldlM_cons,insertQueue,hnew,if_neg (by simp),if_neg (by omega)]
      rfl
  · refine ⟨"tasks_identifier_check",?_⟩
    unfold addJobsSql
    rw [htasks,insertTask,ht,if_neg (by simp),if_neg hid]
    rfl

end GraphileWorker.Database
