import GraphileWorker.Database.AddJobOk

/-! # Adding a job under a key

What a call of `add_job` did is said once, for keyed and unkeyed specs; what holds of the row
under the key, of a retired row and of all others is read off it.
-/
namespace GraphileWorker.Database
open Foundation

variable {db db' db₀ : Db} {spec : DbJobSpec} {now : Time} {mode : Option String} {r : Job} {k : String}

/-- The tables when the row is written: the task and the queue are there, and the
rows with the key that are not available are retired. -/
structure Prepared (db : Db) (spec : DbJobSpec) (now : Time) (db₀ : Db) : Prop where
  jobs : db₀.jobs = (retireKeyed db [spec] now).jobs
  jobRetirements : db₀.jobRetirements = (retireKeyed db [spec] now).jobRetirements
  queue : ∀ q ∈ spec.queueName, (queueIdOf db₀ q).isSome = true

inductive Put (db₀ : Db) (spec : DbJobSpec) (preserve : Bool) (now : Time) (taskId : TaskId) : Db → Job → Prop
  | inserted (h : conflicting db₀ spec.jobKey = none) : Put db₀ spec preserve now taskId
      { db₀ with jobs := db₀.jobs.insert (proposedJob db₀ spec taskId now) (rowId_proposedJob db₀ spec taskId now) }
      (proposedJob db₀ spec taskId now db₀.jobs.next)
  | replaced (old : Job) (h : conflicting db₀ spec.jobKey = some old) (hl : old.lock = none) :
    Put db₀ spec preserve now taskId
      (Db.updateJobs { db₀ with jobs := db₀.jobs.skip } (fun s => s.id == old.id && s.lock.isNone)
        (Job.replaceWith (proposedJob db₀ spec taskId now db₀.jobs.next) preserve now)
        (Job.rowId_replaceWith (proposedJob db₀ spec taskId now db₀.jobs.next) preserve now))
      (Job.replaceWith (proposedJob db₀ spec taskId now db₀.jobs.next) preserve now old)

theorem eq_of_toSmallintOpt {o o' : Option ℤ} (h : toSmallintOpt o = .ok o') : o' = o := by
  cases o with
  | none =>
    cases h
    rfl
  | some n =>
    by_cases hn : -32768 ≤ n ∧ n ≤ 32767
    · rw [toSmallintOpt,toSmallint,if_pos hn] at h
      cases h
      rfl
    · rw [toSmallintOpt,toSmallint,if_neg hn] at h
      cases h

theorem put_of_insertOne {preserve : Bool} {row : Job}
    (h : insertOne db₀ [] spec preserve now = .ok (db',some row)) :
    ∃ taskId, taskIdOf db₀ spec.identifier = some taskId ∧
      checkJob (proposedJob db₀ spec taskId now db₀.jobs.next) = .ok () ∧
      Put db₀ spec preserve now taskId db' row := by
  cases insertOne_cases h with
  | inserted taskId ht hcheck hc => exact ⟨taskId,ht,hcheck,.inserted hc⟩
  | replaced taskId old ht hcheck hc _ hl => exact ⟨taskId,ht,hcheck,.replaced old hc hl⟩

theorem isSome_queueIdOf_insertQueue {q : String} (h : insertQueue db q = .ok db') :
    (queueIdOf db' q).isSome = true := by
  unfold insertQueue at h
  split at h
  · next hs =>
    cases h
    exact hs
  · split at h
    · cases h
      simp [queueIdOf,IdTable.insert,newQueue]
    · cases h

theorem queue_of_insertQueues (h : ([spec].filterMap DbJobSpec.queueName).dedup.foldlM insertQueue db = .ok db') :
    ∀ q ∈ spec.queueName, (queueIdOf db' q).isSome = true := by
  intro q hq
  have he : [spec].filterMap DbJobSpec.queueName = [q] := by simp [show spec.queueName = some q from hq]
  rw [he,List.Nodup.dedup (List.nodup_singleton q)] at h
  obtain ⟨b,hb,h⟩ := bind_eq_ok h
  cases h
  exact isSome_queueIdOf_insertQueue hb

theorem retireKeyed_congr {db₁ db₂ : Db} (hj : db₂.jobs = db₁.jobs) (hr : db₂.jobRetirements = db₁.jobRetirements)
    (specs : List DbJobSpec) (now : Time) : (retireKeyed db₂ specs now).jobs = (retireKeyed db₁ specs now).jobs ∧
      (retireKeyed db₂ specs now).jobRetirements = (retireKeyed db₁ specs now).jobRetirements := by
  unfold retireKeyed Db.retire Db.updateJobs Db.isRetired
  constructor
  · simp only [hj]
  · simp only [hj,hr]

theorem addJobSql_ok {row : Option Job} (hm : ReplacingMode mode) (h : addJobSql db spec mode now = .ok (db',row)) :
    ∃ db₀ taskId r, row = some r ∧ Prepared db spec now db₀ ∧ taskIdOf db₀ spec.identifier = some taskId ∧
      checkJob (proposedJob db₀ spec taskId now db₀.jobs.next) = .ok () ∧
      Put db₀ spec (mode == some "preserve_run_at") now taskId db' r := by
  unfold addJobSql at h
  rw [if_pos hm.replaces] at h
  obtain ⟨maxAttempts,hmax,h⟩ := bind_eq_ok h
  obtain ⟨priority,hpri,h⟩ := bind_eq_ok h
  obtain ⟨⟨db₁,rows⟩,hadd,h⟩ := bind_eq_ok h
  cases eq_of_toSmallintOpt hmax
  cases eq_of_toSmallintOpt hpri
  obtain ⟨dbt,ht,hadd⟩ := bind_eq_ok hadd
  obtain ⟨dbq,hq,hadd⟩ := bind_eq_ok hadd
  obtain ⟨⟨db₂,row₂⟩,hone,hadd⟩ := bind_eq_ok hadd
  cases hadd
  cases row₂ with
  | none => cases h
  | some r =>
    cases h
    obtain ⟨taskId,htask,hcheck,hput⟩ := put_of_insertOne hone
    obtain ⟨hjt,hrt⟩ := jobs_insertTasks ht
    obtain ⟨hjq,hrq⟩ := jobs_insertQueues hq
    obtain ⟨hj,hr⟩ := retireKeyed_congr (hjq.trans hjt) (hrq.trans hrt) [spec] now
    have hqueue : ∀ q ∈ spec.queueName, (queueIdOf dbq q).isSome = true := queue_of_insertQueues hq
    exact ⟨retireKeyed dbq [spec] now,taskId,r,rfl,⟨hj,hr,hqueue⟩,htask,hcheck,hput⟩

theorem retires_iff : retires [spec] r = true ↔
    ∃ k, spec.jobKey = some k ∧ r.key = some k ∧ r.isAvailable = false := by
  cases hk : spec.jobKey with
  | none => simp [retires,hk]
  | some k => simp [retires,hk]

section
variable (hp : Prepared db spec now db₀)
include hp

theorem Prepared.next : db₀.jobs.next = db.jobs.next := by
  rw [hp.jobs]
  rfl

theorem Prepared.mem_iff {s : Job} : s ∈ db₀.jobs.rows ↔
    (s ∈ db.jobs.rows ∧ ¬retires [spec] s = true) ∨
      ∃ old ∈ db.jobs.rows, retires [spec] old = true ∧ s = old.retire now := by
  have hrows : db₀.jobs.rows = db.jobs.rows.map fun r => if retires [spec] r then r.retire now else r := by
    rw [hp.jobs]
    rfl
  rw [hrows]
  constructor
  · intro hs
    obtain ⟨old,hold,rfl⟩ := List.mem_map.mp hs
    by_cases hr : retires [spec] old = true
    · exact .inr ⟨old,hold,hr,by rw [if_pos hr]⟩
    · rw [if_neg hr]
      exact .inl ⟨hold,hr⟩
  · rintro (⟨hs,hr⟩ | ⟨old,hold,hr,rfl⟩)
    · exact List.mem_map.mpr ⟨s,hs,if_neg hr⟩
    · exact List.mem_map.mpr ⟨old,hold,if_pos hr⟩

theorem Prepared.conflicting_some (hk : spec.jobKey = some k) {old : Job}
    (h : conflicting db₀ spec.jobKey = some old) :
    old ∈ db.jobs.rows ∧ old.key = some k ∧ old.isAvailable = true := by
  have hkey : old.key = some k := (conflicting_eq_some h).2.2.trans hk
  rcases hp.mem_iff.mp (conflicting_eq_some h).1 with ⟨hold,hr⟩ | ⟨s,-,-,rfl⟩
  · refine ⟨hold,hkey,?_⟩
    by_contra ha
    exact hr (retires_iff.mpr ⟨k,hk,hkey,by simpa using ha⟩)
  · cases hkey

theorem Prepared.conflicting_none (hk : spec.jobKey = some k)
    (h : conflicting db₀ spec.jobKey = none) {s : Job} (hs : s ∈ db.jobs.rows) (hkey : s.key = some k) :
    s.isAvailable = false := by
  by_contra ha
  have hm : s ∈ db₀.jobs.rows := by
    refine hp.mem_iff.mpr (.inl ⟨hs,fun hr => ?_⟩)
    obtain ⟨_,-,-,hf⟩ := retires_iff.mp hr
    exact ha hf
  rw [conflicting,hk,Option.bind_some] at h
  exact List.find?_eq_none.mp h s hm (by simpa using hkey)

end

namespace Put
variable {preserve : Bool} {taskId : TaskId} {r s : Job}

variable (h : Put db₀ spec preserve now taskId db' r)
include h

theorem columns :
    r.key = spec.jobKey ∧ r.lock = none ∧ r.attempts = 0 ∧ r.lastError = none ∧ r.taskId = taskId ∧
      r.jobQueueId = spec.queueName.bind (queueIdOf db₀) ∧ r.priority = spec.priority.getD 0 ∧
      r.flags = flagsObject spec.flags ∧ r.maxAttempts = spec.maxAttempts.getD 25 := by
  cases h with
  | inserted h => exact ⟨rfl,rfl,rfl,rfl,rfl,rfl,rfl,rfl,rfl⟩
  | replaced old h hl =>
    have hkey : old.key = spec.jobKey := (conflicting_eq_some h).2.2
    exact ⟨hkey,hl,rfl,rfl,rfl,rfl,rfl,rfl,rfl⟩

theorem tables :
    db'.tasks = db₀.tasks ∧ db'.jobQueues = db₀.jobQueues ∧ db'.jobRetirements = db₀.jobRetirements := by
  cases h with
  | inserted h => exact ⟨rfl,rfl,rfl⟩
  | replaced old h hl => exact ⟨rfl,rfl,rfl⟩

theorem mem_iff :
    s ∈ db'.jobs.rows ↔ s = r ∨ (s ∈ db₀.jobs.rows ∧ s.id ≠ r.id) := by
  cases h with
  | inserted h =>
    show s ∈ db₀.jobs.rows ++ [_] ↔ _
    rw [List.mem_append,List.mem_singleton,or_comm]
    refine or_congr_right ⟨fun hs => ⟨hs,?_⟩,And.left⟩
    exact Nat.ne_of_lt (db₀.jobs.lt_next s hs)
  | replaced old h hl =>
    have hold : old ∈ db₀.jobs.rows := (conflicting_eq_some h).1
    -- the update meets the row with the key alone, since it is unlocked and identities are distinct
    have hsel : ∀ t ∈ db₀.jobs.rows, (t.id == old.id && t.lock.isNone) = true ↔ t = old := by
      intro t ht
      constructor
      · intro he
        exact IdTable.eq_of_rowId ht hold (by simpa using (Bool.and_eq_true_iff.mp he).1)
      · rintro rfl
        simp [hl]
    constructor
    · intro hs
      obtain ⟨t,ht,rfl⟩ := List.mem_map.mp hs
      by_cases he : (t.id == old.id && t.lock.isNone) = true
      · rw [if_pos he]
        exact .inl (by rw [(hsel t ht).mp he])
      · rw [if_neg he]
        refine .inr ⟨ht,fun hid => he ((hsel t ht).mpr ?_)⟩
        exact IdTable.eq_of_rowId ht hold hid
    · rintro (rfl | ⟨hs,hid⟩)
      · exact List.mem_map.mpr ⟨old,hold,if_pos ((hsel old hold).mpr rfl)⟩
      · refine List.mem_map.mpr ⟨s,hs,if_neg fun he => hid ?_⟩
        rw [(hsel s hs).mp he]
        rfl

end Put

def UniqueKeys (db : Db) : Prop :=
  ∀ r ∈ db.jobs.rows, ∀ s ∈ db.jobs.rows, r.key.isSome = true → r.key = s.key → r = s

/-- What a call with this key leaves: the row under the key, what became of the
row that had it, and all other rows. -/
structure AddedUnderKey (db : Db) (spec : DbJobSpec) (k : String) (mode : JobKeyMode) (now : Time) (db' : Db)
    (r : Job) : Prop where
  only : ∀ s, s ∈ db'.jobs.rows ∧ s.key = some k ↔ s = r
  unlocked : r.lock = none
  attempts : r.attempts = 0 ∧ r.attempts < r.maxAttempts
  lastError : r.lastError = none
  task : ∃ t ∈ db'.tasks.rows, t.id = r.taskId ∧ t.identifier = spec.identifier
  noQueue : spec.queueName = none → r.jobQueueId = none
  queue : ∀ q, spec.queueName = some q → ∃ g ∈ db'.jobQueues.rows, r.jobQueueId = some g.id ∧ g.queueName = q
  priority : r.priority = spec.priority.getD 0
  flags : r.flags = flagsObject spec.flags
  maxAttempts : r.maxAttempts = spec.maxAttempts.getD 25
  replaced : ∀ old ∈ db.jobs.rows, old.key = some k → old.isAvailable = true → r.id = old.id ∧
    (match old.payload, spec.payload.getD (.object []) with
      | .array before, .array new => r.payload = .array (before ++ new)
      | _, new => r.payload = new) ∧
    r.runAt = if mode = .preserveRunAt ∧ old.attempts = 0 then old.runAt else spec.runAt.getD now
  inserted : (∀ old ∈ db.jobs.rows, old.key = some k → old.isAvailable = false) →
    (∀ s ∈ db.jobs.rows, s.id ≠ r.id) ∧ r.payload = spec.payload.getD (.object []) ∧ r.runAt = spec.runAt.getD now
  retired : ∀ old ∈ db.jobs.rows, old.key = some k → old.isAvailable = false → db'.isRetired old.id = true ∧
    ∃ s ∈ db'.jobs.rows, s.id = old.id ∧ s.lock = old.lock ∧ s.payload = old.payload ∧ s.key = none ∧
      s.attempts = s.maxAttempts
  others : ∀ s ∈ db.jobs.rows, s.key ≠ some k → s ∈ db'.jobs.rows
  nothingElse : ∀ s ∈ db'.jobs.rows, s = r ∨ (s ∈ db.jobs.rows ∧ s.key ≠ some k) ∨
    ∃ old ∈ db.jobs.rows, old.key = some k ∧ old.isAvailable = false ∧ s.id = old.id ∧ s.key = none

section Keyed
variable {k : String} {preserve : Bool} {taskId : TaskId} {r s : Job} (hp : Prepared db spec now db₀)
  (h : Put db₀ spec preserve now taskId db' r)
include hp h

theorem Put.identity (hs : s ∈ db.jobs.rows) (hkey : spec.jobKey = none ∨ s.key ≠ spec.jobKey) : s.id ≠ r.id := by
  cases h with
  | inserted h =>
    show s.id ≠ db₀.jobs.next
    rw [hp.next]
    exact Nat.ne_of_lt (db.jobs.lt_next s hs)
  | replaced old h hl =>
    intro hid
    obtain ⟨k,hk,-⟩ := Option.bind_eq_some_iff.mp h
    obtain ⟨hold,hokey,-⟩ := hp.conflicting_some hk h
    have he : s = old := IdTable.eq_of_rowId hs hold hid
    rcases hkey with hkey | hkey
    · rw [hkey] at hk
      cases hk
    · exact hkey (by rw [he,hokey,hk])

theorem Put.others (hs : s ∈ db.jobs.rows) (hkey : spec.jobKey = none ∨ s.key ≠ spec.jobKey) : s ∈ db'.jobs.rows := by
  refine h.mem_iff.mpr (.inr ⟨hp.mem_iff.mpr (.inl ⟨hs,fun hr => ?_⟩),h.identity hp hs hkey⟩)
  obtain ⟨k,hk,hsk,-⟩ := retires_iff.mp hr
  rcases hkey with hkey | hkey
  · rw [hkey] at hk
    cases hk
  · exact hkey (hsk.trans hk.symm)

variable (hk : spec.jobKey = some k)
include hk

theorem Put.only (hu : UniqueKeys db) : s ∈ db'.jobs.rows ∧ s.key = some k ↔ s = r := by
  constructor
  · rintro ⟨hs,hkey⟩
    rcases h.mem_iff.mp hs with rfl | ⟨hm,hid⟩
    · rfl
    rcases hp.mem_iff.mp hm with ⟨hs₀,hr⟩ | ⟨old,-,-,rfl⟩
    · -- a row that kept the key is available, so the call has replaced it
      exfalso
      cases h with
      | inserted h =>
        have ha := hp.conflicting_none hk h hs₀ hkey
        exact hr (retires_iff.mpr ⟨k,hk,hkey,ha⟩)
      | replaced old h hl =>
        obtain ⟨hold,hokey,-⟩ := hp.conflicting_some hk h
        have he : s = old := hu s hs₀ old hold (by rw [hkey]; rfl) (hkey.trans hokey.symm)
        exact hid (by rw [he]; rfl)
    · cases hkey
  · rintro rfl
    exact ⟨h.mem_iff.mpr (.inl rfl),h.columns.1.trans hk⟩

theorem Put.replaced_of_available (hu : UniqueKeys db) {old : Job} (hold : old ∈ db.jobs.rows)
    (hkey : old.key = some k) (ha : old.isAvailable = true) :
    r = Job.replaceWith (proposedJob db₀ spec taskId now db₀.jobs.next) preserve now old := by
  cases h with
  | inserted h =>
    rw [hp.conflicting_none hk h hold hkey] at ha
    cases ha
  | replaced old' h hl =>
    obtain ⟨hold',hkey',-⟩ := hp.conflicting_some hk h
    rw [hu old hold old' hold' (by rw [hkey]; rfl) (hkey.trans hkey'.symm)]

theorem Put.inserted_of_none (hn : ∀ old ∈ db.jobs.rows, old.key = some k → old.isAvailable = false) :
    r = proposedJob db₀ spec taskId now db.jobs.next := by
  cases h with
  | inserted h => rw [hp.next]
  | replaced old h hl =>
    obtain ⟨hold,hkey,ha⟩ := hp.conflicting_some hk h
    rw [hn old hold hkey] at ha
    cases ha

theorem Put.retired {old : Job} (hold : old ∈ db.jobs.rows) (hkey : old.key = some k)
    (ha : old.isAvailable = false) : db'.isRetired old.id = true ∧ old.retire now ∈ db'.jobs.rows := by
  have hr : retires [spec] old = true := retires_iff.mpr ⟨k,hk,hkey,ha⟩
  constructor
  · have hm : old.id ∈ (db.jobs.rows.filter (retires [spec])).map Job.id :=
      List.mem_map.mpr ⟨old,List.mem_filter.mpr ⟨hold,hr⟩,rfl⟩
    rw [Db.isRetired,h.tables.2.2,hp.jobRetirements,List.contains_iff_mem]
    by_cases hb : old.id ∈ db.jobRetirements
    · exact List.mem_append_left _ hb
    · refine List.mem_append_right _ (List.mem_filter.mpr ⟨hm,?_⟩)
      simpa [Db.isRetired,Db.updateJobs] using hb
  · refine h.mem_iff.mpr (.inr ⟨hp.mem_iff.mpr (.inr ⟨old,hold,hr,rfl⟩),fun hid => ?_⟩)
    cases h with
    | inserted h =>
      have hlt : old.id < db.jobs.next := db.jobs.lt_next old hold
      rw [← hp.next] at hlt
      exact Nat.ne_of_lt hlt hid
    | replaced old' h hl =>
      obtain ⟨hold',-,ha'⟩ := hp.conflicting_some hk h
      rw [IdTable.eq_of_rowId hold hold' hid,ha'] at ha
      cases ha

theorem Put.nothingElse (hu : UniqueKeys db) (hs : s ∈ db'.jobs.rows) :
    s = r ∨ (s ∈ db.jobs.rows ∧ s.key ≠ some k) ∨
      ∃ old ∈ db.jobs.rows, old.key = some k ∧ old.isAvailable = false ∧ s.id = old.id ∧ s.key = none := by
  by_cases hsk : s.key = some k
  · exact .inl ((h.only hp hk hu).mp ⟨hs,hsk⟩)
  · rcases h.mem_iff.mp hs with hsr | ⟨hs₀,-⟩
    · exact .inl hsr
    · rcases hp.mem_iff.mp hs₀ with ⟨hs,-⟩ | ⟨old,hold,hr,rfl⟩
      · exact .inr (.inl ⟨hs,hsk⟩)
      · obtain ⟨k',hk',hok,ha⟩ := retires_iff.mp hr
        cases hk.symm.trans hk'
        exact .inr (.inr ⟨old,hold,hok,ha,rfl,rfl⟩)

end Keyed

theorem task_of_taskIdOf {identifier : String} {i : TaskId} (h : taskIdOf db identifier = some i) :
    ∃ t ∈ db.tasks.rows, t.id = i ∧ t.identifier = identifier := by
  obtain ⟨t,hf,hid⟩ := Option.map_eq_some_iff.mp h
  exact ⟨t,List.mem_of_find?_eq_some hf,hid,by simpa using List.find?_some hf⟩

theorem queue_of_queueIdOf {q : String} {i : QueueId} (h : queueIdOf db q = some i) :
    ∃ g ∈ db.jobQueues.rows, g.id = i ∧ g.queueName = q := by
  obtain ⟨g,hf,hid⟩ := Option.map_eq_some_iff.mp h
  exact ⟨g,List.mem_of_find?_eq_some hf,hid,by simpa using List.find?_some hf⟩

theorem mergePayload_cases (old new : Json) : match old, new with
    | .array before, .array after => mergePayload old new = .array (before ++ after)
    | _, replacing => mergePayload old new = replacing := by
  cases old <;> cases new <;> rfl

theorem AddedUnderKey.uniqueKeys (hu : UniqueKeys db) {mode : JobKeyMode}
    (h : AddedUnderKey db spec k mode now db' r) : UniqueKeys db' := by
  intro s hs t ht hsome hst
  by_cases hsk : s.key = some k
  · rw [(h.only s).mp ⟨hs,hsk⟩,(h.only t).mp ⟨ht,hst.symm.trans hsk⟩]
  · have before : ∀ u ∈ db'.jobs.rows, u.key = s.key → u ∈ db.jobs.rows := by
      intro u hm hus
      rcases h.nothingElse u hm with rfl | hu | ⟨old,-,-,-,-,hn⟩
      · exact absurd (hus.symm.trans ((h.only u).mpr rfl).2) hsk
      · exact hu.1
      · rw [← hus,hn] at hsome
        cases hsome
    exact hu s (before s hs rfl) t (before t ht hst.symm) hsome hst

/-- A call that succeeds returns the row it leaves under the key, and the keys stay unique. -/
theorem add_job_under_key (db : Db) (hu : UniqueKeys db) (spec : DbJobSpec) (k : String) (hk : spec.jobKey = some k)
    (mode : JobKeyMode) (hmode : mode = .replace ∨ mode = .preserveRunAt) (now : Time) (db' : Db) (row : Option Job)
    (h : addJobSql db spec (some mode.toText) now = .ok (db',row)) :
    ∃ r, row = some r ∧ AddedUnderKey db spec k mode now db' r ∧ UniqueKeys db' := by
  have hm : ReplacingMode (some mode.toText) := by
    rcases hmode with rfl | rfl
    · exact .inr (.inl rfl)
    · exact .inr (.inr rfl)
  have hpreserve : (some mode.toText == some "preserve_run_at") = decide (mode = .preserveRunAt) := by
    rcases hmode with rfl | rfl <;> decide
  obtain ⟨db₀,taskId,r,hrow,hp,ht,hcheck,hput⟩ := addJobSql_ok hm h
  rw [hpreserve] at hput
  obtain ⟨hkey,hlock,hatt,herr,htask,hqueue,hpri,hflags,hmax⟩ := hput.columns
  obtain ⟨htasks,hqueues,-⟩ := hput.tables
  have hadded : AddedUnderKey db spec k mode now db' r := by
    refine ⟨fun s => hput.only hp hk hu,hlock,?_,herr,?_,?_,?_,hpri,hflags,hmax,?_,?_,?_,?_,
      fun s hs => hput.nothingElse hp hk hu hs⟩
    · have hpos : 1 ≤ (proposedJob db₀ spec taskId now db₀.jobs.next).maxAttempts := maxAttempts_of_checkJob hcheck
      have heq : (proposedJob db₀ spec taskId now db₀.jobs.next).maxAttempts = r.maxAttempts := hmax.symm
      omega
    · rw [htasks,htask]
      exact task_of_taskIdOf ht
    · intro hq
      rw [hqueue,hq]
      rfl
    · intro q hq
      obtain ⟨i,hi⟩ := Option.isSome_iff_exists.mp (hp.queue q hq)
      obtain ⟨g,hg,rfl,hname⟩ := queue_of_queueIdOf hi
      rw [hqueues,hqueue,hq]
      exact ⟨g,hg,hi,hname⟩
    · intro old hold hokey ha
      have he := hput.replaced_of_available hp hk hu hold hokey ha
      subst he
      exact ⟨rfl,mergePayload_cases old.payload (spec.payload.getD (.object [])),by simp [Job.replaceWith,proposedJob]⟩
    · intro hn
      have he := hput.inserted_of_none hp hk hn
      subst he
      exact ⟨fun s hs => Nat.ne_of_lt (db.jobs.lt_next s hs),rfl,rfl⟩
    · intro old hold hokey ha
      obtain ⟨hmark,hs⟩ := hput.retired hp hk hold hokey ha
      exact ⟨hmark,_,hs,rfl,rfl,rfl,rfl,rfl⟩
    · exact fun s hs hsk => hput.others hp hs (.inr (by rwa [hk]))
  exact ⟨r,hrow,hadded,hadded.uniqueKeys hu⟩

def arraySpec (n : ℕ) : DbJobSpec := ⟨"task",some (.array [.number n]),some "queue",none,none,some "key",none,none⟩

theorem added_twice_under_key : ∃ db₁ job₁ db₂ job₂,
    addJobSql .empty (arraySpec 1) (some "replace") 0 = .ok (db₁,some job₁) ∧
    addJobSql db₁ (arraySpec 2) (some "preserve_run_at") 7 = .ok (db₂,some job₂) ∧
    AddedUnderKey db₁ (arraySpec 2) "key" .preserveRunAt 7 db₂ job₂ ∧ UniqueKeys db₂ := by
  have hfits : ∀ n, (arraySpec n).Fits := by
    intro n
    refine ⟨?_,?_,by simp [arraySpec],by simp [arraySpec],?_⟩
    · show "task".length ≤ 128
      decide
    · rintro q ⟨⟩
      decide
    · rintro k ⟨⟩
      decide
  have hroom : RevisionRoom .empty 2 := ⟨by decide,fun r hr => absurd hr List.not_mem_nil⟩
  obtain ⟨db₁,job₁,h₁,hroom₁⟩ := exists_addJobSql 0 (hfits 1) (.inr (.inl rfl)) hroom
  obtain ⟨db₂,job₂,h₂,-⟩ := exists_addJobSql 7 (hfits 2) (.inr (.inr rfl)) hroom₁
  obtain ⟨_,-,-,hu₁⟩ := add_job_under_key .empty (fun r hr => absurd hr List.not_mem_nil) (arraySpec 1) "key" rfl
    .replace (.inl rfl) 0 db₁ _ h₁
  obtain ⟨_,hrow,hadded,hu₂⟩ := add_job_under_key db₁ hu₁ (arraySpec 2) "key" rfl .preserveRunAt (.inr rfl) 7 db₂ _ h₂
  cases hrow
  exact ⟨db₁,job₁,db₂,job₂,h₁,h₂,hadded,hu₂⟩

end GraphileWorker.Database
