import GraphileWorker.Cron.Collision
import GraphileWorker.Cron.Grammar
import GraphileWorker.Database.KeyedAdd

/-! # Payloads of cron jobs

`for_cron` inserts `_cron` into an object only; a missing payload is serialized as JSON null,
which is not the SQL null that `add_jobs` replaces by an object.
-/
namespace GraphileWorker.Cron
open Database Foundation

def jsonField (key : String) : Json → Option Json
  | .object fields => (fields.find? fun f => f.1 == key).map Prod.snd
  | _ => none

structure CronPayload (own : Option Json) (ts : String) (backfilled : Bool) (payload : Json) : Prop where
  object : isObject payload = true
  cron : jsonField "_cron" payload = some (.object [("ts",.string ts),("backfilled",.bool backfilled)])
  others : ∀ key, key ≠ "_cron" → jsonField key payload = own.bind (jsonField key)

section
variable {key : String} {value : Json} {fields : List (String × Json)}

theorem jsonField_insertField : jsonField key (insertField key value (.object fields)) = some value := by
  have hn : (fields.filter fun f => f.1 != key).find? (fun f => f.1 == key) = none := by
    rw [List.find?_eq_none]
    intro f hf
    simpa using (List.mem_filter.mp hf).2
  simp [jsonField,insertField,List.find?_append,hn]

theorem jsonField_insertField_of_ne {other : String} (h : other ≠ key) :
    jsonField other (insertField key value (.object fields)) = jsonField other (.object fields) := by
  have hf : (fields.filter fun f => f.1 != key).find? (fun f => f.1 == other) =
      fields.find? fun f => f.1 == other := by
    rw [List.find?_filter]
    congr 1
    funext f
    by_cases he : f.1 = other
    · simp [he,h]
    · simp [he]
  have hk : (key == other) = false := by simpa using Ne.symm h
  simp [jsonField,insertField,List.find?_append,hf,hk]

end

theorem isObject_iff {payload : Json} : isObject payload = true ↔ ∃ fields, payload = .object fields := by
  cases payload <;> simp [isObject]

theorem isObject_insertField (key : String) (value payload : Json) :
    isObject (insertField key value payload) = isObject payload := by
  cases payload <;> rfl

theorem isObject_mergePayload (old new : Json) : isObject (mergePayload old new) = isObject new := by
  cases old <;> cases new <;> rfl

theorem mergePayload_of_isObject {new : Json} (h : isObject new = true) (old : Json) : mergePayload old new = new := by
  cases new with
  | object fields => cases old <;> rfl
  | _ => cases h

variable {db db₁ db₂ : Db} {spec : DbJobSpec} {now : Time} {mode : Option String} {r : Job}

theorem payload_of_addJobSql (hm : ReplacingMode mode) (h : addJobSql db spec mode now = .ok (db₁,some r)) :
    r.payload = spec.payload.getD (.object []) ∨
      ∃ old, r.payload = mergePayload old (spec.payload.getD (.object [])) := by
  obtain ⟨db₀,taskId,r',hr,-,-,-,hput⟩ := addJobSql_ok hm h
  cases hr
  cases hput with
  | inserted => exact .inl rfl
  | replaced old => exact .inr ⟨old.payload,rfl⟩

theorem isObject_of_addJobSql (hm : ReplacingMode mode) (h : addJobSql db spec mode now = .ok (db₁,some r)) :
    isObject r.payload = isObject (spec.payload.getD (.object [])) := by
  rcases payload_of_addJobSql hm h with hp | ⟨old,hp⟩
  · rw [hp]
  · rw [hp,isObject_mergePayload]

theorem payload_of_isObject (hm : ReplacingMode mode) (h : addJobSql db spec mode now = .ok (db₁,some r))
    (ho : isObject (spec.payload.getD (.object [])) = true) : r.payload = spec.payload.getD (.object []) := by
  rcases payload_of_addJobSql hm h with hp | ⟨old,hp⟩
  · exact hp
  · rw [hp,mergePayload_of_isObject ho]

theorem mem_of_addJobSql {row : Option Job} {s : Job} (hm : ReplacingMode mode)
    (h : addJobSql db spec mode now = .ok (db₁,row)) (hs : s ∈ db.jobs.rows)
    (hk : spec.jobKey = none ∨ s.key ≠ spec.jobKey) : s ∈ db₁.jobs.rows := by
  obtain ⟨db₀,taskId,r',-,hp,-,-,hput⟩ := addJobSql_ok hm h
  exact hput.others hp hs hk

/-- The call of `add_job` that a statement with these locked entries makes for one of its
jobs: the tables it finds and leaves, and the row it returns. -/
structure AddedFor (store : Store) (locked : List String) (now : Time) (store' : Store) (before : List CrontabJob)
    (job : CrontabJob) (after : List CrontabJob) (db₁ db₂ : Db) (r : Job) : Prop where
  earlier : ((before.filter fun j => locked.contains j.identifier).map CrontabJob.job).foldlM
    (CrontabJobInner.add now) store.db = .ok db₁
  row : addJobSql db₁ job.job.toDb (job.job.jobKeyMode.map CronKeyMode.toText) now = .ok (db₂,some r)
  later : ((after.filter fun j => locked.contains j.identifier).map CrontabJob.job).foldlM
    (CrontabJobInner.add now) db₂ = .ok store'.db

variable {store store' : Store} {call : Call} {locked : List String} {before after : List CrontabJob} {job : CrontabJob}

theorem add_ok {inner : CrontabJobInner} (h : CrontabJobInner.add now db inner = .ok db₁) :
    ∃ row, addJobSql db inner.toDb (inner.jobKeyMode.map CronKeyMode.toText) now = .ok (db₁,some row) := by
  obtain ⟨_,hadd⟩ := add_eq_ok h
  obtain ⟨_,_,r,rfl,-⟩ := addJobSql_ok (replacingMode_toText inner.jobKeyMode) hadd
  exact ⟨r,hadd⟩

theorem exists_addedFor (h : cronStatement store call.jobs call.ts now = .ok (store',locked))
    (hj : call.jobs = before ++ job :: after) (hl : job.identifier ∈ locked) :
    ∃ db₁ db₂ r, AddedFor store locked now store' before job after db₁ db₂ r := by
  have hfold := (cronStatement_ok h).2
  have hc : locked.contains job.identifier = true := by simpa using hl
  rw [hj,List.filter_append,List.filter_cons,if_pos hc,List.map_append,List.map_cons,List.foldlM_append] at hfold
  obtain ⟨db₁,hbefore,hfold⟩ := bind_eq_ok hfold
  obtain ⟨db₂,hadd,hafter⟩ := bind_eq_ok hfold
  obtain ⟨r,hr⟩ := add_ok hadd
  exact ⟨db₁,db₂,r,hbefore,hr,hafter⟩

theorem mem_of_addAll {inners : List CrontabJobInner} (h : inners.foldlM (CrontabJobInner.add now) db = .ok db₁)
    {s : Job} (hs : s ∈ db.jobs.rows) (hk : ∀ inner ∈ inners, inner.jobKey = none ∨ s.key ≠ inner.jobKey) :
    s ∈ db₁.jobs.rows := by
  induction inners generalizing db with
  | nil =>
    cases h
    exact hs
  | cons inner rest ih =>
    obtain ⟨db',hadd,hrest⟩ := bind_eq_ok h
    obtain ⟨row,hrow⟩ := add_ok hadd
    have hs' : s ∈ db'.jobs.rows :=
      mem_of_addJobSql (replacingMode_toText inner.jobKeyMode) hrow hs (hk inner (List.mem_cons_self ..))
    exact ih hrest hs' fun other ho => hk other (List.mem_cons_of_mem inner ho)

theorem AddedFor.mem_row (h : AddedFor store locked now store' before job after db₁ db₂ r) :
    r ∈ db₂.jobs.rows ∧ r.key = job.job.jobKey := by
  obtain ⟨db₀,taskId,r',hr,-,-,-,hput⟩ := addJobSql_ok (replacingMode_toText job.job.jobKeyMode) h.row
  cases hr
  exact ⟨hput.mem_iff.mpr (.inl rfl),hput.columns.1⟩

theorem AddedFor.mem_final (h : AddedFor store locked now store' before job after db₁ db₂ r)
    (hk : ∀ other ∈ after, other.job.jobKey = none ∨ other.job.jobKey ≠ job.job.jobKey) :
    r ∈ store'.db.jobs.rows := by
  obtain ⟨hmem,hkey⟩ := h.mem_row
  refine mem_of_addAll h.later hmem fun inner hm => ?_
  obtain ⟨other,ho,rfl⟩ := List.mem_map.mp hm
  rw [hkey]
  exact (hk other (List.mem_of_mem_filter ho)).imp_right Ne.symm

theorem payload_forCron (debugText : Instant → String) (entry : Crontab) (ts : Instant) (backfilled : Bool) :
    (CrontabJob.forCron debugText entry ts backfilled).job.toDb.payload.getD (.object []) =
      (entry.payload.map (insertField "_cron"
        (.object [("ts",.string (debugText ts)),("backfilled",.bool backfilled)]))).getD .null := rfl

/-- The row that `add_job` returns for a job of a statement is in the tables. Its payload is as it should be
exactly if the payload of the entry is an object. -/
theorem cron_payload_of_object (debugText : Instant → String) (entry : Crontab) (ts : Instant) (backfilled : Bool)
    (store store' : Store) (call : Call) (now : Time) (locked : List String) (before after : List CrontabJob)
    (hj : call.jobs = before ++ .forCron debugText entry ts backfilled :: after) (hl : entry.identifier ∈ locked)
    (h : cronStatement store call.jobs call.ts now = .ok (store',locked)) :
    ∃ db₁ db₂ r,
      AddedFor store locked now store' before (.forCron debugText entry ts backfilled) after db₁ db₂ r ∧
      r ∈ db₂.jobs.rows ∧
      ((∀ other ∈ after, other.job.jobKey = none ∨ other.job.jobKey ≠ entry.options.jobKey) →
        r ∈ store'.db.jobs.rows) ∧
      (CronPayload entry.payload (debugText ts) backfilled r.payload ↔
        ∃ fields, entry.payload = some (.object fields)) := by
  obtain ⟨db₁,db₂,r,hadded⟩ := exists_addedFor h hj hl
  have hm := replacingMode_toText (CrontabJob.forCron debugText entry ts backfilled).job.jobKeyMode
  refine ⟨db₁,db₂,r,hadded,hadded.mem_row.1,hadded.mem_final,fun hlaw => ?_,?_⟩
  · have hobj := hlaw.object
    rw [isObject_of_addJobSql hm hadded.row,payload_forCron] at hobj
    cases hp : entry.payload with
    | none =>
      rw [hp] at hobj
      cases hobj
    | some payload =>
      rw [hp,Option.map_some,Option.getD_some,isObject_insertField] at hobj
      obtain ⟨fields,rfl⟩ := isObject_iff.mp hobj
      exact ⟨fields,rfl⟩
  · rintro ⟨fields,hp⟩
    have hpayload : r.payload = insertField "_cron"
        (.object [("ts",.string (debugText ts)),("backfilled",.bool backfilled)]) (.object fields) := by
      have he := payload_forCron debugText entry ts backfilled
      rw [hp,Option.map_some,Option.getD_some] at he
      rw [← he]
      refine payload_of_isObject hm hadded.row ?_
      rw [he]
      rfl
    rw [hpayload,hp]
    exact ⟨rfl,jsonField_insertField,fun key hk => jsonField_insertField_of_ne hk⟩

def firstMinute : Instant → String := fun _ => "1970-01-01T00:01:00Z"

def callFor (entry : Crontab) : Call :=
  ⟨[.forCron firstMinute entry (60 * oneSecond) false],60 * oneSecond⟩

def entryWith (payload : Option Json) : Crontab := { bareEntry .any with payload := payload }

def objectEntry : Crontab := entryWith (some (.object [("a",.null)]))

theorem object_payload_scheduled : ∃ store' r,
    scheduleCronJobs ⟨.empty,[]⟩ (callFor objectEntry).jobs (60 * oneSecond) 0 = .ok store' ∧
    r ∈ store'.db.jobs.rows ∧
    CronPayload (some (.object [("a",.null)])) "1970-01-01T00:01:00Z" false r.payload := by
  obtain ⟨store',h⟩ : ∃ store', cronStatement ⟨.empty,[]⟩ (callFor objectEntry).jobs (60 * oneSecond) 0 =
    .ok (store',["t"]) := ⟨_,rfl⟩
  obtain ⟨_,_,r,-,-,hfinal,hlaw⟩ := cron_payload_of_object firstMinute objectEntry (60 * oneSecond) false ⟨.empty,[]⟩
    store' (callFor objectEntry) 0 ["t"] [] [] rfl (by decide +kernel) h
  exact ⟨store',r,map_eq_ok.mpr ⟨_,h,rfl⟩,hfinal nofun,hlaw.mpr ⟨_,rfl⟩⟩

theorem missing_payload_is_null : parseCrontab noReaders "* * * * * t".toList = .ok [entryWith none] ∧
    ∃ store' r, scheduleCronJobs ⟨.empty,[]⟩ (callFor (entryWith none)).jobs (60 * oneSecond) 0 = .ok store' ∧
      store'.db.jobs.rows = [r] ∧ r.payload = .null ∧ ¬CronPayload none "1970-01-01T00:01:00Z" false r.payload := by
  refine ⟨rfl,_,_,rfl,rfl,rfl,fun hlaw => ?_⟩
  cases hlaw.object

end GraphileWorker.Cron
