import GraphileWorker.Cron.Collision
import GraphileWorker.Cron.Grammar

/-! # Options and columns

The columns are narrower than what the parser takes. Texts and casts are read for every entry
of the statement, the checks are made for the entries that it locks.
-/
namespace GraphileWorker.Cron
open Database Foundation Foundation.Parsing

/-- `max` is read as a `u16` and `priority` as an `i16`. -/
structure Readers.Typed (readers : Readers) : Prop where
  max : ∀ qs query, readers.serdeQs qs = some query → ∀ m ∈ query.max, m ≤ 65535
  priority : ∀ qs query, readers.serdeQs qs = some query → ∀ p ∈ query.priority, -32768 ≤ p ∧ p ≤ 32767

def nul : Char := Char.ofNat 0

/-- The texts that the statement takes out of its argument with `->>`. -/
def CrontabJob.texts (job : CrontabJob) : List String :=
  job.identifier :: job.job.task :: (job.job.queueName.toList ++ job.job.jobKey.toList)

inductive CronSqlError
  /-- `unsupported Unicode escape sequence`: a text holds no NUL. -/
  | nulCharacter
  | sql (error : SqlError)
  deriving DecidableEq

/-- `schedule_cron_jobs` with the reading of its argument. -/
def sendCronJobs (store : Store) (jobs : List CrontabJob) (lastExecution : Instant) (now : Time) :
    Except CronSqlError Store :=
  if jobs.any fun job => job.texts.any fun text => text.toList.contains nul then .error .nulCharacter
  else (scheduleCronJobs store jobs lastExecution now).mapError .sql

def CrontabJob.Reads (job : CrontabJob) : Prop :=
  job.casts = .ok () ∧ ∀ text ∈ job.texts, nul ∉ text.toList

structure Crontab.Castable (c : Crontab) : Prop where
  maxAttempts : ∀ m ∈ c.options.max, m ≤ 32767
  texts : ∀ text ∈ c.options.id.toList ++ (c.options.queue.toList ++ c.options.jobKey.toList), nul ∉ text.toList

/-- The values of an entry that its type does not keep within the columns. -/
structure Crontab.Bounded (c : Crontab) : Prop extends c.Castable where
  taskIdentifier : c.taskIdentifier.length ≤ 128
  queue : ∀ q ∈ c.options.queue, q.length ≤ 128
  max : ∀ m ∈ c.options.max, 1 ≤ m
  jobKey : ∀ k ∈ c.options.jobKey, 0 < k.length ∧ k.length ≤ 512

/-- No two entries that a statement takes share this identifier. -/
def AloneIn (takes : Crontab → Bool) (crontabs : List Crontab) (i : String) : Prop :=
  crontabs.Pairwise fun c d => takes c = true → takes d = true → c.identifier = d.identifier → c.identifier ≠ i

variable {readers : Readers} {text : List Char} {entries : List Crontab} {c : Crontab} {ts : Instant}

theorem OptionsText.priority_fits (ht : readers.Typed) {query : Option (List Char)} {options : CrontabOptions}
    (h : OptionsText readers query options) : ∀ p ∈ options.priority, -32768 ≤ p ∧ p ≤ 32767 := by
  cases h with
  | absent => simp
  | present hq hf => exact ht.priority _ _ hq

theorem IsTaskIdentifier.nul_not_mem {task : List Char} (h : IsTaskIdentifier task) : nul ∉ task := by
  obtain ⟨first,others,rfl,hfirst,hothers⟩ := h
  have hletter : ¬isLetter nul := by
    unfold isLetter
    decide
  intro hm
  rcases List.mem_cons.mp hm with rfl | hm
  · rcases hfirst with he | hl
    · exact absurd he (by decide)
    · exact hletter hl
  · rcases hothers nul hm with he | hl | hd | hp
    · exact absurd he (by decide)
    · exact hletter hl
    · exact absurd hd (by decide)
    · exact absurd hp (by decide)

structure Crontab.Parsed (c : Crontab) : Prop where
  priority : ∀ p ∈ c.options.priority, -32768 ≤ p ∧ p ≤ 32767
  task : nul ∉ c.taskIdentifier.toList

theorem parsed_of_mem (ht : readers.Typed) (h : parseCrontab readers text = .ok entries) (hc : c ∈ entries) :
    c.Parsed := by
  obtain ⟨line,-,parts,hread⟩ := exists_readAs h hc
  refine ⟨hread.options.priority_fits ht,?_⟩
  rw [hread.task,String.toList_ofList]
  exact hread.identifier.nul_not_mem

theorem bounded_iff (hp : c.Parsed) : c.Bounded ↔ c.Castable ∧ c.Fits := by
  constructor
  · intro h
    exact ⟨h.toCastable,h.taskIdentifier,h.queue,fun m hm => ⟨h.max m hm,h.maxAttempts m hm⟩,hp.priority,h.jobKey⟩
  · rintro ⟨hc,hf⟩
    exact ⟨hc,hf.taskIdentifier,hf.queue,fun m hm => (hf.max m hm).1,hf.jobKey⟩

theorem toSmallintOpt_error {o : Option ℤ} (h : ¬∀ m ∈ o, -32768 ≤ m ∧ m ≤ 32767) :
    toSmallintOpt o = .error .smallintOutOfRange := by
  cases o with
  | none => simp at h
  | some m =>
    have hm : ¬(-32768 ≤ m ∧ m ≤ 32767) := fun hm => h (by simpa using hm)
    rw [toSmallintOpt,toSmallint,if_neg hm]
    rfl

def CrontabJob.Small (job : CrontabJob) : Prop :=
  (∀ m ∈ job.job.toDb.maxAttempts, -32768 ≤ m ∧ m ≤ 32767) ∧ ∀ p ∈ job.job.toDb.priority, -32768 ≤ p ∧ p ≤ 32767

theorem casts_cases (job : CrontabJob) : (job.Small ∧ job.casts = .ok ()) ∨
    (¬job.Small ∧ job.casts = .error .smallintOutOfRange) := by
  unfold CrontabJob.casts CrontabJob.Small
  by_cases hm : ∀ m ∈ job.job.toDb.maxAttempts, -32768 ≤ m ∧ m ≤ 32767
  · by_cases hp : ∀ p ∈ job.job.toDb.priority, -32768 ≤ p ∧ p ≤ 32767
    · exact .inl ⟨⟨hm,hp⟩,(bind_of_ok (toSmallintOpt_ok hm) _).trans (bind_of_ok (toSmallintOpt_ok hp) _)⟩
    · refine .inr ⟨fun h => hp h.2,?_⟩
      rw [bind_of_ok (toSmallintOpt_ok hm),toSmallintOpt_error hp]
      rfl
  · refine .inr ⟨fun h => hm h.1,?_⟩
    rw [toSmallintOpt_error hm]
    rfl

theorem casts_ok_iff {job : CrontabJob} : job.casts = .ok () ↔ job.Small := by
  rcases casts_cases job with ⟨hs,hc⟩ | ⟨hs,hc⟩
  · exact iff_of_true hc hs
  · exact iff_of_false (by simp [hc]) hs

theorem casts_error {job : CrontabJob} {e : SqlError} (h : job.casts = .error e) : e = .smallintOutOfRange := by
  rcases casts_cases job with ⟨-,hc⟩ | ⟨-,hc⟩
  · rw [hc] at h
    cases h
  · rw [hc] at h
    exact (Except.error.inj h).symm

section
variable (debugText : Instant → String) (ts : Instant) (backfilled : Bool)

theorem small_forCron (hp : c.Parsed) : (CrontabJob.forCron debugText c ts backfilled).Small ↔
    ∀ m ∈ c.options.max, m ≤ 32767 := by
  have hmax : (∀ m ∈ c.options.max.map Int.ofNat, -32768 ≤ m ∧ m ≤ 32767) ↔ ∀ m ∈ c.options.max, m ≤ 32767 := by
    cases c.options.max with
    | none => simp
    | some m =>
      simp only [Option.map_some,Option.mem_def,Option.some.injEq,forall_eq',Int.ofNat_eq_natCast]
      omega
  exact (and_iff_left hp.priority).trans hmax

theorem reads_forCron (hp : c.Parsed) : (CrontabJob.forCron debugText c ts backfilled).Reads ↔ c.Castable := by
  have htexts : (CrontabJob.forCron debugText c ts backfilled).texts =
      c.identifier :: c.taskIdentifier :: (c.options.queue.toList ++ c.options.jobKey.toList) := rfl
  have hid : nul ∉ c.identifier.toList ↔ ∀ i ∈ c.options.id.toList, nul ∉ i.toList := by
    unfold Crontab.identifier
    cases c.options.id with
    | none => simpa using hp.task
    | some i => simp
  rw [CrontabJob.Reads,casts_ok_iff,small_forCron debugText ts backfilled hp,htexts,List.forall_mem_cons,
    List.forall_mem_cons,hid]
  constructor
  · rintro ⟨hmax,hi,-,hrest⟩
    exact ⟨hmax,List.forall_mem_append.mpr ⟨hi,hrest⟩⟩
  · intro h
    obtain ⟨hi,hrest⟩ := List.forall_mem_append.mp h.texts
    exact ⟨h.maxAttempts,hi,hp.task,hrest⟩

end

theorem forM_error {ε α : Type} {f : α → Except ε Unit} {l : List α} {e : ε} (h : ¬∀ a ∈ l, f a = .ok ())
    (he : ∀ a e', f a = .error e' → e' = e) : l.forM f = .error e := by
  induction l with
  | nil => simp at h
  | cons a rest ih =>
    show (f a >>= fun _ => rest.forM f) = .error e
    cases ha : f a with
    | error e' =>
      rw [he a e' ha]
      rfl
    | ok u => exact ih fun hr => h (List.forall_mem_cons.mpr ⟨ha,hr⟩)

section
variable {jobs : List CrontabJob} {store : Store} {now : Time}

theorem sendCronJobs_of_reads (h : ∀ job ∈ jobs, job.Reads) :
    sendCronJobs store jobs ts now = (scheduleCronJobs store jobs ts now).mapError .sql := by
  rw [sendCronJobs,if_neg]
  simp only [List.any_eq_true,List.contains_iff_mem,not_exists,not_and]
  exact fun job hj text hm => (h job hj).2 text hm

/-- A job that cannot be read makes the statement fail on all tables. -/
theorem sendCronJobs_of_not_reads (h : ¬∀ job ∈ jobs, job.Reads) (store : Store) (ts : Instant) (now : Time) :
    sendCronJobs store jobs ts now = .error .nulCharacter ∨
      sendCronJobs store jobs ts now = .error (.sql .smallintOutOfRange) := by
  unfold sendCronJobs
  by_cases hn : (jobs.any fun job => job.texts.any fun text => text.toList.contains nul) = true
  · exact .inl (if_pos hn)
  · refine .inr ?_
    have hcasts : ¬∀ job ∈ jobs, job.casts = .ok () := by
      intro hc
      simp only [List.any_eq_true,List.contains_iff_mem,not_exists,not_and] at hn
      exact h fun job hj => ⟨hc job hj,fun text hm => hn job hj text hm⟩
    rw [if_neg hn,scheduleCronJobs,cronStatement,forM_error hcasts fun _ _ => casts_error]
    rfl

/-- The table of known entries in which these have been executed for the minute. -/
def executedFor (ts : Instant) (ids : List String) : List KnownCrontab := ids.map fun i => ⟨i,ts,some ts⟩

theorem lastExecution_executedFor {ids : List String} {i : String} :
    lastExecution (executedFor ts ids) i = if i ∈ ids then (ts : WithBot Instant) else ⊥ := by
  have hfind : ((executedFor ts ids).find? fun k => k.identifier == i) =
      (ids.find? fun j => j == i).map fun i => ⟨i,ts,some ts⟩ := List.find?_map ..
  rw [lastExecution,executedAt,hfind]
  cases hf : ids.find? fun j => j == i with
  | none =>
    have hn : i ∉ ids := fun hi => by simpa using List.find?_eq_none.mp hf i hi
    rw [if_neg hn]
    rfl
  | some j =>
    obtain rfl : j = i := by simpa using List.find?_some hf
    rw [if_pos (List.mem_of_find?_eq_some hf)]
    rfl

theorem filter_eq_singleton {job : CrontabJob} (hj : job ∈ jobs)
    (h : (jobs.map CrontabJob.identifier).Pairwise fun i j => i = j → i ≠ job.identifier) :
    jobs.filter (fun other => other.identifier == job.identifier) = [job] := by
  rw [List.pairwise_map] at h
  have hpair : (jobs.filter fun other => other.identifier == job.identifier).Pairwise fun _ _ => False := by
    refine List.pairwise_filter.mpr (h.imp fun {a b} hab ha hb => ?_)
    rw [beq_iff_eq] at ha hb
    exact hab (ha.trans hb.symm) ha
  have hmem : job ∈ jobs.filter fun other => other.identifier == job.identifier :=
    List.mem_filter.mpr ⟨hj,beq_self_eq_true _⟩
  cases hf : jobs.filter fun other => other.identifier == job.identifier with
  | nil =>
    rw [hf] at hmem
    cases hmem
  | cons a rest =>
    rw [hf] at hpair hmem
    cases rest with
    | nil => rw [List.mem_singleton.mp hmem]
    | cons b _ => exact ((List.pairwise_cons.mp hpair).1 b (by simp)).elim

/-- With the other entries executed and no jobs in the tables, the statement adds this job alone. -/
theorem scheduleCronJobs_alone {job : CrontabJob} (hcasts : ∀ job ∈ jobs, job.casts = .ok ()) (hj : job ∈ jobs)
    (h : (jobs.map CrontabJob.identifier).Pairwise fun i j => i = j → i ≠ job.identifier) (db : Db) (ts : Instant)
    (now : Time) {e : SqlError} (he : CrontabJobInner.add now db job.job = .error e) :
    scheduleCronJobs ⟨db,executedFor ts ((jobs.map CrontabJob.identifier).filter fun i => i != job.identifier)⟩ jobs ts
      now = .error e := by
  have hlast : ∀ i ∈ jobs.map CrontabJob.identifier, lastExecution (executedFor ts
      ((jobs.map CrontabJob.identifier).filter fun i => i != job.identifier)) i =
        if i = job.identifier then ⊥ else (ts : WithBot Instant) := by
    intro i hi
    rw [lastExecution_executedFor]
    by_cases hij : i = job.identifier
    · simp [hij]
    · rw [if_pos (List.mem_filter.mpr ⟨hi,by simpa using hij⟩),if_neg hij]
  obtain ⟨⟨known,locked⟩,hp⟩ := lockAll_ok_iff.mpr ⟨fun i _ => List.not_mem_nil,
    h.imp_of_mem fun {i j} hi _ hij heq => by
      rw [hlast i hi,if_neg (hij heq)]⟩
  have hlocked : ∀ other ∈ jobs, locked.contains other.identifier = (other.identifier == job.identifier) := by
    intro other ho
    have hmem := List.mem_map_of_mem (f := CrontabJob.identifier) ho
    rw [Bool.eq_iff_iff,List.contains_iff_mem,beq_iff_eq,mem_locked_iff hp,hlast _ hmem,and_iff_right hmem]
    by_cases hij : other.identifier = job.identifier
    · simp [hij,WithBot.bot_lt_coe]
    · simp [hij]
  unfold scheduleCronJobs cronStatement
  rw [bind_of_ok (forM_ok hcasts),bind_of_ok hp]
  simp only [List.filter_congr hlocked,filter_eq_singleton hj h,List.map_singleton,List.foldlM_cons,he]
  rfl

end

theorem aloneIn_iff {takes : Crontab → Bool} {crontabs : List Crontab} {i : String} : AloneIn takes crontabs i ↔
    ((crontabs.filter takes).map Crontab.identifier).Pairwise fun j k => j = k → j ≠ i :=
  (pairwise_taken (R := fun j k => j = k → j ≠ i)).symm

theorem add_empty_of_not_fits (debugText : Instant → String) (ts : Instant) (backfilled : Bool) (now : Time)
    (hp : c.Parsed) (hc : c.Castable) (h : ¬c.Fits) : ∃ constraint,
      CrontabJobInner.add now .empty (CrontabJob.forCron debugText c ts backfilled).job =
        .error (.checkViolation constraint) := by
  have hmode := replacingMode_toText (CrontabJob.forCron debugText c ts backfilled).job.jobKeyMode
  obtain ⟨hm,hq⟩ := (small_forCron debugText ts backfilled hp).mpr hc.maxAttempts
  have hbad : ¬(c.taskIdentifier.length ≤ 128 ∧ (∀ q ∈ c.options.queue, q.length ≤ 128) ∧
      (∀ m ∈ c.options.max.map Int.ofNat, 1 ≤ m) ∧ ∀ k ∈ c.options.jobKey, 0 < k.length ∧ k.length ≤ 512) := by
    rintro ⟨hid,hqueue,hmax,hkey⟩
    refine h ⟨hid,hqueue,fun m hm => ⟨?_,hc.maxAttempts m hm⟩,hp.priority,hkey⟩
    exact Int.ofNat_le.mp (hmax m (Option.mem_map_of_mem Int.ofNat hm))
  obtain ⟨constraint,herr⟩ := addJobsSql_of_not_fits .empty
    (CrontabJob.forCron debugText c ts backfilled).job.toDb now rfl (fun _ _ => rfl) hbad
    ((CrontabJob.forCron debugText c ts backfilled).job.jobKeyMode.map CronKeyMode.toText == some "preserve_run_at")
  refine ⟨constraint,?_⟩
  unfold CrontabJobInner.add addJobSql
  rw [if_pos hmode.replaces,bind_of_ok (toSmallintOpt_ok hm),bind_of_ok (toSmallintOpt_ok hq),herr]
  rfl

/-- All values of a statement can be read, cast and checked exactly if the entries that it takes are bounded;
and on all tables it fails only for a shared identifier or a full revision exactly if each entry that
it takes can be read and is bounded unless another one shares its identifier. -/
theorem bounded_entries_never_fail (readers : Readers) (ht : readers.Typed) (text : List Char) (entries : List Crontab)
    (h : parseCrontab readers text = .ok entries) (debugText : Instant → String) (z : Zone) (useLocalTime : Bool)
    (ts : Instant) (sending : Sending) :
    let takes := sending.takes z useLocalTime ts
    let call := sending.call debugText z ⟨entries,useLocalTime⟩ ts
    ((∀ job ∈ call.jobs, job.Reads ∧ job.job.toDb.Fits ∧
        ReplacingMode (job.job.jobKeyMode.map CronKeyMode.toText)) ↔
      ∀ c ∈ entries, takes c = true → c.Bounded) ∧
    ((∀ store now e, sendCronJobs store call.jobs call.ts now = .error e →
        (e = .sql .cardinalityViolation ∧ ¬(call.jobs.map CrontabJob.identifier).Nodup) ∨
          (e = .sql .integerOutOfRange ∧ ¬RevisionRoom store.db call.jobs.length)) ↔
      ∀ c ∈ entries, takes c = true → c.Castable ∧ (AloneIn takes entries c.identifier → c.Bounded)) := by
  intro takes call
  have hcall : call = ⟨(entries.filter takes).map fun c => .forCron debugText c ts sending.isBackfill,ts⟩ :=
    Sending.call_eq ..
  have hids : call.jobs.map CrontabJob.identifier = (entries.filter takes).map Crontab.identifier :=
    Sending.identifiers_call debugText z ⟨entries,useLocalTime⟩ ts sending
  have hts : call.ts = ts := by rw [hcall]
  have hparsed : ∀ c ∈ entries, c.Parsed := fun c hc => parsed_of_mem ht h hc
  have hforall : ∀ P : CrontabJob → Prop, (∀ job ∈ call.jobs, P job) ↔
      ∀ c ∈ entries, takes c = true → P (.forCron debugText c ts sending.isBackfill) := by
    intro P
    rw [hcall]
    simp only [List.forall_mem_map,List.mem_filter,and_imp]
  refine ⟨?_,?_⟩
  · rw [hforall]
    refine forall₂_congr fun c hc => imp_congr_right fun _ => ?_
    rw [bounded_iff (hparsed c hc),reads_forCron _ _ _ (hparsed c hc),fits_toDb]
    exact and_congr_right' (and_iff_left (replacingMode_toText _))
  · constructor
    · intro hnever
      have hreads : ∀ job ∈ call.jobs, job.Reads := by
        by_contra hn
        rcases sendCronJobs_of_not_reads hn ⟨.empty,[]⟩ call.ts 0 with he | he
        · rcases hnever _ _ _ he with ⟨heq,-⟩ | ⟨heq,-⟩ <;> cases heq
        · rcases hnever _ _ _ he with ⟨heq,-⟩ | ⟨heq,-⟩ <;> cases heq
      intro c hc htake
      have hcast : c.Castable := (reads_forCron debugText ts sending.isBackfill (hparsed c hc)).mp
        ((hforall _).mp hreads c hc htake)
      refine ⟨hcast,fun halone => (bounded_iff (hparsed c hc)).mpr ⟨hcast,?_⟩⟩
      by_contra hfits
      -- on tables where every other entry has been executed, only this one is added
      obtain ⟨constraint,hadd⟩ := add_empty_of_not_fits debugText ts sending.isBackfill 0 (hparsed c hc) hcast hfits
      have hmem : CrontabJob.forCron debugText c ts sending.isBackfill ∈ call.jobs := by
        rw [hcall]
        exact List.mem_map_of_mem (f := fun c => CrontabJob.forCron debugText c ts sending.isBackfill)
          (List.mem_filter.mpr ⟨hc,htake⟩)
      have herr := scheduleCronJobs_alone (fun job hj => (hreads job hj).1) hmem
        (hids ▸ aloneIn_iff.mp halone) .empty call.ts 0 hadd
      rcases hnever _ 0 _ (by rw [sendCronJobs_of_reads hreads,herr]; rfl) with ⟨heq,-⟩ | ⟨heq,-⟩ <;> cases heq
    · intro hcond store now e he
      have hreads : ∀ job ∈ call.jobs, job.Reads :=
        (hforall _).mpr fun c hc htake => (reads_forCron _ _ _ (hparsed c hc)).mpr (hcond c hc htake).1
      have hfits : ∀ job ∈ call.jobs, ((call.jobs.map CrontabJob.identifier).Pairwise fun i j => i = j →
          i ≠ job.identifier) → job.job.toDb.Fits := by
        refine (hforall _).mpr fun c hc htake halone => fits_toDb _ |>.mpr ?_
        rw [hids] at halone
        exact ((bounded_iff (hparsed c hc)).mp ((hcond c hc htake).2 (aloneIn_iff.mpr halone))).2
      rw [sendCronJobs_of_reads hreads] at he
      rcases scheduleCronJobs_cases (fun job hj => (hreads job hj).1) hfits store call.ts now with
        ⟨herr,hp⟩ | ⟨-,⟨store',hok⟩ | ⟨herr,hfull⟩⟩
      · rw [herr] at he
        cases he
        refine .inl ⟨rfl,fun hd => hp (lockAll_ok_iff.mpr ⟨fun _ _ => List.not_mem_nil,?_⟩)⟩
        exact hd.imp fun hne heq => absurd heq hne
      · rw [hok] at he
        cases he
      · rw [herr] at he
        cases he
        exact .inr ⟨rfl,hfull⟩

def noOptions : QueryOption := ⟨none,none,none,none,none,none,none⟩

def readMax (qs : List Char) : Option QueryOption :=
  match qs with
  | 'm' :: 'a' :: 'x' :: '=' :: value =>
    match u32 value with
    | .ok ([],n) => if n ≤ 65535 then some { noOptions with max := some n } else none
    | _ => none
  | _ => none

def maxReader : Readers := ⟨fun _ => none,readMax⟩

theorem maxReader_typed : maxReader.Typed := by
  have hread : ∀ qs query, readMax qs = some query → (∀ m ∈ query.max, m ≤ 65535) ∧ query.priority = none := by
    intro qs query h
    unfold readMax at h
    split at h
    · split at h
      · split at h
        · next hn =>
          cases h
          exact ⟨by simpa using hn,rfl⟩
        · cases h
      · cases h
    · cases h
  refine ⟨fun qs query h => (hread qs query h).1,fun qs query h p hp => ?_⟩
  rw [(hread qs query h).2] at hp
  cases hp

def besideB (max : List Char) : List Char :=
  everyMinute (['t',' ','?','m','a','x','='] ++ max) ++ everyMinute ['b']

def firstSent (entries : List Crontab) : Except CronSqlError Store :=
  sendCronJobs ⟨.empty,[]⟩ (tickCall (fun _ => "") (.fixed 0) ⟨entries,false⟩ (60 * oneSecond)).jobs (60 * oneSecond) 0

def firstError (text : List Char) : Option (ℕ × Option CronSqlError) :=
  (parseCrontab maxReader text).toOption.map fun entries => (entries.length,
    match firstSent entries with
    | .ok _ => none
    | .error e => some e)

def threeAndB : List Crontab := [{ taskIdentifier := "t", options := { max := some 3 } },{ taskIdentifier := "b" }]

theorem max_three_scheduled : parseCrontab maxReader (besideB ['3']) = .ok threeAndB ∧
    ∃ store', firstSent threeAndB = .ok store' := by
  have hparse : parseCrontab maxReader (besideB ['3']) = .ok threeAndB := rfl
  have hb : ∀ c ∈ threeAndB, c.Bounded := by
    intro c hm
    simp only [threeAndB,List.mem_cons,List.not_mem_nil,or_false] at hm
    rcases hm with rfl | rfl
    · exact ⟨⟨by simp,by simp⟩,by decide,by simp,by simp,by simp⟩
    · exact ⟨⟨by simp,by simp⟩,by decide,by simp,by simp,by simp⟩
  have herr := (bounded_entries_never_fail maxReader maxReader_typed _ _ hparse (fun _ => "") (.fixed 0) false
    (60 * oneSecond) .live).2.mpr (fun c hc _ => ⟨(hb c hc).toCastable,fun _ => hb c hc⟩) ⟨.empty,[]⟩ 0
  refine ⟨hparse,?_⟩
  cases hsend : firstSent threeAndB with
  | ok store' => exact ⟨store',rfl⟩
  | error e =>
    rcases herr e hsend with ⟨-,hn⟩ | ⟨-,hn⟩
    · exact absurd (by decide +kernel) hn
    · refine absurd ⟨by decide +kernel,fun r hr => ?_⟩ hn
      exact absurd hr List.not_mem_nil

/-- A `max` of zero and one above `smallint` are accepted; each makes the statement fail, and `b` with it. -/
theorem unbounded_max_rejected :
    firstError (besideB ['0']) = some (2,some (.sql (.checkViolation "jobs_max_attempts_check"))) ∧
    firstError (besideB ['4','0','0','0','0']) = some (2,some (.sql .smallintOutOfRange)) ∧
    firstError (everyMinute ['b']) = some (1,none) := by
  decide +kernel

end GraphileWorker.Cron
