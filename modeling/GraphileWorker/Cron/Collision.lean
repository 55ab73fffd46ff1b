import GraphileWorker.Cron.Once
import GraphileWorker.Cron.Parser
import GraphileWorker.Database.AddJobOk

/-! # Entries with one identifier

Where two entries for one task without an `id` are due in one minute, the upsert meets one
row twice and the database rejects the statement with all its entries.
-/
namespace GraphileWorker.Cron
open Database Foundation Foundation.Parsing

structure WorkerOptions where
  crontabs : Option (List Crontab) := none

def WorkerOptions.config (options : WorkerOptions) (useLocalTime : Bool) : Config :=
  ⟨options.crontabs.getD [],useLocalTime⟩

/-- What a statement is sent for: a tick of the live loop, or the backfill of a runner that
started then and read this table of known entries. -/
inductive Sending
  | live
  | backfill (start : Instant) (known : List KnownCrontab)

def Sending.call (debugText : Instant → String) (z : Zone) (cfg : Config) (ts : Instant) : Sending → Call
  | .live => tickCall debugText z cfg ts
  | .backfill start known =>
    backfillCall debugText z cfg start (getBackfillAndUnknownItems cfg.crontabs known).1 ts

def Sending.isBackfill : Sending → Bool
  | .live => false
  | .backfill _ _ => true

/-- Whether an entry runs at the minute and, for a backfill, is known and has the minute in its window. -/
def Sending.takes (z : Zone) (useLocalTime : Bool) (ts : Instant) (sending : Sending) (c : Crontab) : Bool :=
  c.shouldRunAt (calendarTime z useLocalTime ts) &&
    match sending with
    | .live => true
    | .backfill start known => (known.find? fun k => k.identifier == c.identifier).any fun k =>
      c.options.fill.any fun fill => withinFill start fill (k.lastExecution.getD k.knownSince) ts

structure Crontab.Fits (c : Crontab) : Prop where
  taskIdentifier : c.taskIdentifier.length ≤ 128
  queue : ∀ q ∈ c.options.queue, q.length ≤ 128
  max : ∀ m ∈ c.options.max, 1 ≤ m ∧ m ≤ 32767
  priority : ∀ p ∈ c.options.priority, -32768 ≤ p ∧ p ≤ 32767
  jobKey : ∀ k ∈ c.options.jobKey, 0 < k.length ∧ k.length ≤ 512

variable {debugText : Instant → String} {z : Zone} {cfg : Config} {ts : Instant} {sending : Sending}

theorem toBackfill_items (z : Zone) (cfg : Config) (start : Instant) (known : List KnownCrontab) (ts : Instant) :
    toBackfill z cfg start (getBackfillAndUnknownItems cfg.crontabs known).1 ts =
      cfg.crontabs.filter ((Sending.backfill start known).takes z cfg.useLocalTime ts) := by
  simp only [toBackfill,getBackfillAndUnknownItems,List.filterMap_filterMap]
  rw [← List.filterMap_eq_filter]
  congr 1
  funext c
  simp only [Option.guard,Sending.takes]
  rcases Option.eq_none_or_eq_some (known.find? fun k => k.identifier == c.identifier) with hk | ⟨k,hk⟩
  · simp [hk]
  · rcases Option.eq_none_or_eq_some c.options.fill with hf | ⟨fill,hf⟩
    · simp [hk,hf]
    · simp [hk,hf,and_comm]

theorem Sending.call_eq (debugText : Instant → String) (z : Zone) (cfg : Config) (ts : Instant) (sending : Sending) :
    sending.call debugText z cfg ts = ⟨(cfg.crontabs.filter (sending.takes z cfg.useLocalTime ts)).map fun c =>
      .forCron debugText c ts sending.isBackfill,ts⟩ := by
  cases sending with
  | live =>
    have ht : Sending.live.takes z cfg.useLocalTime ts =
        fun c => c.shouldRunAt (calendarTime z cfg.useLocalTime ts) := by
      funext c
      exact Bool.and_true _
    rw [ht]
    rfl
  | backfill start known =>
    rw [← toBackfill_items]
    rfl

theorem Sending.identifiers_call (debugText : Instant → String) (z : Zone) (cfg : Config) (ts : Instant)
    (sending : Sending) : (sending.call debugText z cfg ts).jobs.map CrontabJob.identifier =
      (cfg.crontabs.filter (sending.takes z cfg.useLocalTime ts)).map Crontab.identifier := by
  rw [Sending.call_eq,identifiers_forCron]

theorem pairwise_taken {R : String → String → Prop} {crontabs : List Crontab} {takes : Crontab → Bool} :
    ((crontabs.filter takes).map Crontab.identifier).Pairwise R ↔ crontabs.Pairwise fun c d =>
      takes c = true → takes d = true → R c.identifier d.identifier := by
  rw [List.pairwise_map,List.pairwise_filter]

section
variable {known : List KnownCrontab} {locked ids : List String} {i : String}

theorem lockCrontab_cases (ts : Instant) (known : List KnownCrontab) (locked : List String) (i : String) :
    (i ∈ locked ∧ lockCrontab ts (known,locked) i = .error .cardinalityViolation) ∨
      ∃ p, lockCrontab ts (known,locked) i = .ok p := by
  unfold lockCrontab
  by_cases hi : i ∈ locked
  · exact .inl ⟨hi,if_pos (List.contains_iff_mem.mpr hi)⟩
  · rw [if_neg (by simpa using hi)]
    split
    · exact .inr ⟨_,rfl⟩
    · split
      · exact .inr ⟨_,rfl⟩
      · exact .inr ⟨_,rfl⟩

theorem lockAll_error {e : SqlError} {s : List KnownCrontab × List String}
    (h : ids.foldlM (lockCrontab ts) s = .error e) : e = .cardinalityViolation := by
  induction ids generalizing s with
  | nil => cases h
  | cons i rest ih =>
    rw [List.foldlM_cons] at h
    rcases lockCrontab_cases ts s.1 s.2 i with ⟨-,he⟩ | ⟨p,hp⟩
    · rw [he] at h
      cases h
      rfl
    · rw [bind_of_ok hp] at h
      exact ih h

/-- The upsert meets a row twice exactly if an identifier that it can still lock is listed twice. -/
theorem lockAll_ok_iff : (∃ p, ids.foldlM (lockCrontab ts) (known,locked) = .ok p) ↔
    (∀ i ∈ ids, i ∉ locked) ∧ ids.Pairwise fun i j => i = j → (ts : WithBot Instant) ≤ lastExecution known i := by
  induction ids generalizing known locked with
  | nil => exact ⟨fun _ => ⟨by simp,.nil⟩,fun _ => ⟨_,rfl⟩⟩
  | cons i rest ih =>
    rw [List.forall_mem_cons,List.pairwise_cons,List.foldlM_cons]
    rcases lockCrontab_cases ts known locked i with ⟨hi,he⟩ | ⟨⟨known',locked'⟩,hp⟩
    · rw [he]
      simp [hi,bind,Except.bind]
    · rw [bind_of_ok hp,ih]
      rcases lockCrontab_ok hp with ⟨he,hi,hge⟩ | ⟨hl,hi,hlt,hlast⟩
      · cases he
        exact ⟨fun h => ⟨⟨hi,h.1⟩,fun j _ _ => hge,h.2⟩,fun h => ⟨h.1.2,h.2.2⟩⟩
      · -- the rest must not list `i` again, and its other identifiers keep their last execution
        have hlocked : (∀ j ∈ rest, j ∉ locked') ↔ (∀ j ∈ rest, j ∉ locked) ∧ i ∉ rest := by
          rw [show locked' = locked ++ [i] from hl]
          constructor
          · exact fun h => ⟨fun j hj hm => h j hj (by simp [hm]),fun hj => h i hj (by simp)⟩
          · rintro ⟨hold,hn⟩ j hj hm
            rcases List.mem_append.mp hm with hm | hm
            · exact hold j hj hm
            · exact hn (List.mem_singleton.mp hm ▸ hj)
        have hpair : i ∉ rest → (rest.Pairwise (fun j k => j = k → (ts : WithBot Instant) ≤ lastExecution known' j) ↔
            rest.Pairwise fun j k => j = k → (ts : WithBot Instant) ≤ lastExecution known j) := by
          intro hn
          refine List.Pairwise.iff_of_mem fun {j k} hj _ => ?_
          have hne : j ≠ i := fun he => hn (he ▸ hj)
          rw [show lastExecution known' j = _ from hlast j,if_neg hne]
        have hhead : (∀ j ∈ rest, i = j → (ts : WithBot Instant) ≤ lastExecution known i) ↔ i ∉ rest :=
          ⟨fun h hi => absurd hlt (not_lt.mpr (h i hi rfl)),fun hn j hj he => absurd (he ▸ hj) hn⟩
        rw [hlocked,hhead]
        constructor
        · rintro ⟨⟨hold,hn⟩,hr⟩
          exact ⟨⟨hi,hold⟩,hn,(hpair hn).mp hr⟩
        · rintro ⟨⟨-,hold⟩,hn,hr⟩
          exact ⟨⟨hold,hn⟩,(hpair hn).mpr hr⟩

end

theorem fits_toDb {c : Crontab} (backfilled : Bool) :
    (CrontabJob.forCron debugText c ts backfilled).job.toDb.Fits ↔ c.Fits := by
  have hmax : (∀ m ∈ c.options.max.map Int.ofNat, 1 ≤ m ∧ m ≤ 32767) ↔ ∀ m ∈ c.options.max, 1 ≤ m ∧ m ≤ 32767 := by
    cases c.options.max with
    | none => simp
    | some m =>
      simp only [Option.map_some,Option.mem_def,Option.some.injEq,forall_eq',Int.ofNat_eq_natCast]
      omega
  exact ⟨fun h => ⟨h.identifier,h.queueName,hmax.mp h.maxAttempts,h.priority,h.jobKey⟩,
    fun h => ⟨h.taskIdentifier,h.queue,hmax.mpr h.max,h.priority,h.jobKey⟩⟩

theorem replacingMode_toText (mode : Option CronKeyMode) : ReplacingMode (mode.map CronKeyMode.toText) := by
  cases mode with
  | none => exact .inl rfl
  | some mode =>
    cases mode with
    | replace => exact .inr (.inl rfl)
    | preserveRunAt => exact .inr (.inr rfl)

theorem exists_addAll (jobs : List CrontabJobInner) (h : ∀ job ∈ jobs, job.toDb.Fits) {n : ℕ} (hn : jobs.length ≤ n)
    {db : Db} (hr : RevisionRoom db n) (now : Time) : ∃ db', jobs.foldlM (CrontabJobInner.add now) db = .ok db' := by
  induction jobs generalizing db n with
  | nil => exact ⟨db,rfl⟩
  | cons job rest ih =>
    obtain ⟨n,rfl⟩ := Nat.exists_eq_succ_of_ne_zero (Nat.ne_of_gt (Nat.lt_of_lt_of_le (Nat.succ_pos _) hn))
    obtain ⟨db₁,row,hadd,hroom⟩ := exists_addJobSql now (h job (by simp)) (replacingMode_toText job.jobKeyMode) hr
    have hone : CrontabJobInner.add now db job = .ok db₁ := by
      unfold CrontabJobInner.add
      rw [hadd]
      rfl
    obtain ⟨db',hrest⟩ := ih (fun j hj => h j (List.mem_cons_of_mem job hj)) (Nat.le_of_succ_le_succ hn) hroom
    refine ⟨db',?_⟩
    rw [List.foldlM_cons,bind_of_ok hone]
    exact hrest

theorem forM_ok {ε α : Type} {f : α → Except ε Unit} {l : List α} (h : ∀ a ∈ l, f a = .ok ()) : l.forM f = .ok () := by
  induction l with
  | nil => rfl
  | cons a rest ih =>
    exact (bind_of_ok (h a (by simp)) _).trans (ih fun b hb => h b (List.mem_cons_of_mem a hb))

section
variable {jobs : List CrontabJob} {now : Time}

theorem addAll_error {inners : List CrontabJobInner} (hf : ∀ job ∈ inners, job.toDb.Fits) {db : Db} {e : SqlError}
    (h : inners.foldlM (CrontabJobInner.add now) db = .error e) : e = .integerOutOfRange := by
  induction inners generalizing db with
  | nil => cases h
  | cons job rest ih =>
    rw [List.foldlM_cons] at h
    have hadd : CrontabJobInner.add now db job = (addJobSql db job.toDb (job.jobKeyMode.map CronKeyMode.toText) now).map
      Prod.fst := rfl
    rcases addJobSql_of_fits now (hf job (by simp)) (replacingMode_toText job.jobKeyMode) db with ⟨db',row,hok⟩ | herr
    · rw [hadd,hok] at h
      exact ih (fun j hj => hf j (List.mem_cons_of_mem job hj)) h
    · rw [hadd,herr] at h
      cases h
      rfl

/-- A locked identifier is listed once, so a value matters only where the identifier of its entry is not shared. -/
theorem listed_once_of_locked {ids : List String} {known : List KnownCrontab} {p : List KnownCrontab × List String}
    (h : ids.foldlM (lockCrontab ts) (known,[]) = .ok p) {i : String} (hi : i ∈ p.2) :
    ids.Pairwise fun j k => j = k → j ≠ i := by
  refine (lockAll_ok_iff.mp ⟨p,h⟩).2.imp fun {j k} hjk he hj => ?_
  subst hj
  exact absurd (hjk he) (not_le.mpr ((mem_locked_iff h).mp hi).2)

/-- Where the values fit, the upsert and the revisions decide. -/
theorem scheduleCronJobs_cases (hcasts : ∀ job ∈ jobs, job.casts = .ok ())
    (hfits : ∀ job ∈ jobs, ((jobs.map CrontabJob.identifier).Pairwise fun i j => i = j → i ≠ job.identifier) →
      job.job.toDb.Fits) (store : Store) (ts : Instant) (now : Time) :
    (scheduleCronJobs store jobs ts now = .error .cardinalityViolation ∧
      ¬∃ p, (jobs.map CrontabJob.identifier).foldlM (lockCrontab ts) (store.known,[]) = .ok p) ∨
    ((∃ p, (jobs.map CrontabJob.identifier).foldlM (lockCrontab ts) (store.known,[]) = .ok p) ∧
      ((∃ store', scheduleCronJobs store jobs ts now = .ok store') ∨
        (scheduleCronJobs store jobs ts now = .error .integerOutOfRange ∧ ¬RevisionRoom store.db jobs.length))) := by
  unfold scheduleCronJobs cronStatement
  rw [bind_of_ok (forM_ok hcasts)]
  cases hl : (jobs.map CrontabJob.identifier).foldlM (lockCrontab ts) (store.known,[]) with
  | error e =>
    rw [lockAll_error hl]
    exact .inl ⟨rfl,by simp⟩
  | ok p =>
    obtain ⟨known,locked⟩ := p
    have hlocked : ∀ job ∈ (jobs.filter fun job => locked.contains job.identifier).map CrontabJob.job,
        job.toDb.Fits := by
      intro job hj
      obtain ⟨j,hm,rfl⟩ := List.mem_map.mp hj
      obtain ⟨hj,hm⟩ := List.mem_filter.mp hm
      exact hfits j hj (listed_once_of_locked hl (List.contains_iff_mem.mp hm))
    refine .inr ⟨⟨_,rfl⟩,?_⟩
    cases ha : ((jobs.filter fun job => locked.contains job.identifier).map CrontabJob.job).foldlM
        (CrontabJobInner.add now) store.db with
    | ok db => exact .inl ⟨⟨db,known⟩,map_eq_ok.mpr ⟨_,bind_of_ok ha _,rfl⟩⟩
    | error e =>
      obtain rfl := addAll_error hlocked ha
      refine .inr ⟨by simp only [bind,Except.bind,ha]; rfl,fun hroom => ?_⟩
      have hlen : ((jobs.filter fun job => locked.contains job.identifier).map CrontabJob.job).length ≤
          jobs.length := by
        rw [List.length_map]
        exact List.length_filter_le _ _
      obtain ⟨db,hdb⟩ := exists_addAll _ hlocked hlen hroom now
      rw [hdb] at ha
      cases ha

end

def everyMinute (task : List Char) : List Char := ['*',' ','*',' ','*',' ','*',' ','*',' '] ++ task ++ ['\n']

end GraphileWorker.Cron
