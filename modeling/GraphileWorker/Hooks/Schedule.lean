import GraphileWorker.Hooks.Interceptor
import GraphileWorker.Cron.Schedule

/-! # Schedule interceptors on every insertion path

The helpers of `WorkerUtils` up to the statement they send, and the cron runner. `intercepted`
says what a path should send. Builds without the OpenTelemetry features are considered, which add
no trace to a payload.
-/
namespace GraphileWorker.Hooks
open Foundation Database Cron

structure WorkerUtils where
  hooks : Option HookRegistry := none
  useLocalTime : Bool := false

namespace WorkerUtils
variable (utils : WorkerUtils)

def localNow (clock : Time) : Option Time := if utils.useLocalTime then some clock else none

def invokeBeforeJobSchedule (job : JobToAdd) : Except GraphileWorkerError Json :=
  match utils.hooks with
  | none => .ok job.payload
  | some hooks =>
    match hooks.interceptBeforeJobSchedule ⟨job.identifier,job.payload,job.spec⟩ with
    | .proceed payload => .ok payload
    | .skip => .error .jobScheduleSkipped
    | .fail message => .error (.jobScheduleFailed message)

def addJob (clock : Time) (job : JobToAdd) : Except GraphileWorkerError Statement := do
  let payload ← utils.invokeBeforeJobSchedule job
  return .addJob { job with payload := payload } (utils.localNow clock)

def addRawJob (clock : Time) (job : JobToAdd) : Except GraphileWorkerError Statement := utils.addJob clock job

/-- The loop of `prepare_batch_jobs`, with the jobs and the flag collected so far. -/
def prepareBatchJobs : List JobToAdd → List JobToAdd → Bool → Except GraphileWorkerError (List JobToAdd × Bool)
  | [], jobsToAdd, preserveRunAt => .ok (jobsToAdd,preserveRunAt)
  | job :: rest, jobsToAdd, preserveRunAt => do
    let payload ← utils.invokeBeforeJobSchedule job
    prepareBatchJobs rest (jobsToAdd ++ [{ job with payload := payload }])
      (preserveRunAt || job.spec.jobKeyMode == some .preserveRunAt)

def addRawJobs (clock : Time) (jobs : List JobToAdd) : Except GraphileWorkerError (Option Statement) := do
  if jobs.isEmpty then return none
  let (jobsToAdd,preserveRunAt) ← utils.prepareBatchJobs jobs [] false
  return some (.addJobs jobsToAdd preserveRunAt (utils.localNow clock))

def addJobs (clock : Time) (identifier : String) (jobs : List (Json × JobSpec)) :
    Except GraphileWorkerError (Option Statement) :=
  utils.addRawJobs clock (jobs.map fun job => ⟨identifier,job.1,job.2⟩)

def addBatchJob (clock : Time) (identifier : String) (payloads : List Json) (spec : JobSpec) :
    Except GraphileWorkerError Statement := do
  if payloads.isEmpty then throw (.jobScheduleFailed "batch job payload must contain at least one item")
  let payload ← utils.invokeBeforeJobSchedule ⟨identifier,.array payloads,spec⟩
  match payload with
  | .array [] => throw (.jobScheduleFailed "batch job payload must contain at least one item")
  | .array payloads => return .addJob ⟨identifier,.array payloads,spec⟩ (utils.localNow clock)
  | _ => throw (.jobScheduleFailed "before_job_schedule must return a JSON array for batch jobs")

end WorkerUtils

structure Worker where
  hooks : HookRegistry
  useLocalTime : Bool
  crontabs : List Crontab

namespace Worker
variable (w : Worker)

def createUtils : WorkerUtils := if w.hooks.isEmpty then {} else { hooks := some w.hooks }

/-- `WorkerContextExt::utils`. -/
def contextUtils : WorkerUtils := { useLocalTime := w.useLocalTime }

def cronConfig : Config := ⟨w.crontabs,w.useLocalTime⟩

end Worker

inductive AddCall
  | addJob (job : JobToAdd)
  | addRawJob (job : JobToAdd)
  | addJobs (identifier : String) (jobs : List (Json × JobSpec))
  | addRawJobs (jobs : List JobToAdd)
  | addBatchJob (identifier : String) (payloads : List Json) (spec : JobSpec)

inductive Path
  | createUtils (call : AddCall)
  | context (call : AddCall)
  /-- `emit_tick_and_schedule_jobs`. -/
  | cronTick (ts : Instant)
  /-- One minute of the loop of `register_and_backfill_items`. -/
  | cronBackfill (start : Instant) (items : List (Crontab × Instant)) (ts : Instant)

inductive Sent
  | statement (statement : Statement)
  | cron (jobs : List CrontabJob) (ts : Instant)

def AddCall.send (utils : WorkerUtils) (clock : Time) : AddCall → Except GraphileWorkerError (Option Sent)
  | .addJob job => (utils.addJob clock job).map fun s => some (.statement s)
  | .addRawJob job => (utils.addRawJob clock job).map fun s => some (.statement s)
  | .addJobs identifier jobs => (utils.addJobs clock identifier jobs).map fun s => s.map .statement
  | .addRawJobs jobs => (utils.addRawJobs clock jobs).map fun s => s.map .statement
  | .addBatchJob identifier payloads spec =>
    (utils.addBatchJob clock identifier payloads spec).map fun s => some (.statement s)

/-- No statement for an empty list. -/
def sendCron (jobs : List CrontabJob) (ts : Instant) : Option Sent :=
  if jobs.isEmpty then none else some (.cron jobs ts)

section
variable (w : Worker) (z : Zone) (debugText : Instant → String)

def cronJobs : Path → List CrontabJob
  | .cronTick ts =>
    (collectJobsToSchedule z w.cronConfig ts).map fun c => CrontabJob.forCron debugText c ts false
  | .cronBackfill start items ts =>
    (toBackfill z w.cronConfig start items ts).map fun c => CrontabJob.forCron debugText c ts true
  | _ => []

def Path.send (clock : Time) : Path → Except GraphileWorkerError (Option Sent)
  | .createUtils call => call.send w.createUtils clock
  | .context call => call.send w.contextUtils clock
  | path@(.cronTick ts) => .ok (sendCron (cronJobs w z debugText path) ts)
  | path@(.cronBackfill _ _ ts) => .ok (sendCron (cronJobs w z debugText path) ts)

def Path.run (clock now : Time) (store : Store) (path : Path) : Store :=
  match path.send w z debugText clock with
  | .ok (some (.statement statement)) => { store with db := statement.run store.db now }
  | .ok (some (.cron jobs ts)) =>
    match scheduleCronJobs store jobs ts now with
    | .ok store' => store'
    | .error _ => store
  | _ => store

def cronJobToAdd (job : CrontabJobInner) : JobToAdd where
  identifier := job.task
  payload := job.payload.getD .null
  spec :=
    { queueName := job.queueName
      runAt := some (toTime job.runAt)
      maxAttempts := job.maxAttempts.map Int.ofNat
      jobKey := job.jobKey
      jobKeyMode := job.jobKeyMode.map CronKeyMode.toJobKeyMode
      priority := job.priority }

def Sent.jobs : Sent → List JobToAdd
  | .statement (.addJob job _) => [job]
  | .statement (.addJobs jobs _ _) => jobs
  | .statement _ => []
  | .cron jobs _ => jobs.map fun job => cronJobToAdd job.job

def sentJobs : Except GraphileWorkerError (Option Sent) → List JobToAdd
  | .ok (some sent) => sent.jobs
  | _ => []

/-- The jobs that are handed to the database, none if nothing is sent. -/
def Path.inserted (clock : Time) (path : Path) : List JobToAdd := sentJobs (path.send w z debugText clock)

/-- The jobs that the caller asked for; an empty batch is refused. -/
def AddCall.requested : AddCall → List JobToAdd
  | .addJob job | .addRawJob job => [job]
  | .addJobs identifier jobs => jobs.map fun job => ⟨identifier,job.1,job.2⟩
  | .addRawJobs jobs => jobs
  | .addBatchJob identifier payloads spec =>
    if payloads.isEmpty then [] else [⟨identifier,.array payloads,spec⟩]

def Path.requested : Path → List JobToAdd
  | .createUtils call | .context call => call.requested
  | path => (cronJobs w z debugText path).map fun job => cronJobToAdd job.job

def foldJob (hooks : HookRegistry) (job : JobToAdd) : Option JobToAdd :=
  match hooks.interceptBeforeJobSchedule ⟨job.identifier,job.payload,job.spec⟩ with
  | .proceed payload => some { job with payload := payload }
  | _ => none

def foldJobs (hooks : HookRegistry) (jobs : List JobToAdd) : Option (List JobToAdd) := jobs.mapM (foldJob hooks)

def isBatch : Json → Bool
  | .array (_ :: _) => true
  | _ => false

/-- A batch job is only inserted with a list of items. -/
def AddCall.accepts : AddCall → JobToAdd → Bool
  | .addBatchJob _ _ _, job => isBatch job.payload
  | _, _ => true

def Path.accepts : Path → JobToAdd → Bool
  | .createUtils call | .context call => call.accepts
  | _ => fun _ => true

/-- What the path should hand to the database. -/
def Path.intercepted (path : Path) : List JobToAdd :=
  match foldJobs w.hooks (path.requested w z debugText) with
  | some jobs => if jobs.all path.accepts then jobs else []
  | none => []

/-- The jobs are inserted with the folded payloads, and nothing is done where nothing should be inserted. -/
def Path.Intercepted (clock : Time) (path : Path) : Prop :=
  path.inserted w z debugText clock = path.intercepted w z debugText ∧
    (path.intercepted w z debugText = [] → ∀ now store, path.run w z debugText clock now store = store)

/-- The helpers of `create_utils` are given the registry. -/
def Path.hasHooks : Path → Bool
  | .createUtils _ => true
  | _ => false

end

def WorkerUtils.fold (utils : WorkerUtils) (job : JobToAdd) : Option JobToAdd :=
  match utils.hooks with
  | none => some job
  | some hooks => foldJob hooks job

section
variable {utils : WorkerUtils} {clock : Time}

theorem invoke_cases (utils : WorkerUtils) (job : JobToAdd) :
    (utils.fold job = none ∧ ∃ e, utils.invokeBeforeJobSchedule job = .error e) ∨
      ∃ payload, utils.fold job = some { job with payload := payload } ∧
        utils.invokeBeforeJobSchedule job = .ok payload := by
  unfold WorkerUtils.fold WorkerUtils.invokeBeforeJobSchedule
  cases utils.hooks with
  | none => exact .inr ⟨job.payload,rfl,rfl⟩
  | some hooks =>
    dsimp only
    unfold foldJob
    cases hooks.interceptBeforeJobSchedule ⟨job.identifier,job.payload,job.spec⟩ with
    | proceed payload => exact .inr ⟨payload,rfl,rfl⟩
    | skip => exact .inl ⟨rfl,_,rfl⟩
    | fail message => exact .inl ⟨rfl,_,rfl⟩

theorem prepareBatchJobs_cases (utils : WorkerUtils) (jobs jobsToAdd : List JobToAdd) (preserveRunAt : Bool) :
    (jobs.mapM utils.fold = none ∧ ∃ e, utils.prepareBatchJobs jobs jobsToAdd preserveRunAt = .error e) ∨
      ∃ folded preserve, jobs.mapM utils.fold = some folded ∧
        utils.prepareBatchJobs jobs jobsToAdd preserveRunAt = .ok (jobsToAdd ++ folded,preserve) := by
  induction jobs generalizing jobsToAdd preserveRunAt with
  | nil => exact .inr ⟨[],preserveRunAt,rfl,by simp [WorkerUtils.prepareBatchJobs]⟩
  | cons job rest ih =>
    rw [List.mapM_cons]
    unfold WorkerUtils.prepareBatchJobs
    rcases invoke_cases utils job with ⟨hf,e,he⟩ | ⟨payload,hf,he⟩
    · rw [hf,he]
      exact .inl ⟨rfl,e,rfl⟩
    · rw [hf,he]
      rcases ih (jobsToAdd ++ [{ job with payload := payload }])
        (preserveRunAt || job.spec.jobKeyMode == some .preserveRunAt) with ⟨hr,e,hp⟩ | ⟨folded,preserve,hr,hp⟩
      · rw [hr]
        exact .inl ⟨rfl,e,hp⟩
      · rw [hr]
        refine .inr ⟨_,preserve,rfl,hp.trans ?_⟩
        rw [List.append_assoc,List.singleton_append]

/-- A statement for these jobs is sent, or none at all if there are none. -/
def Sends (r : Except GraphileWorkerError (Option Sent)) (jobs : List JobToAdd) : Prop :=
  (jobs = [] ∧ ∀ sent, r ≠ .ok (some sent)) ∨ jobs ≠ [] ∧ ∃ sent, r = .ok (some sent) ∧ sent.jobs = jobs

theorem Sends.sentJobs_eq {r : Except GraphileWorkerError (Option Sent)} {jobs : List JobToAdd} (h : Sends r jobs) :
    sentJobs r = jobs := by
  rcases h with ⟨rfl,h⟩ | ⟨_,sent,rfl,hj⟩
  · match r, h with
    | .error _, _ => rfl
    | .ok none, _ => rfl
    | .ok (some sent), h => exact absurd rfl (h sent)
  · exact hj

theorem sends_error (e : GraphileWorkerError) : Sends (.error e) [] :=
  .inl ⟨rfl,fun _ h => by cases h⟩

theorem sends_none : Sends (.ok none) [] := .inl ⟨rfl,fun _ h => by cases h⟩

theorem sends_some {sent : Sent} {job : JobToAdd} {rest : List JobToAdd} (h : sent.jobs = job :: rest) :
    Sends (.ok (some sent)) (job :: rest) := .inr ⟨List.cons_ne_nil _ _,sent,rfl,h⟩

theorem sends_addJob (job : JobToAdd) :
    Sends ((AddCall.addJob job).send utils clock) (([job].mapM utils.fold).getD []) := by
  show Sends ((utils.addJob clock job).map fun s => some (Sent.statement s)) _
  unfold WorkerUtils.addJob
  rw [List.mapM_cons]
  rcases invoke_cases utils job with ⟨hf,e,he⟩ | ⟨payload,hf,he⟩
  · rw [hf,he]
    exact sends_error e
  · rw [hf,he]
    exact sends_some rfl

theorem sends_addRawJobs (jobs : List JobToAdd) :
    Sends ((AddCall.addRawJobs jobs).send utils clock) ((jobs.mapM utils.fold).getD []) := by
  show Sends ((utils.addRawJobs clock jobs).map fun s => s.map Sent.statement) _
  unfold WorkerUtils.addRawJobs
  cases jobs with
  | nil => exact sends_none
  | cons job rest =>
    simp only [List.isEmpty_cons,Bool.false_eq_true,if_false]
    rcases prepareBatchJobs_cases utils (job :: rest) [] false with ⟨hf,e,he⟩ | ⟨folded,preserve,hf,he⟩
    · rw [hf,he]
      exact sends_error e
    · rw [hf,he]
      rw [List.mapM_cons] at hf
      obtain ⟨a,_,hf⟩ := Option.bind_eq_some_iff.mp hf
      obtain ⟨as,_,hf⟩ := Option.bind_eq_some_iff.mp hf
      cases hf
      exact sends_some rfl

theorem sends_addBatchJob (identifier : String) (payloads : List Json) (spec : JobSpec) :
    Sends ((AddCall.addBatchJob identifier payloads spec).send utils clock)
      (match (AddCall.addBatchJob identifier payloads spec).requested.mapM utils.fold with
      | some jobs => if jobs.all fun job => isBatch job.payload then jobs else []
      | none => []) := by
  show Sends ((utils.addBatchJob clock identifier payloads spec).map fun s => some (Sent.statement s)) _
  unfold WorkerUtils.addBatchJob
  cases payloads with
  | nil => exact sends_error _
  | cons item items =>
    simp only [AddCall.requested,List.isEmpty_cons,Bool.false_eq_true,if_false,List.mapM_cons]
    rcases invoke_cases utils ⟨identifier,.array (item :: items),spec⟩ with ⟨hf,e,he⟩ | ⟨payload,hf,he⟩
    · rw [hf,he]
      exact sends_error e
    · rw [hf,he]
      cases payload with
      | array items =>
        cases items with
        | nil => exact sends_error _
        | cons _ _ => exact sends_some rfl
      | _ => exact sends_error _

theorem sends_call (utils : WorkerUtils) (clock : Time) (call : AddCall) :
    Sends (call.send utils clock)
      (match call.requested.mapM utils.fold with
      | some jobs => if jobs.all call.accepts then jobs else []
      | none => []) := by
  have hall : ∀ jobs : List JobToAdd, (jobs.mapM utils.fold).getD [] =
      match jobs.mapM utils.fold with
      | some jobs => if jobs.all fun _ => true then jobs else []
      | none => [] := by
    intro jobs
    cases jobs.mapM utils.fold with
    | none => rfl
    | some jobs => simp
  cases call with
  | addJob job => exact hall _ ▸ sends_addJob job
  | addRawJob job => exact hall _ ▸ sends_addJob job
  | addJobs identifier jobs => exact hall _ ▸ sends_addRawJobs _
  | addRawJobs jobs => exact hall _ ▸ sends_addRawJobs jobs
  | addBatchJob identifier payloads spec => exact sends_addBatchJob identifier payloads spec

end

theorem sends_cron (jobs : List CrontabJob) (ts : Instant) :
    Sends (.ok (sendCron jobs ts)) (jobs.map fun job => cronJobToAdd job.job) := by
  cases jobs with
  | nil => exact sends_none
  | cons _ _ => exact sends_some rfl

theorem mapM_some_self {α : Type} (xs : List α) : xs.mapM some = some xs := by
  induction xs with
  | nil => rfl
  | cons x xs ih =>
    rw [List.mapM_cons,ih]
    rfl

theorem fold_createUtils (w : Worker) : w.createUtils.fold = foldJob w.hooks := by
  funext job
  unfold Worker.createUtils
  split
  · next he =>
    have hnil : w.hooks.beforeJobSchedule = [] := by
      unfold HookRegistry.isEmpty at he
      simp only [Bool.and_eq_true] at he
      exact List.isEmpty_iff.mp he.1.2
    simp [WorkerUtils.fold,foldJob,HookRegistry.interceptBeforeJobSchedule,hnil,interceptSchedule]
  · rfl

theorem accepts_requested (call : AddCall) : call.requested.all call.accepts = true := by
  cases call with
  | addBatchJob identifier payloads spec =>
    cases payloads with
    | nil => rfl
    | cons _ _ => rfl
  | _ => simp [AddCall.accepts]

section
variable {w : Worker} {z : Zone} {debugText : Instant → String} {clock : Time}

theorem sends_path (path : Path) : Sends (path.send w z debugText clock)
    (if path.hasHooks then path.intercepted w z debugText else path.requested w z debugText) := by
  cases path with
  | createUtils call =>
    have h := sends_call w.createUtils clock call
    rw [fold_createUtils] at h
    exact h
  | context call =>
    have h := sends_call w.contextUtils clock call
    have hf : w.contextUtils.fold = some := rfl
    rw [hf,mapM_some_self] at h
    dsimp only at h
    rw [accepts_requested,if_pos rfl] at h
    exact h
  | cronTick ts => exact sends_cron _ ts
  | cronBackfill start items ts => exact sends_cron _ ts

theorem run_of_sends_nil {path : Path} (h : Sends (path.send w z debugText clock) []) (now : Time) (store : Store) :
    path.run w z debugText clock now store = store := by
  obtain ⟨_,h⟩ := h.resolve_right fun h => h.1 rfl
  unfold Path.run
  split
  · next hs => exact absurd hs (h _)
  · next hs => exact absurd hs (h _)
  · rfl

theorem accepts_requested_path (path : Path) : (path.requested w z debugText).all path.accepts = true := by
  cases path with
  | createUtils call => exact accepts_requested call
  | context call => exact accepts_requested call
  | _ => simp [Path.accepts]

theorem requested_eq_intercepted_iff (path : Path) :
    path.requested w z debugText = path.intercepted w z debugText ↔
      foldJobs w.hooks (path.requested w z debugText) = some (path.requested w z debugText) := by
  unfold Path.intercepted
  constructor
  · intro h
    cases hf : foldJobs w.hooks (path.requested w z debugText) with
    | none =>
      simp only [hf] at h
      rw [h] at hf
      cases hf
    | some jobs =>
      simp only [hf] at h
      split at h
      · rw [h]
      · rw [h] at hf
        cases hf
        rw [h]
        rfl
  · intro h
    simp only [h]
    rw [accepts_requested_path,if_pos rfl]

end

/-- The jobs are inserted as intercepted exactly if the path belongs to `create_utils` or the handlers leave
every job of the call as it is. -/
theorem schedule_intercepted_iff (w : Worker) (z : Zone) (debugText : Instant → String) (clock : Time)
    (path : Path) :
    path.Intercepted w z debugText clock ↔
      path.hasHooks = true ∨
        foldJobs w.hooks (path.requested w z debugText) = some (path.requested w z debugText) := by
  have hsends : Sends (path.send w z debugText clock) _ := sends_path path
  have hins : path.inserted w z debugText clock = _ := hsends.sentJobs_eq
  constructor
  · rintro ⟨heq,_⟩
    rw [hins] at heq
    cases hh : path.hasHooks with
    | true => exact .inl rfl
    | false =>
      rw [hh,if_neg Bool.false_ne_true] at heq
      exact .inr ((requested_eq_intercepted_iff path).mp heq)
  · intro h
    have heq : (if path.hasHooks then path.intercepted w z debugText else path.requested w z debugText) =
        path.intercepted w z debugText := by
      rcases h with h | h
      · rw [h,if_pos rfl]
      · rw [(requested_eq_intercepted_iff path).mpr h,ite_self]
    refine ⟨hins.trans heq,fun hnil now store => run_of_sends_nil ?_ now store⟩
    rwa [heq,hnil] at hsends

def skipAll : HookRegistry := { beforeJobSchedule := [fun _ => .skip] }

def everyMinute : Worker := ⟨skipAll,false,[{ taskIdentifier := "task" }]⟩

/-- A helper of the context, a live tick and a backfill insert a job each, although the handler skips it. -/
theorem skipped_jobs_inserted :
    let job : JobToAdd := ⟨"task",.null,{}⟩
    let empty : Store := ⟨Db.empty,[]⟩
    let z : Zone := .fixed 0
    foldJobs skipAll [job] = none ∧
      ((Path.context (.addJob job)).run everyMinute z (fun _ => "") 0 0 empty).db.jobs.rows.length = 1 ∧
      ((Path.cronTick 0).run everyMinute z (fun _ => "") 0 0 empty).db.jobs.rows.length = 1 ∧
      ((Path.cronBackfill oneMinute [({ taskIdentifier := "task", options := { fill := some ⟨0,0,0,1,0⟩ } },0)]
        0).run everyMinute z (fun _ => "") 0 0 empty).db.jobs.rows.length = 1 ∧
      ((Path.createUtils (.addJob job)).run everyMinute z (fun _ => "") 0 0 empty).db.jobs.rows.length = 0 :=
  ⟨rfl,rfl,rfl,rfl,rfl⟩

end GraphileWorker.Hooks
