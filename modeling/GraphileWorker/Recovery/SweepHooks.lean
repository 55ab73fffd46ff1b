import GraphileWorker.Recovery.Discovery

/-! # The hooks of a sweep

The hook of each recovered job is emitted right after its statements, while later statements
and the commit can still fail; the hook of the sweep waits for the commit.
-/
namespace GraphileWorker.Recovery
open Foundation Foundation.Entry Database Hooks

/-- A call of `sweep_stale_workers`; `utcNow` is the application's clock when a worker is looked
at. -/
structure SweepCall where
  hooks : Option HookRegistry
  workerId : WorkerId
  config : ResolvedSweepConfig
  utcNow : WorkerId → Time

structure SweepStaleWorkersResult where
  workerIds : List WorkerId
  recoveredCount : ℤ

def sendAll : List RecoveryStatement → SweepProg Unit
  | [] => .done ()
  | st :: rest => .ask (.recovery st) fun _ => sendAll rest

def deleteStaleWorkers (workerIds : List WorkerId) : SweepProg Unit :=
  if workerIds.isEmpty then .done () else .ask (.deleteStaleWorkers workerIds) fun _ => .done ()

namespace SweepCall
variable (call : SweepCall)

def hasHooks : Bool := call.hooks.any fun hooks => !hooks.isEmpty

def request (job : Job) (previousWorkerId : WorkerId) : JobRecoveryRequest :=
  ⟨call.hooks,call.workerId,job,previousWorkerId,.workerCrashed,durationAsMillisI64 call.config.recoveryDelay⟩

def recoverJobs : List Job → ℤ → SweepProg ℤ
  | [], recoveredCount => .done recoveredCount
  | job :: rest, recoveredCount =>
    match job.lockedBy with
    | none => recoverJobs rest recoveredCount
    | some previousWorkerId =>
      (sendAll (call.request job previousWorkerId).statements).bind fun _ =>
        if (call.request job previousWorkerId).outcome.wasHandled then
          .tell (.jobInterrupted job call.workerId .workerCrashed) (recoverJobs rest (recoveredCount + 1))
        else recoverJobs rest recoveredCount

def recoverJobsFromWorkers (workerIds : List WorkerId) : SweepProg ℤ :=
  if workerIds.isEmpty then .done 0
  else if call.hasHooks then
    .ask (.getLockedJobsForRecovery workerIds) fun jobs : List Job => call.recoverJobs jobs 0
  else
    .ask (.recoverDeadWorkerJobs workerIds (durationAsMillisI64 call.config.recoveryDelay))
      fun count : ℤ => .done count

def announce (deadWorkerIds : List WorkerId) (recoveredCount : ℤ) : SweepProg SweepStaleWorkersResult :=
  if call.hasHooks then
    .tell (.workerRecovered call.workerId deadWorkerIds recoveredCount.toNat) (.done ⟨deadWorkerIds,recoveredCount⟩)
  else .done ⟨deadWorkerIds,recoveredCount⟩

def finish (deadWorkerIds : List WorkerId) (recoveredCount : ℤ) : SweepProg SweepStaleWorkersResult :=
  (deleteStaleWorkers deadWorkerIds).bind fun _ =>
    .ask .commit fun _ => call.announce deadWorkerIds recoveredCount

def sweepDead (deadWorkerIds : List WorkerId) : SweepProg SweepStaleWorkersResult :=
  if call.config.dryRun then .ask .commit fun _ => .done ⟨deadWorkerIds,0⟩
  else (call.recoverJobsFromWorkers deadWorkerIds).bind (call.finish deadWorkerIds)

/-- Without the lock the transaction is dropped. -/
def sweepStaleWorkers : SweepProg SweepStaleWorkersResult :=
  .ask .begin fun _ =>
    .ask .tryAcquireSweepLock fun acquired : Bool =>
      if acquired then (findDeadWorkerIds call.config call.utcNow).bind call.sweepDead else .done ⟨[],0⟩

end SweepCall

/-- A `JobInterrupted` hook of a crashed worker. -/
def isInterruption : SweepEvent → Bool
  | .jobInterrupted _ _ .workerCrashed => true
  | _ => false

/-- Such a hook is only emitted in a run whose transaction commits, and that returns `Ok`. -/
def ReportsCommitted (run : Option SweepStaleWorkersResult × List (Entry SweepRequest SweepEvent)) : Prop :=
  ∀ e ∈ events run.2, isInterruption e = true → .answered .commit ∈ run.2 ∧ run.1.isSome = true

namespace SweepCall
variable (call : SweepCall) {jobs : List Job} {dead : List WorkerId}

def statementsOf (job : Job) : List RecoveryStatement :=
  job.lockedBy.elim [] fun previousWorkerId => (call.request job previousWorkerId).statements

def handles (job : Job) : Bool :=
  job.lockedBy.any fun previousWorkerId => (call.request job previousWorkerId).outcome.wasHandled

/-- What is sent and told for one job when nothing fails. -/
def jobLog (job : Job) : List (Entry SweepRequest SweepEvent) :=
  (call.statementsOf job).map (fun st => .answered (.recovery st)) ++
    if call.handles job then [.told (.jobInterrupted job call.workerId .workerCrashed)] else []

variable {call} {answer : ℕ → ∀ q : SweepRequest, q.Answer} {n : ℕ}

variable (answer) in
theorem free_sendAll (sts : List RecoveryStatement) :
    (sendAll sts).free answer n = (some (),sts.map fun st => .answered (.recovery st)) := by
  induction sts generalizing n with
  | nil => rfl
  | cons st rest ih => rw [sendAll,Prog.free_ask,ih,List.map_cons]

variable (call) (answer) in
theorem free_recoverJobs (jobs : List Job) (count : ℤ) :
    ∃ count', (call.recoverJobs jobs count).free answer n = (some count',jobs.flatMap call.jobLog) := by
  induction jobs generalizing n count with
  | nil => exact ⟨count,rfl⟩
  | cons job rest ih =>
    rw [recoverJobs]
    split
    · rename_i hnone
      obtain ⟨count',hrest⟩ := ih (n := n) count
      refine ⟨count',?_⟩
      rw [hrest,List.flatMap_cons]
      simp [jobLog,statementsOf,handles,hnone]
    · rename_i previous hprevious
      have hlog : (call.request job previous).statements = call.statementsOf job := by
        simp [statementsOf,hprevious]
      have hhandled : (call.request job previous).outcome.wasHandled = call.handles job := by
        simp [handles,hprevious]
      have hsend := free_sendAll answer (n := n) (call.statementsOf job)
      rw [hlog,hhandled,Prog.free_bind_some (congrArg Prod.fst hsend),hsend]
      by_cases h : call.handles job = true
      · obtain ⟨count',hrest⟩ := ih (n := n + sent ((call.statementsOf job).map
          fun st => (.answered (.recovery st) : Entry SweepRequest SweepEvent))) (count + 1)
        refine ⟨count',?_⟩
        simp [h,hrest,jobLog]
      · obtain ⟨count',hrest⟩ := ih (n := n + sent ((call.statementsOf job).map
          fun st => (.answered (.recovery st) : Entry SweepRequest SweepEvent))) count
        refine ⟨count',?_⟩
        simp [h,hrest,jobLog]

theorem jobLog_of_not_handles {job : Job} (h : call.handles job = false) : call.jobLog job = [] := by
  cases hp : job.lockedBy with
  | none => simp [jobLog,statementsOf,handles,hp]
  | some previous =>
    have hskip : (call.request job previous).action = .skip := by
      apply wasHandled_outcome.mp
      simpa [handles,hp] using h
    simp [jobLog,h,statementsOf,hp,JobRecoveryRequest.statements,hskip]

theorem flatMap_jobLog_of_not_handles (h : ∀ job ∈ jobs, call.handles job = false) :
    jobs.flatMap call.jobLog = [] :=
  List.flatMap_eq_nil_iff.mpr fun job hjob => jobLog_of_not_handles (h job hjob)

theorem events_statements (sts : List RecoveryStatement) :
    events (sts.map fun st => (.answered (.recovery st) : Entry SweepRequest SweepEvent)) = [] := by
  induction sts with
  | nil => rfl
  | cons st rest ih => exact ih

theorem sent_statements (sts : List RecoveryStatement) :
    sent (sts.map fun st => (.answered (.recovery st) : Entry SweepRequest SweepEvent)) = sts.length := by
  induction sts with
  | nil => rfl
  | cons st rest ih => rw [List.map_cons,sent_answered,ih,List.length_cons]

theorem sent_jobs (jobs : List Job) :
    sent (jobs.flatMap call.jobLog) = (jobs.map fun job => (call.statementsOf job).length).sum := by
  induction jobs with
  | nil => rfl
  | cons job rest ih =>
    have hjob : sent (call.jobLog job) = (call.statementsOf job).length := by
      rw [jobLog,sent_append,sent_statements]
      split <;> simp
    rw [List.flatMap_cons,sent_append,ih,hjob,List.map_cons,List.sum_cons]

theorem sentBefore_jobs {pre post : List Job} {job : Job} (hpre : ∀ j ∈ pre, call.handles j = false)
    (hjob : call.handles job = true) (log : List (Entry SweepRequest SweepEvent)) :
    sentBefore isInterruption ((pre ++ job :: post).flatMap call.jobLog ++ log) =
      some (call.statementsOf job).length := by
  rw [List.flatMap_append,flatMap_jobLog_of_not_handles hpre,List.nil_append,List.flatMap_cons,jobLog,if_pos hjob,
    List.append_assoc,List.append_assoc,sentBefore_append (by simp [events_statements]),sent_statements]
  simp [sentBefore,isInterruption]

variable (call) in
theorem exists_first_handled (jobs : List Job) : (∀ job ∈ jobs, call.handles job = false) ∨
    ∃ pre job post, jobs = pre ++ job :: post ∧ (∀ j ∈ pre, call.handles j = false) ∧ call.handles job = true := by
  induction jobs with
  | nil => exact .inl fun job hjob => absurd hjob List.not_mem_nil
  | cons job rest ih =>
    by_cases h : call.handles job = true
    · exact .inr ⟨[],job,rest,rfl,fun j hj => absurd hj List.not_mem_nil,h⟩
    · have h : call.handles job = false := by simpa using h
      obtain hnone | ⟨pre,first,post,rfl,hpre,hfirst⟩ := ih
      · exact .inl (List.forall_mem_cons.mpr ⟨h,hnone⟩)
      · exact .inr ⟨job :: pre,first,post,rfl,List.forall_mem_cons.mpr ⟨h,hpre⟩,hfirst⟩

theorem silent_shouldRecoverWorker (config : ResolvedSweepConfig) (utcNow : Time) (w : WorkerId) :
    (shouldRecoverWorker config utcNow w).Tells fun _ => False := by
  have hask : (workerHoldsResilientLocks w config.resilientJobFlags).Tells fun _ => False := by
    rw [workerHoldsResilientLocks]
    split
    · exact .done false
    · exact .ask fun has => .done has
  refine hask.bind fun has => ?_
  split
  · refine .ask fun lastHeartbeat => ?_
    cases lastHeartbeat with
    | none => exact .done true
    | some t =>
      simp only [silentFor]
      cases config.effectiveSweepThreshold true with
      | none => exact .abort
      | some threshold => exact .done _
  · exact .done true

theorem silent_collectDead (config : ResolvedSweepConfig) (utcNow : WorkerId → Time) (stale : List WorkerId) :
    (collectDead config utcNow stale).Tells fun _ => False := by
  induction stale with
  | nil => exact .done []
  | cons w rest ih => exact (silent_shouldRecoverWorker config _ w).bind fun _ => ih.bind fun _ => .done _

theorem silent_findDeadWorkerIds (config : ResolvedSweepConfig) (utcNow : WorkerId → Time) :
    (findDeadWorkerIds config utcNow).Tells fun _ => False :=
  .ask fun stale => (silent_collectDead config utcNow stale).bind fun _ => .ask fun _ => .done _

variable (call) (answer) in
/-- The discovery after the lock was taken, when nothing fails. -/
def discovery : Option (List WorkerId) × List (Entry SweepRequest SweepEvent) :=
  (findDeadWorkerIds call.config call.utcNow).free answer 2

theorem events_discovery : events (call.discovery answer).2 = [] :=
  List.eq_nil_iff_forall_not_mem.mpr (silent_findDeadWorkerIds call.config call.utcNow).events_free

variable (call) (answer) in
/-- The number of requests before the loop, and the jobs it is over; without the lock, on a dry
run, without a dead worker or without hooks there is no loop. -/
def loop : Option (ℕ × List Job) :=
  if (answer 1 .tryAcquireSweepLock : Bool) && !call.config.dryRun && call.hasHooks then
    (call.discovery answer).1.bind fun dead =>
      if dead.isEmpty then none
      else some (3 + sent (call.discovery answer).2,
        answer (2 + sent (call.discovery answer).2) (.getLockedJobsForRecovery dead))
  else none

variable (call) in
theorem tells_finish (dead : List WorkerId) (count : ℤ) :
    (call.finish dead count).Tells fun e => isInterruption e = false := by
  have hdelete : (deleteStaleWorkers dead).Tells fun e => isInterruption e = false := by
    rw [deleteStaleWorkers]
    split
    · exact .done ()
    · exact .ask fun _ => .done ()
  refine hdelete.bind fun _ => .ask fun _ => ?_
  rw [announce]
  split
  · exact .tell rfl (.done _)
  · exact .done _

theorem tells_sweepDead (h : call.config.dryRun = true ∨ call.hasHooks = false ∨ dead.isEmpty = true) :
    (call.sweepDead dead).Tells fun e => isInterruption e = false := by
  rw [sweepDead]
  split
  · exact .ask fun _ => .done _
  · rename_i hdry
    refine Prog.Tells.bind ?_ (call.tells_finish dead)
    rw [recoverJobsFromWorkers]
    split
    · exact .done 0
    · rename_i hne
      have hhooks : call.hasHooks = false := by simp_all
      rw [hhooks,if_neg Bool.false_ne_true]
      exact .ask fun count => .done _

theorem free_of_lock (h : (answer 1 .tryAcquireSweepLock : Bool) = true) : call.sweepStaleWorkers.free answer 0 =
    ((((findDeadWorkerIds call.config call.utcNow).bind call.sweepDead).free answer 2).1,
      .answered .begin :: .answered .tryAcquireSweepLock ::
        (((findDeadWorkerIds call.config call.utcNow).bind call.sweepDead).free answer 2).2) := by
  rw [sweepStaleWorkers,Prog.free_ask,Prog.free_ask]
  simp only [Nat.zero_add]
  rw [if_pos h]

theorem free_after_discovery (h : (call.discovery answer).1 = some dead) :
    ((findDeadWorkerIds call.config call.utcNow).bind call.sweepDead).free answer 2 =
      (((call.sweepDead dead).free answer (2 + sent (call.discovery answer).2)).1,
        (call.discovery answer).2 ++ ((call.sweepDead dead).free answer (2 + sent (call.discovery answer).2)).2) :=
  Prog.free_bind_some h call.sweepDead

theorem no_interruption_of_no_loop (h : call.loop answer = none) :
    ∀ e ∈ events (call.sweepStaleWorkers.free answer 0).2, isInterruption e = false := by
  by_cases hlock : (answer 1 .tryAcquireSweepLock : Bool) = true
  · rw [free_of_lock hlock]
    simp only [events_answered]
    cases hdead : (call.discovery answer).1 with
    | none =>
      have hnone : ((findDeadWorkerIds call.config call.utcNow).bind call.sweepDead).free answer 2 =
          (none,(call.discovery answer).2) := Prog.free_bind_none hdead call.sweepDead
      rw [hnone,events_discovery]
      exact fun e he => absurd he List.not_mem_nil
    | some dead =>
      rw [free_after_discovery hdead,events_append,events_discovery,List.nil_append]
      apply Prog.Tells.events_free
      apply tells_sweepDead
      by_contra hcond
      simp only [not_or,Bool.not_eq_true,Bool.not_eq_false] at hcond
      rw [loop,hlock,hcond.1,hcond.2.1,hdead] at h
      have hempty : dead = [] := by simpa using h
      rw [hempty] at hcond
      cases hcond.2.2
  · have hdropped : call.sweepStaleWorkers.free answer 0 =
        (some ⟨[],0⟩,[.answered .begin,.answered .tryAcquireSweepLock]) := by
      rw [sweepStaleWorkers,Prog.free_ask,Prog.free_ask]
      simp only [Nat.zero_add]
      rw [if_neg hlock,Prog.free_done]
    rw [hdropped]
    exact fun e he => absurd he List.not_mem_nil

variable (call) (answer) in
theorem free_finish (hne : dead.isEmpty = false) (count : ℤ) :
    ∃ result tail, (call.finish dead count).free answer n =
      (some result,.answered (.deleteStaleWorkers dead) :: .answered .commit :: tail) ∧ sent tail = 0 ∧
      ∀ e ∈ events tail, isInterruption e = false := by
  have hquiet : ∀ e ∈ events ((call.finish dead count).free answer n).2, isInterruption e = false :=
    (call.tells_finish dead count).events_free
  have hdelete : (call.finish dead count).free answer n =
      (((call.announce dead count).free answer (n + 2)).1,
        .answered (.deleteStaleWorkers dead) :: .answered .commit ::
          ((call.announce dead count).free answer (n + 2)).2) := by
    rw [finish,deleteStaleWorkers,hne]
    rfl
  rw [hdelete] at hquiet ⊢
  simp only [events_answered] at hquiet
  by_cases hhooks : call.hasHooks = true
  · rw [announce,if_pos hhooks] at hquiet ⊢
    exact ⟨_,_,rfl,rfl,hquiet⟩
  · rw [announce,if_neg hhooks] at hquiet ⊢
    exact ⟨_,_,rfl,rfl,hquiet⟩

variable (answer) in
theorem free_sweepDead (hdry : call.config.dryRun = false) (hhooks : call.hasHooks = true)
    (hne : dead.isEmpty = false) :
    ∃ result tail, (call.sweepDead dead).free answer n = (some result,.answered (.getLockedJobsForRecovery dead) ::
      ((answer n (.getLockedJobsForRecovery dead)).flatMap call.jobLog ++
        .answered (.deleteStaleWorkers dead) :: .answered .commit :: tail)) ∧ sent tail = 0 ∧
      ∀ e ∈ events tail, isInterruption e = false := by
  obtain ⟨count,hloop⟩ := free_recoverJobs call answer (n := n + 1)
    (answer n (.getLockedJobsForRecovery dead)) 0
  have hjobs : (call.recoverJobsFromWorkers dead).free answer n = (some count,
      .answered (.getLockedJobsForRecovery dead) ::
        (answer n (.getLockedJobsForRecovery dead)).flatMap call.jobLog) := by
    rw [recoverJobsFromWorkers,hne,if_neg Bool.false_ne_true,if_pos hhooks,Prog.free_ask,hloop]
  obtain ⟨result,tail,hfinish,htail⟩ := call.free_finish answer
    (n := n + sent ((call.recoverJobsFromWorkers dead).free answer n).2) hne count
  refine ⟨result,tail,?_,htail⟩
  rw [sweepDead,hdry,if_neg Bool.false_ne_true,Prog.free_bind_some (congrArg Prod.fst hjobs),hfinish,hjobs]
  rfl

theorem free_of_loop {start : ℕ} (h : call.loop answer = some (start,jobs)) :
    ∃ result pre dead tail, call.sweepStaleWorkers.free answer 0 = (some result,pre ++
        (jobs.flatMap call.jobLog ++ .answered (.deleteStaleWorkers dead) :: .answered .commit :: tail)) ∧
      sent pre = start ∧ events pre = [] ∧ sent tail = 0 ∧ ∀ e ∈ events tail, isInterruption e = false := by
  rw [loop] at h
  split at h
  · rename_i hcond
    simp only [Bool.and_eq_true,Bool.not_eq_true'] at hcond
    obtain ⟨⟨hlock,hdry⟩,hhooks⟩ := hcond
    obtain ⟨dead,hdead,h⟩ := Option.bind_eq_some_iff.mp h
    split at h
    · cases h
    · rename_i hne
      have hne : dead.isEmpty = false := by simpa using hne
      simp only [Option.some.injEq,Prod.mk.injEq] at h
      obtain ⟨rfl,rfl⟩ := h
      obtain ⟨result,tail,hfree,htail⟩ := free_sweepDead answer
        (n := 2 + sent (call.discovery answer).2) hdry hhooks hne
      refine ⟨result,.answered .begin :: .answered .tryAcquireSweepLock :: ((call.discovery answer).2 ++
        [.answered (.getLockedJobsForRecovery dead)]),dead,tail,?_,?_,?_,htail⟩
      · rw [free_of_lock hlock,free_after_discovery hdead,hfree]
        simp
      · simp
        omega
      · simp [events_discovery]
  · cases h

end SweepCall

/-- Exactly if no request fails after the statements of the first handled job. -/
theorem hooks_report_committed_iff (call : SweepCall) (answer : ℕ → ∀ q : SweepRequest, q.Answer)
    (fails : ℕ → Bool) : ReportsCommitted (call.sweepStaleWorkers.run answer fails 0) ↔
      ∀ start pre job post, call.loop answer = some (start,pre ++ job :: post) →
        (∀ j ∈ pre, call.handles j = false) → call.handles job = true →
        (∃ i < start + (call.statementsOf job).length, fails i = true) ∨
        ∀ i < start + ((pre ++ job :: post).map fun j => (call.statementsOf j).length).sum + 2, fails i = false := by
  constructor
  · intro h start pre job post hloop hpre hjob
    obtain ⟨result,front,dead,tail,hfree,hstart,hsilent,htail,-⟩ := SweepCall.free_of_loop hloop
    have hfirst : sentBefore isInterruption (call.sweepStaleWorkers.free answer 0).2 =
        some ((call.statementsOf job).length + start) := by
      rw [hfree,sentBefore_append (by simp [hsilent]),SweepCall.sentBefore_jobs hpre hjob,hstart]
      rfl
    have hsent : sent (call.sweepStaleWorkers.free answer 0).2 =
        start + ((pre ++ job :: post).map fun j => (call.statementsOf j).length).sum + 2 := by
      rw [hfree,sent_append,sent_append,SweepCall.sent_jobs,sent_answered,sent_answered,hstart,htail]
      omega
    by_cases hbefore : ∃ i < start + (call.statementsOf job).length, fails i = true
    · exact .inl hbefore
    · right
      have hquiet : ∀ i < (call.statementsOf job).length + start, fails (0 + i) = false := by
        intro i hi
        rw [Nat.zero_add]
        by_contra hfail
        exact hbefore ⟨i,by omega,by simpa using hfail⟩
      obtain ⟨e,he,hint⟩ := Prog.exists_told_iff.mpr ⟨_,hfirst,hquiet⟩
      have hresult := Prog.not_fails_of_result (h e he hint).2
      rw [hsent] at hresult
      intro i hi
      simpa using hresult i hi
  · intro h e he hint
    obtain ⟨k,hk,hquiet⟩ := Prog.exists_told_iff.mp ⟨e,he,hint⟩
    cases hloop : call.loop answer with
    | none =>
      rw [sentBefore_eq_none (SweepCall.no_interruption_of_no_loop hloop)] at hk
      cases hk
    | some p =>
      obtain ⟨start,jobs⟩ := p
      obtain ⟨result,front,dead,tail,hfree,hstart,hsilent,htail,hquiet'⟩ := SweepCall.free_of_loop hloop
      obtain hnone | ⟨pre,job,post,rfl,hpre,hjob⟩ := call.exists_first_handled jobs
      · have hno : ∀ e ∈ events (call.sweepStaleWorkers.free answer 0).2, isInterruption e = false := by
          rw [hfree,SweepCall.flatMap_jobLog_of_not_handles hnone]
          simpa [hsilent] using hquiet'
        rw [sentBefore_eq_none hno] at hk
        cases hk
      · rw [hfree,sentBefore_append (by simp [hsilent]),SweepCall.sentBefore_jobs hpre hjob,hstart] at hk
        have hk : (call.statementsOf job).length + start = k := Option.some.inj hk
        obtain ⟨i,hi,hfail⟩ | hall := h start pre job post hloop hpre hjob
        · have hok := hquiet i (by omega)
          rw [Nat.zero_add,hfail] at hok
          cases hok
        · have hrun : call.sweepStaleWorkers.run answer fails 0 = call.sweepStaleWorkers.free answer 0 := by
            apply Prog.run_of_not_fails
            intro i hi
            rw [hfree,sent_append,sent_append,SweepCall.sent_jobs,sent_answered,sent_answered,hstart,htail] at hi
            rw [Nat.zero_add]
            exact hall i (by omega)
          rw [hrun,hfree]
          simp

def oneDead (_ : ℕ) : (q : SweepRequest) → q.Answer
  | .begin => ()
  | .tryAcquireSweepLock => true
  | .listStaleWorkers _ => ["dead"]
  | .workerHoldsResilientLocks _ _ => false
  | .getWorkerLastHeartbeat _ => none
  | .listOrphanLockedWorkers _ => []
  | .recoverDeadWorkerJobs _ _ => 0
  | .getLockedJobsForRecovery _ => [readJob]
  | .recovery _ => ()
  | .deleteStaleWorkers _ => ()
  | .commit => ()

def observedSweep : SweepCall where
  hooks := some observing
  workerId := "sweeper"
  config := defaultSweep
  utcNow _ := 0

/-- The commit is the ninth request; the hook of the job was emitted after the seventh. -/
theorem hook_before_failed_commit :
    ¬ReportsCommitted (observedSweep.sweepStaleWorkers.run oneDead (fun n => n == 8) 0) := by
  intro h
  have hevents : events (observedSweep.sweepStaleWorkers.run oneDead (fun n => n == 8) 0).2 =
      [.jobInterrupted readJob "sweeper" .workerCrashed] := rfl
  have hresult := (h (.jobInterrupted readJob "sweeper" .workerCrashed) (by simp [hevents]) rfl).2
  exact absurd hresult (by decide)

end GraphileWorker.Recovery
