import GraphileWorker.Recovery.Sweep
import GraphileWorker.Foundation.Requests
import Mathlib.Data.List.Dedup
import Mathlib.Tactic.Linarith

/-! # Which workers a sweep takes for dead

A registered worker that holds a job with a resilient flag needs a longer silence. Holders of
locks that are not registered are listed by the age of their locks alone.
-/
namespace GraphileWorker.Recovery
open Foundation Database Hooks

def maxNanos : ℕ := (2 ^ 64 - 1) * 10 ^ 9 + 999999999

/-- `std::time::Duration`, in nanoseconds. -/
structure Duration where
  nanos : ℕ
  bounded : nanos ≤ maxNanos

/-- The product of a duration and a number panics when it is too large. -/
def Duration.mul (d : Duration) (k : ℕ) : Option Duration :=
  if h : d.nanos * k ≤ maxNanos then some ⟨d.nanos * k,h⟩ else none

def durationAsMillisI64 (d : Duration) : ℤ := min (d.nanos / 10 ^ 6 : ℕ) (2 ^ 63 - 1)

structure ResolvedSweepConfig where
  sweepThreshold : Duration
  recoveryDelay : Duration
  resilientSweepThresholdMultiplier : ℕ
  resilientJobFlags : List String
  dryRun : Bool

def ResolvedSweepConfig.effectiveSweepThreshold (config : ResolvedSweepConfig) (hasResilientLock : Bool) :
    Option Duration :=
  if hasResilientLock then config.sweepThreshold.mul config.resilientSweepThresholdMultiplier
  else some config.sweepThreshold

/-- `serde_json::Value::get` with a key, and `as_bool`. -/
def Json.flag (flag : String) : Json → Option Bool
  | .object fields => match fields.lookup flag with
    | some (.bool b) => some b
    | _ => none
  | _ => none

def jobHasResilientFlag (resilientJobFlags : List String) (job : Job) : Bool :=
  match job.flags with
  | none => false
  | some flags => resilientJobFlags.any fun flag => (Json.flag flag flags).getD false

inductive SweepRequest
  | begin
  | tryAcquireSweepLock
  | listStaleWorkers (thresholdMs : ℤ)
  | workerHoldsResilientLocks (workerId : WorkerId) (resilientFlags : List String)
  | getWorkerLastHeartbeat (workerId : WorkerId)
  | listOrphanLockedWorkers (thresholdMs : ℤ)
  | recoverDeadWorkerJobs (workerIds : List WorkerId) (recoveryDelayMs : ℤ)
  | getLockedJobsForRecovery (workerIds : List WorkerId)
  | recovery (st : RecoveryStatement)
  | deleteStaleWorkers (workerIds : List WorkerId)
  | commit

abbrev SweepRequest.Answer : SweepRequest → Type
  | tryAcquireSweepLock => Bool
  | listStaleWorkers _ => List WorkerId
  | workerHoldsResilientLocks _ _ => Bool
  | getWorkerLastHeartbeat _ => Option Time
  | listOrphanLockedWorkers _ => List WorkerId
  | recoverDeadWorkerJobs _ _ => ℤ
  | getLockedJobsForRecovery _ => List Job
  | _ => Unit

inductive SweepEvent
  | jobInterrupted (job : Job) (workerId : WorkerId) (reason : FailureReason)
  | workerRecovered (workerId : WorkerId) (deadWorkerIds : List WorkerId) (jobsRecovered : ℕ)

abbrev SweepProg := Prog SweepRequest SweepRequest.Answer SweepEvent

/-- Without a flag there is nothing to ask. -/
def workerHoldsResilientLocks (workerId : WorkerId) (resilientFlags : List String) : SweepProg Bool :=
  if resilientFlags.isEmpty then .done false
  else .ask (.workerHoldsResilientLocks workerId resilientFlags) fun has : Bool => .done has

def elapsed (utcNow instant : Time) : ℕ := ((utcNow - instant) * 1000).toNat

/-- Once the last heartbeat is read; `utcNow` is the application's clock at that moment. -/
def silentFor (config : ResolvedSweepConfig) (utcNow : Time) : Option Time → SweepProg Bool
  | none => .done true
  | some lastHeartbeat =>
    match config.effectiveSweepThreshold true with
    | none => .abort
    | some threshold => .done (decide (threshold.nanos ≤ elapsed utcNow lastHeartbeat))

def shouldRecoverWorker (config : ResolvedSweepConfig) (utcNow : Time) (workerId : WorkerId) : SweepProg Bool :=
  (workerHoldsResilientLocks workerId config.resilientJobFlags).bind fun hasResilientLocks =>
    if hasResilientLocks then .ask (.getWorkerLastHeartbeat workerId) (silentFor config utcNow)
    else .done true

def collectDead (config : ResolvedSweepConfig) (utcNow : WorkerId → Time) : List WorkerId → SweepProg (List WorkerId)
  | [] => .done []
  | workerId :: rest =>
    (shouldRecoverWorker config (utcNow workerId) workerId).bind fun recover =>
      (collectDead config utcNow rest).bind fun dead => .done (if recover then workerId :: dead else dead)

def addOrphans (deadWorkerIds orphanWorkerIds : List WorkerId) : List WorkerId :=
  orphanWorkerIds.foldl (fun dead workerId => if dead.contains workerId then dead else dead ++ [workerId]) deadWorkerIds

def findDeadWorkerIds (config : ResolvedSweepConfig) (utcNow : WorkerId → Time) : SweepProg (List WorkerId) :=
  .ask (.listStaleWorkers (durationAsMillisI64 config.sweepThreshold)) fun stale : List WorkerId =>
    (collectDead config utcNow stale).bind fun dead =>
      .ask (.listOrphanLockedWorkers (durationAsMillisI64 config.sweepThreshold)) fun orphans : List WorkerId =>
        .done (addOrphans dead orphans)

structure WorkerRow where
  id : WorkerId
  lastHeartbeatAt : Time

structure SweepTables where
  db : Db
  workers : List WorkerRow
  primaryKey : (workers.map WorkerRow.id).Nodup

namespace SweepTables
variable (tables : SweepTables)

def locks : List Lock := tables.db.jobs.rows.filterMap Job.lock ++ tables.db.jobQueues.rows.filterMap JobQueue.lock

def registered (workerId : WorkerId) : Bool := tables.workers.any fun row => row.id == workerId

/-- A job that the worker holds has one of the flags as a key. -/
def holdsFlagged (resilientFlags : List String) (workerId : WorkerId) : Bool :=
  tables.db.jobs.rows.any fun r => r.lockedBy == some workerId && r.flags.any (Json.existsAny resilientFlags)

def lastHeartbeat (workerId : WorkerId) : Option Time :=
  (tables.workers.find? fun row => row.id == workerId).map WorkerRow.lastHeartbeatAt

/-- The answers to the requests that only read workers and locks. -/
def read (now : Time) : (q : SweepRequest) → Option q.Answer
  | .listStaleWorkers thresholdMs =>
    some ((tables.workers.filter fun row => decide (row.lastHeartbeatAt < now - thresholdMs * 1000)).map WorkerRow.id)
  | .workerHoldsResilientLocks workerId resilientFlags => some (tables.holdsFlagged resilientFlags workerId)
  | .getWorkerLastHeartbeat workerId => some (tables.lastHeartbeat workerId)
  | .listOrphanLockedWorkers thresholdMs =>
    some ((tables.locks.filter fun l => decide (l.lockedAt < now - thresholdMs * 1000) &&
      !tables.registered l.lockedBy).map Lock.lockedBy).dedup
  | _ => none

/-- What `find_dead_worker_ids` returns when both clocks show `now`. -/
def deadWorkerIds (config : ResolvedSweepConfig) (now : Time) : Option (List WorkerId) :=
  (findDeadWorkerIds config fun _ => now).eval (tables.read now)

def HoldsResilientJob (config : ResolvedSweepConfig) (workerId : WorkerId) : Prop :=
  ∃ r ∈ tables.db.jobs.rows, r.lockedBy = some workerId ∧ jobHasResilientFlag config.resilientJobFlags r = true

def oldestLock (workerId : WorkerId) : Option Time :=
  ((tables.locks.filter fun l => l.lockedBy == workerId).map Lock.lockedAt).min?

/-- The last heartbeat of a registered worker, else the oldest of its locks. -/
def lastSign (workerId : WorkerId) : Option Time :=
  if tables.registered workerId then tables.lastHeartbeat workerId else tables.oldestLock workerId

end SweepTables

def age (now t : Time) : ℤ := (now - t) * 1000

/-- A worker with a resilient job is only returned after the longer threshold, any other one as
soon as its age exceeds the plain threshold. -/
structure KeepsThresholds (tables : SweepTables) (config : ResolvedSweepConfig) (now : Time) : Prop where
  spared : ∀ dead, tables.deadWorkerIds config now = some dead → ∀ w ∈ dead, tables.HoldsResilientJob config w →
    ∃ t, tables.lastSign w = some t ∧
      (config.sweepThreshold.nanos * config.resilientSweepThresholdMultiplier : ℤ) ≤ age now t
  returned : ∀ w t, ¬tables.HoldsResilientJob config w → tables.lastSign w = some t →
    (config.sweepThreshold.nanos : ℤ) < age now t → ∃ dead, tables.deadWorkerIds config now = some dead ∧ w ∈ dead

variable {tables : SweepTables} {config : ResolvedSweepConfig} {now t : Time} {w : WorkerId} {row : WorkerRow}

theorem registered_iff : tables.registered w = true ↔ ∃ row ∈ tables.workers, row.id = w := by
  simp [SweepTables.registered]

theorem row_unique {row' : WorkerRow} (hr : row ∈ tables.workers) (hr' : row' ∈ tables.workers)
    (h : row.id = row'.id) : row = row' := List.inj_on_of_nodup_map tables.primaryKey hr hr' h

theorem lastHeartbeat_of_mem (hr : row ∈ tables.workers) :
    tables.lastHeartbeat row.id = some row.lastHeartbeatAt := by
  have hsome : (tables.workers.find? fun r => r.id == row.id).isSome = true := by
    rw [List.find?_isSome]
    exact ⟨row,hr,beq_self_eq_true _⟩
  obtain ⟨row',hrow'⟩ := Option.isSome_iff_exists.mp hsome
  have hid : row'.id = row.id := by simpa using List.find?_some hrow'
  have heq : row' = row := row_unique (List.mem_of_find?_eq_some hrow') hr hid
  rw [SweepTables.lastHeartbeat,hrow',heq]
  rfl

theorem exists_row_of_lastHeartbeat (h : tables.lastHeartbeat w = some t) :
    ∃ row ∈ tables.workers, row.id = w ∧ row.lastHeartbeatAt = t := by
  obtain ⟨row,hrow,rfl⟩ := Option.map_eq_some_iff.mp h
  exact ⟨row,List.mem_of_find?_eq_some hrow,by simpa using List.find?_some hrow,rfl⟩

def SweepTables.verdict (tables : SweepTables) (config : ResolvedSweepConfig) (now : Time) (w : WorkerId) :
    Option Bool :=
  if tables.holdsFlagged config.resilientJobFlags w then
    (tables.lastHeartbeat w).elim (some true) fun t =>
      (config.effectiveSweepThreshold true).map fun threshold => decide (threshold.nanos ≤ elapsed now t)
  else some true

theorem eval_workerHoldsResilientLocks (flags : List String) :
    (workerHoldsResilientLocks w flags).eval (tables.read now) = some (tables.holdsFlagged flags w) := by
  rw [workerHoldsResilientLocks]
  split
  · rename_i hempty
    rw [List.isEmpty_iff.mp hempty]
    have hnone : ∀ flags : Option Json, flags.any (Json.existsAny []) = false := by
      rintro (- | (- | - | - | - | - | -)) <;> simp [Json.existsAny]
      intro item
      cases item <;> simp
    simp [SweepTables.holdsFlagged,hnone]
  · rfl

theorem eval_shouldRecoverWorker :
    (shouldRecoverWorker config now w).eval (tables.read now) = tables.verdict config now w := by
  rw [shouldRecoverWorker,Prog.eval_bind,eval_workerHoldsResilientLocks,Option.bind_some,SweepTables.verdict]
  split
  · have hask : (Prog.ask (.getWorkerLastHeartbeat w) (silentFor config now) : SweepProg Bool).eval (tables.read now) =
        (silentFor config now (tables.lastHeartbeat w)).eval (tables.read now) := rfl
    rw [hask]
    cases tables.lastHeartbeat w with
    | none => rfl
    | some t =>
      rw [silentFor]
      cases config.effectiveSweepThreshold true <;> rfl
  · rfl

theorem eval_collectDead_cons (rest : List WorkerId) :
    (collectDead config (fun _ => now) (w :: rest)).eval (tables.read now) =
      (tables.verdict config now w).bind fun recover =>
        ((collectDead config (fun _ => now) rest).eval (tables.read now)).map fun dead =>
          if recover then w :: dead else dead := by
  rw [collectDead,Prog.eval_bind,eval_shouldRecoverWorker]
  congr 1
  funext recover
  rw [Prog.eval_bind]
  cases (collectDead config (fun _ => now) rest).eval (tables.read now) <;> rfl

theorem eval_collectDead_none {stale : List WorkerId} :
    (collectDead config (fun _ => now) stale).eval (tables.read now) = none ↔
      ∃ w ∈ stale, tables.verdict config now w = none := by
  induction stale with
  | nil => simp [collectDead]
  | cons w rest ih =>
    rw [eval_collectDead_cons,List.exists_mem_cons_iff,← ih]
    cases tables.verdict config now w <;> simp

theorem mem_collectDead {stale dead : List WorkerId}
    (h : (collectDead config (fun _ => now) stale).eval (tables.read now) = some dead) :
    w ∈ dead ↔ w ∈ stale ∧ tables.verdict config now w = some true := by
  induction stale generalizing dead with
  | nil =>
    cases h
    simp
  | cons v rest ih =>
    rw [eval_collectDead_cons] at h
    obtain ⟨recover,hv,h⟩ := Option.bind_eq_some_iff.mp h
    obtain ⟨dead',hd,rfl⟩ := Option.map_eq_some_iff.mp h
    have hrest := ih hd
    cases recover with
    | true =>
      by_cases hw : w = v
      · simp [hw,hv]
      · simp [hw,hrest]
    | false =>
      by_cases hw : w = v
      · simp [hw,hv,hw ▸ hrest]
      · simp [hw,hrest]

theorem mem_addOrphans {dead orphans : List WorkerId} : w ∈ addOrphans dead orphans ↔ w ∈ dead ∨ w ∈ orphans := by
  induction orphans generalizing dead with
  | nil => simp [addOrphans]
  | cons v orphans ih =>
    have hstep : addOrphans dead (v :: orphans) = addOrphans (if dead.contains v then dead else dead ++ [v]) orphans :=
      rfl
    rw [hstep,ih]
    split
    · rename_i hv
      have hv : v ∈ dead := by simpa using hv
      constructor
      · rintro (h | h)
        · exact .inl h
        · exact .inr (List.mem_cons_of_mem v h)
      · rintro (h | h)
        · exact .inl h
        · obtain rfl | h := List.mem_cons.mp h
          · exact .inl hv
          · exact .inr h
    · simp [or_assoc]

/-- Older than the threshold as the database gets it, in whole milliseconds. -/
def Stale (config : ResolvedSweepConfig) (now t : Time) : Prop :=
  durationAsMillisI64 config.sweepThreshold * 10 ^ 6 < age now t

theorem stale_iff : t < now - durationAsMillisI64 config.sweepThreshold * 1000 ↔ Stale config now t := by
  unfold Stale age
  constructor <;> intro h <;> linarith

theorem millis_le (d : Duration) : durationAsMillisI64 d * 10 ^ 6 ≤ d.nanos := by
  have hmin : durationAsMillisI64 d ≤ (d.nanos / 10 ^ 6 : ℕ) := min_le_left _ _
  have hdiv : d.nanos / 10 ^ 6 * 10 ^ 6 ≤ d.nanos := Nat.div_mul_le_self _ _
  omega

theorem millis_nonneg (d : Duration) : 0 ≤ durationAsMillisI64 d := le_min (Int.natCast_nonneg _) (by norm_num)

theorem stale_of_age (h : (config.sweepThreshold.nanos : ℤ) < age now t) : Stale config now t :=
  (millis_le config.sweepThreshold).trans_lt h

theorem age_pos (h : Stale config now t) : 0 < age now t :=
  (mul_nonneg (millis_nonneg config.sweepThreshold) (by norm_num)).trans_lt h

/-- A stale worker with a flagged job is registered, and its longer threshold is no duration. -/
def Panics (tables : SweepTables) (config : ResolvedSweepConfig) (now : Time) : Prop :=
  maxNanos < config.sweepThreshold.nanos * config.resilientSweepThresholdMultiplier ∧
    ∃ row ∈ tables.workers, Stale config now row.lastHeartbeatAt ∧
      tables.holdsFlagged config.resilientJobFlags row.id = true

theorem effectiveSweepThreshold_none : config.effectiveSweepThreshold true = none ↔
    maxNanos < config.sweepThreshold.nanos * config.resilientSweepThresholdMultiplier := by
  simp [ResolvedSweepConfig.effectiveSweepThreshold,Duration.mul]

theorem nanos_of_effectiveSweepThreshold {d : Duration} (h : config.effectiveSweepThreshold true = some d) :
    d.nanos = config.sweepThreshold.nanos * config.resilientSweepThresholdMultiplier := by
  simp only [ResolvedSweepConfig.effectiveSweepThreshold,Duration.mul,if_true] at h
  split at h
  · cases h
    rfl
  · cases h

theorem verdict_none (hr : row ∈ tables.workers) : tables.verdict config now row.id = none ↔
    tables.holdsFlagged config.resilientJobFlags row.id = true ∧
      maxNanos < config.sweepThreshold.nanos * config.resilientSweepThresholdMultiplier := by
  rw [SweepTables.verdict,lastHeartbeat_of_mem hr,← effectiveSweepThreshold_none]
  split
  · rename_i hf
    simp [hf]
  · rename_i hf
    simp [hf]

theorem verdict_true (hr : row ∈ tables.workers) (hs : Stale config now row.lastHeartbeatAt) :
    tables.verdict config now row.id = some true ↔
      (tables.holdsFlagged config.resilientJobFlags row.id = true →
        config.sweepThreshold.nanos * config.resilientSweepThresholdMultiplier ≤ maxNanos ∧
        (config.sweepThreshold.nanos * config.resilientSweepThresholdMultiplier : ℤ) ≤
          age now row.lastHeartbeatAt) := by
  have hpos := age_pos hs
  rw [SweepTables.verdict,lastHeartbeat_of_mem hr]
  split
  · rename_i hf
    rw [Option.elim_some]
    cases hd : config.effectiveSweepThreshold true with
    | none => simpa [hf] using fun h => absurd (effectiveSweepThreshold_none.mp hd) (Nat.not_lt.mpr h)
    | some d =>
      have hnanos := nanos_of_effectiveSweepThreshold hd
      have hbound := d.bounded
      simp only [Option.map_some,Option.some.injEq,decide_eq_true_eq,hf,true_implies,hnanos,elapsed]
      rw [hnanos] at hbound
      unfold age at hpos ⊢
      constructor
      · intro h
        refine ⟨hbound,?_⟩
        have hcast : ((config.sweepThreshold.nanos * config.resilientSweepThresholdMultiplier : ℕ) : ℤ) ≤
            (((now - row.lastHeartbeatAt) * 1000).toNat : ℤ) := Int.ofNat_le.mpr h
        rwa [Int.toNat_of_nonneg hpos.le,Nat.cast_mul] at hcast
      · rintro ⟨-,h⟩
        apply Int.ofNat_le.mp
        rwa [Int.toNat_of_nonneg hpos.le,Nat.cast_mul]
  · rename_i hf
    simp [hf]

theorem deadWorkerIds_eq : tables.deadWorkerIds config now =
    ((collectDead config (fun _ => now) ((tables.workers.filter fun row => decide (row.lastHeartbeatAt <
        now - durationAsMillisI64 config.sweepThreshold * 1000)).map WorkerRow.id)).eval (tables.read now)).map
      fun dead => addOrphans dead ((tables.locks.filter fun l => decide (l.lockedAt <
        now - durationAsMillisI64 config.sweepThreshold * 1000) && !tables.registered l.lockedBy).map
          Lock.lockedBy).dedup := by
  rw [SweepTables.deadWorkerIds,findDeadWorkerIds,Prog.eval_ask,SweepTables.read,Option.bind_some,Prog.eval_bind]
  cases (collectDead config (fun _ => now) _).eval (tables.read now) <;> rfl

theorem mem_stale {v : WorkerId} : v ∈ ((tables.workers.filter fun row => decide (row.lastHeartbeatAt <
      now - durationAsMillisI64 config.sweepThreshold * 1000)).map WorkerRow.id) ↔
    ∃ row ∈ tables.workers, Stale config now row.lastHeartbeatAt ∧ row.id = v := by
  simp [stale_iff,and_assoc]

theorem deadWorkerIds_none : tables.deadWorkerIds config now = none ↔ Panics tables config now := by
  rw [deadWorkerIds_eq,Option.map_eq_none_iff,eval_collectDead_none]
  constructor
  · rintro ⟨v,hv,hnone⟩
    obtain ⟨row,hr,hs,rfl⟩ := mem_stale.mp hv
    obtain ⟨hf,hlarge⟩ := (verdict_none hr).mp hnone
    exact ⟨hlarge,row,hr,hs,hf⟩
  · rintro ⟨hlarge,row,hr,hs,hf⟩
    exact ⟨row.id,mem_stale.mpr ⟨row,hr,hs,rfl⟩,(verdict_none hr).mpr ⟨hf,hlarge⟩⟩

theorem mem_deadWorkerIds {dead : List WorkerId} (h : tables.deadWorkerIds config now = some dead) : w ∈ dead ↔
    (∃ row ∈ tables.workers, row.id = w ∧ Stale config now row.lastHeartbeatAt ∧
      (tables.holdsFlagged config.resilientJobFlags w = true →
        (config.sweepThreshold.nanos * config.resilientSweepThresholdMultiplier : ℤ) ≤ age now row.lastHeartbeatAt)) ∨
    (tables.registered w = false ∧ ∃ l ∈ tables.locks, l.lockedBy = w ∧ Stale config now l.lockedAt) := by
  have hno : ¬Panics tables config now := fun hp => by
    rw [deadWorkerIds_none.mpr hp] at h
    cases h
  rw [deadWorkerIds_eq] at h
  obtain ⟨dead',hd,rfl⟩ := Option.map_eq_some_iff.mp h
  rw [mem_addOrphans,mem_collectDead hd,mem_stale]
  apply or_congr
  · constructor
    · rintro ⟨⟨row,hr,hs,rfl⟩,hv⟩
      exact ⟨row,hr,rfl,hs,fun hf => ((verdict_true hr hs).mp hv hf).2⟩
    · rintro ⟨row,hr,rfl,hs,hold⟩
      refine ⟨⟨row,hr,hs,rfl⟩,(verdict_true hr hs).mpr fun hf => ⟨?_,hold hf⟩⟩
      by_contra hlarge
      exact hno ⟨Nat.lt_of_not_le hlarge,row,hr,hs,hf⟩
  · rw [List.mem_dedup]
    simp only [List.mem_map,List.mem_filter,Bool.and_eq_true,decide_eq_true_eq,stale_iff,Bool.not_eq_true']
    constructor
    · rintro ⟨l,⟨hl,hs,hu⟩,rfl⟩
      exact ⟨hu,l,hl,rfl,hs⟩
    · rintro ⟨hu,l,hl,rfl,hs⟩
      exact ⟨l,⟨hl,hs,hu⟩,rfl⟩

theorem existsAny_of_flag {flags : List String} {flag : String} {value : Json} (hm : flag ∈ flags)
    (h : (Json.flag flag value).getD false = true) : Json.existsAny flags value = true := by
  cases value with
  | object fields =>
    rw [Json.flag] at h
    split at h
    · rename_i b hb
      obtain ⟨pre,post,hfields,-⟩ := List.lookup_eq_some_iff.mp hb
      simp [Json.existsAny,hfields,hm]
    · cases h
  | _ => cases h

theorem holdsFlagged_of_resilient (h : tables.HoldsResilientJob config w) :
    tables.holdsFlagged config.resilientJobFlags w = true := by
  obtain ⟨r,hr,hw,hf⟩ := h
  rw [jobHasResilientFlag] at hf
  split at hf
  · cases hf
  · rename_i flags hflags
    obtain ⟨flag,hm,hflag⟩ := List.any_eq_true.mp hf
    rw [SweepTables.holdsFlagged,List.any_eq_true]
    refine ⟨r,hr,?_⟩
    rw [hw,hflags,Option.any_some,existsAny_of_flag hm hflag]
    simp

theorem lastSign_of_mem (hr : row ∈ tables.workers) : tables.lastSign row.id = some row.lastHeartbeatAt := by
  rw [SweepTables.lastSign,if_pos (registered_iff.mpr ⟨row,hr,rfl⟩),lastHeartbeat_of_mem hr]

theorem oldestLock_eq_some : tables.oldestLock w = some t ↔
    (∃ l ∈ tables.locks, l.lockedBy = w ∧ l.lockedAt = t) ∧ ∀ l ∈ tables.locks, l.lockedBy = w → t ≤ l.lockedAt := by
  rw [SweepTables.oldestLock,List.min?_eq_some_iff]
  apply and_congr
  · simp [and_assoc]
  · rw [List.forall_mem_map]
    simp

theorem exists_oldestLock {l : Lock} (hl : l ∈ tables.locks) (hw : l.lockedBy = w) :
    ∃ t, tables.oldestLock w = some t ∧ t ≤ l.lockedAt := by
  cases hold : tables.oldestLock w with
  | none =>
    rw [SweepTables.oldestLock,List.min?_eq_none_iff,List.map_eq_nil_iff,List.filter_eq_nil_iff] at hold
    exact absurd (beq_iff_eq.mpr hw) (hold l hl)
  | some t => exact ⟨t,rfl,(oldestLock_eq_some.mp hold).2 l hl hw⟩

/-- Exactly if no unregistered worker with a resilient job has its oldest lock between the two thresholds, and
no registered worker whose flagged jobs are not resilient has its last heartbeat there. -/
theorem thresholds_kept_iff (tables : SweepTables) (config : ResolvedSweepConfig) (now : Time) :
    KeepsThresholds tables config now ↔
      (Panics tables config now → ∀ w t, ¬tables.HoldsResilientJob config w → tables.lastSign w = some t →
        age now t ≤ config.sweepThreshold.nanos) ∧
      (¬Panics tables config now →
        (∀ w t, tables.registered w = false → tables.HoldsResilientJob config w → tables.oldestLock w = some t →
          Stale config now t →
          (config.sweepThreshold.nanos * config.resilientSweepThresholdMultiplier : ℤ) ≤ age now t) ∧
        ∀ row ∈ tables.workers, ¬tables.HoldsResilientJob config row.id →
          tables.holdsFlagged config.resilientJobFlags row.id = true →
          (config.sweepThreshold.nanos : ℤ) < age now row.lastHeartbeatAt →
          (config.sweepThreshold.nanos * config.resilientSweepThresholdMultiplier : ℤ) ≤
            age now row.lastHeartbeatAt) := by
  constructor
  · intro h
    constructor
    · intro hp w t hno hsign
      by_contra hage
      obtain ⟨dead,hd,-⟩ := h.returned w t hno hsign (Int.lt_of_not_ge hage)
      rw [deadWorkerIds_none.mpr hp] at hd
      cases hd
    · intro hp
      obtain ⟨dead,hd⟩ := Option.ne_none_iff_exists'.mp fun hnone => hp (deadWorkerIds_none.mp hnone)
      constructor
      · intro w t hu hres hold hs
        obtain ⟨⟨l,hl,hw,hat⟩,-⟩ := oldestLock_eq_some.mp hold
        have hmem : w ∈ dead := (mem_deadWorkerIds hd).mpr (.inr ⟨hu,l,hl,hw,hat ▸ hs⟩)
        obtain ⟨t',hsign,hage⟩ := h.spared dead hd w hmem hres
        rw [SweepTables.lastSign,hu,if_neg Bool.false_ne_true,hold] at hsign
        cases hsign
        exact hage
      · intro row hr hno hf hage
        obtain ⟨dead',hd',hmem⟩ := h.returned row.id _ hno (lastSign_of_mem hr) hage
        obtain ⟨row',hr',hid,-,hlong⟩ | ⟨hu,-⟩ := (mem_deadWorkerIds hd').mp hmem
        · cases row_unique hr' hr hid
          exact hlong hf
        · rw [registered_iff.mpr ⟨row,hr,rfl⟩] at hu
          cases hu
  · rintro ⟨hpanic,hcalm⟩
    constructor
    · intro dead hd w hw hres
      have hp : ¬Panics tables config now := fun hp => by
        rw [deadWorkerIds_none.mpr hp] at hd
        cases hd
      obtain ⟨row,hr,rfl,-,hlong⟩ | ⟨hu,l,hl,hlw,hs⟩ := (mem_deadWorkerIds hd).mp hw
      · exact ⟨row.lastHeartbeatAt,lastSign_of_mem hr,hlong (holdsFlagged_of_resilient hres)⟩
      · obtain ⟨t,hold,hle⟩ := exists_oldestLock hl hlw
        have hst : Stale config now t := by
          unfold Stale age at hs ⊢
          linarith
        refine ⟨t,?_,(hcalm hp).1 w t hu hres hold hst⟩
        rw [SweepTables.lastSign,hu,if_neg Bool.false_ne_true,hold]
    · intro w t hno hsign hage
      have hp : ¬Panics tables config now := fun hp => absurd hage (Int.not_lt.mpr (hpanic hp w t hno hsign))
      obtain ⟨dead,hd⟩ := Option.ne_none_iff_exists'.mp fun hnone => hp (deadWorkerIds_none.mp hnone)
      refine ⟨dead,hd,(mem_deadWorkerIds hd).mpr ?_⟩
      rw [SweepTables.lastSign] at hsign
      split at hsign
      · obtain ⟨row,hr,rfl,rfl⟩ := exists_row_of_lastHeartbeat hsign
        exact .inl ⟨row,hr,rfl,stale_of_age hage,fun hf => (hcalm hp).2 row hr hno hf hage⟩
      · rename_i hu
        obtain ⟨⟨l,hl,hlw,rfl⟩,-⟩ := oldestLock_eq_some.mp hsign
        exact .inr ⟨by simpa using hu,l,hl,hlw,stale_of_age hage⟩

def defaultSweep : ResolvedSweepConfig where
  sweepThreshold := ⟨300 * 10 ^ 9,by norm_num [maxNanos]⟩
  recoveryDelay := ⟨30 * 10 ^ 9,by norm_num [maxNanos]⟩
  resilientSweepThresholdMultiplier := 3
  resilientJobFlags := ["infrastructure_resilient"]
  dryRun := false

/-- `w` claimed a resilient job and is not registered. -/
def orphaned : SweepTables where
  db := after [(0,.addJob ⟨"task",.null,{ flags := some ["infrastructure_resilient"] }⟩ none),
    (1,.getJobWithFilter "w" [1] .unrestricted)]
  workers := []
  primaryKey := List.nodup_nil

/-- `w` is registered and holds a job whose flag is `false`. -/
def switchedOff : SweepTables where
  db := orphaned.db.updateJobs (fun _ => true)
    (fun r => { r with flags := some (.object [("infrastructure_resilient",.bool false)]) }) (fun _ => rfl)
  workers := [⟨"w",1⟩]
  primaryKey := List.nodup_singleton _

/-- The first worker is returned after six minutes, with the longer threshold at fifteen; the second one is
not, with the plain threshold at five. -/
theorem orphan_returned_early :
    ¬KeepsThresholds orphaned defaultSweep 360000001 ∧ ¬KeepsThresholds switchedOff defaultSweep 360000001 := by
  constructor
  · intro h
    have hdead : orphaned.deadWorkerIds defaultSweep 360000001 = some ["w"] := by decide +kernel
    have hres : orphaned.HoldsResilientJob defaultSweep "w" := by
      unfold SweepTables.HoldsResilientJob
      decide +kernel
    have hsign : orphaned.lastSign "w" = some 1 := by decide +kernel
    obtain ⟨t,ht,hage⟩ := h.spared ["w"] hdead "w" List.mem_cons_self hres
    rw [hsign] at ht
    cases ht
    exact absurd hage (by decide +kernel)
  · intro h
    have hdead : switchedOff.deadWorkerIds defaultSweep 360000001 = some [] := by decide +kernel
    have hres : ¬switchedOff.HoldsResilientJob defaultSweep "w" := by
      unfold SweepTables.HoldsResilientJob
      decide +kernel
    have hsign : switchedOff.lastSign "w" = some 1 := by decide +kernel
    obtain ⟨dead,hd,hw⟩ := h.returned "w" 1 hres hsign (by decide +kernel)
    rw [hdead] at hd
    cases hd
    cases hw

end GraphileWorker.Recovery
