import GraphileWorker.Foundation.TableLocks
import GraphileWorker.Maintenance.AddStatements
import GraphileWorker.Maintenance.Cleanup

/-! # Additions and cleanups as open transactions

Transactions at READ COMMITTED that run one statement at a time. A statement takes its table
lock first and then reads what is committed, with the writes of its own transaction over it. It
cannot run while another transaction holds a lock that conflicts, a row that it writes, or a name
or key that it inserts. A rollback at any time covers errors and timeouts. Statements may also run
where the server would let them wait, which only adds runs.
-/
namespace GraphileWorker.Maintenance
open Foundation Database

abbrev TxId := ℕ

/-- The tables with the written rows of a transaction over the committed ones. -/
def overlay (db mine : Db) (w : Written) : Db where
  jobs := db.jobs.overlay mine.jobs w.jobs
  jobQueues := db.jobQueues.overlay mine.jobQueues w.jobQueues
  tasks := db.tasks.overlay mine.tasks w.tasks
  jobRetirements := db.jobRetirements ++ w.jobRetirements.filter fun i => !db.isRetired i

/-- The identities that a statement has drawn stay drawn. -/
def advance (db drawn : Db) : Db :=
  { db with
    jobs := db.jobs.advance drawn.jobs.next
    jobQueues := db.jobQueues.advance drawn.jobQueues.next
    tasks := db.tasks.advance drawn.tasks.next }

/-- A transaction that adds jobs: `mine` holds its version of the rows it has written, `todo`
the statements that are left of its current call. The queue names that its jobs were added
with are kept for the record. -/
structure Adding where
  now : Time
  mine : Db
  written : Written := {}
  asked : JobId → Option (Option String) := fun _ => none
  todo : List AddStatement := []

inductive Phase
  | begun
  | locked
  | deleted (ids : List ℕ)
  deriving DecidableEq

/-- `execute_cleanup_task`. -/
structure Collecting where
  table : NamedTable
  taskIdentifiersToKeep : List String
  phase : Phase := .begun

def NamedTable.cleanup : NamedTable → CleanupTask
  | .tasks => .gcTaskIdentifiers
  | .jobQueues => .gcJobQueues

def unusedIds (db : Db) (taskIdentifiersToKeep : List String) : NamedTable → List ℕ
  | .tasks => (db.tasks.rows.filter (unusedTask db taskIdentifiersToKeep)).map Task.id
  | .jobQueues => (db.jobQueues.rows.filter (unusedQueue db)).map JobQueue.id

def deleteEntries (db : Db) (ids : List ℕ) : NamedTable → Db
  | .tasks => { db with tasks := db.tasks.deleteWhere fun t => ids.contains t.id }
  | .jobQueues => { db with jobQueues := db.jobQueues.deleteWhere fun q => ids.contains q.id }

theorem deleteWhere_ids {α : Type} [RowId α] (t : IdTable α) (p : α → Bool) :
    t.deleteWhere (fun r => ((t.rows.filter p).map rowId).contains (rowId r)) = t.deleteWhere p := by
  ext1
  · refine List.filter_congr fun r hr => congrArg (!·) ?_
    rw [Bool.eq_iff_iff,List.contains_iff_mem,List.mem_map]
    constructor
    · rintro ⟨s,hs,he⟩
      obtain ⟨hs,hp⟩ := List.mem_filter.mp hs
      rwa [← IdTable.eq_of_rowId hs hr he]
    · exact fun hp => ⟨r,List.mem_filter.mpr ⟨hr,hp⟩,rfl⟩
  · rfl

theorem deleteEntries_unusedIds (db : Db) (keep : List String) (τ : NamedTable) :
    deleteEntries db (unusedIds db keep τ) τ = τ.cleanup.execute db keep := by
  cases τ with
  | tasks =>
    have hrows := deleteWhere_ids db.tasks (unusedTask db keep)
    exact congrArg (fun t => { db with tasks := t }) hrows
  | jobQueues =>
    have hrows := deleteWhere_ids db.jobQueues (unusedQueue db)
    exact congrArg (fun t => { db with jobQueues := t }) hrows

/-- A claim takes any rows that no transaction holds, which covers `SKIP LOCKED`. -/
inductive Single
  | statement (call : Call)
  | claim (w : WorkerId) (now : Time) (ids : List JobId)
  | deletePermanentlyFailedJobs

def Single.run (db : Db) : Single → Db
  | .statement call => call.2.run db call.1
  | .claim w now ids => claimRows db w now (db.jobs.rows.filter fun r => ids.contains r.id)
  | .deletePermanentlyFailedJobs => CleanupTask.deletePermanentlyFailedJobs.execute db []

/-- Additions run as transactions instead. -/
def Single.adds : Single → Bool
  | .statement (_,.addJob ..) => true
  | .statement (_,.addJobs ..) => true
  | _ => false

inductive OpenTx
  | adding (a : Adding)
  | collecting (c : Collecting)

/-- The committed tables, the queue name that each job was last added with, the open
transactions and what they hold. -/
structure Sys where
  committed : Db
  asked : JobId → Option String := fun _ => none
  tx : TxId → Option OpenTx := fun _ => none
  locks : TableLocks NamedTable TxId := {}
  jobHolder : JobId → Option TxId := fun _ => none
  nameHolder : NamedTable × String → Option TxId := fun _ => none
  keyHolder : String → Option TxId := fun _ => none

/-- The names that a statement has inserted, of both tables. -/
def Change.allNames (c : Change) : List (NamedTable × String) :=
  (c.names .tasks).map (fun x => (.tasks,x)) ++ (c.names .jobQueues).map fun x => (.jobQueues,x)

/-- A row without payload and flags, which no statement writes alone. -/
structure Stamp where
  id : JobId
  jobQueueId : Option QueueId
  taskId : TaskId
  priority : ℤ
  runAt : Time
  attempts : ℤ
  maxAttempts : ℤ
  lastError : Option String
  updatedAt : Time
  key : Option String
  lock : Option Lock
  revision : ℤ
  deriving DecidableEq

def stamp (r : Job) : Stamp :=
  ⟨r.id,r.jobQueueId,r.taskId,r.priority,r.runAt,r.attempts,r.maxAttempts,r.lastError,r.updatedAt,r.key,r.lock,
    r.revision⟩

namespace Sys
variable (s : Sys) (t : TxId)

def view (a : Adding) : Db := overlay s.committed a.mine a.written

def setTx (x : OpenTx) : Sys := { s with tx := Function.update s.tx t (some x) }

def finish (db : Db) (asked : JobId → Option String) : Sys where
  committed := db
  asked := asked
  tx := Function.update s.tx t none
  locks := s.locks.release t
  jobHolder := vacate s.jobHolder t
  nameHolder := vacate s.nameHolder t
  keyHolder := vacate s.keyHolder t

/-- `INSERT` takes a ROW EXCLUSIVE lock. -/
def admits (st : AddStatement) : Bool := st.table.all (s.locks.admitsRow t)

def unopposed (c : Change) : Bool :=
  freeFor s.jobHolder t c.written.jobs && freeFor s.nameHolder t c.allNames && freeFor s.keyHolder t c.keys

def lockedFor : Option NamedTable → TableLocks NamedTable TxId
  | none => s.locks
  | some τ => s.locks.takeRow t τ

/-- A statement that writes a row that an open transaction has written would wait for it. -/
def keepsHeld (db : Db) : Bool :=
  s.committed.jobs.rows.all fun r =>
    (s.jobHolder r.id).isNone || db.jobs.rows.any fun r' => decide (stamp r' = stamp r)

end Sys

namespace Adding

def after (a : Adding) (c : Change) (rest : List AddStatement) : Adding where
  now := a.now
  mine := c.db
  written := a.written.append c.written
  asked i := (c.asked i).or (a.asked i)
  todo := rest

/-- The record of queue names once the transaction has committed. -/
def settled (a : Adding) (asked : JobId → Option String) (i : JobId) : Option String := (a.asked i).getD (asked i)

end Adding

namespace Sys
variable (s : Sys) (t : TxId)

def perform (a : Adding) (st : AddStatement) (c : Change) (rest : List AddStatement) : Sys where
  committed := advance s.committed c.db
  asked := s.asked
  tx := Function.update s.tx t (some (.adding (a.after c rest)))
  locks := s.lockedFor t st.table
  jobHolder := seize s.jobHolder t c.written.jobs
  nameHolder := seize s.nameHolder t c.allNames
  keyHolder := seize s.keyHolder t c.keys

def execute (a : Adding) : Option Sys :=
  match a.todo with
  | [] => none
  | st :: rest =>
    if s.admits t st then
      match st.run (s.view a) a.now with
      | .error _ => none
      | .ok c => if s.unopposed t c then some (s.perform t a st c rest) else none
    else none

end Sys

inductive TxAction
  | beginAdd (t : TxId) (now : Time)
  | call (t : TxId) (call : AddCall)
  | execute (t : TxId)
  | beginCleanup (t : TxId) (table : NamedTable) (taskIdentifiersToKeep : List String)
  | lockTable (t : TxId)
  | delete (t : TxId)
  | commit (t : TxId)
  | rollback (t : TxId)
  | single (c : Single)

def txStep (s : Sys) : TxAction → Option Sys
  | .beginAdd t now =>
    match s.tx t with
    | none => some (s.setTx t (.adding { now := now, mine := s.committed }))
    | some _ => none
  | .call t call =>
    match s.tx t, call.statements with
    | some (.adding a), .ok statements =>
      if a.todo.isEmpty then some (s.setTx t (.adding { a with todo := statements })) else none
    | _, _ => none
  | .execute t =>
    match s.tx t with
    | some (.adding a) => s.execute t a
    | _ => none
  | .beginCleanup t table keep =>
    match s.tx t with
    | none => some (s.setTx t (.collecting { table := table, taskIdentifiersToKeep := keep }))
    | some _ => none
  | .lockTable t =>
    match s.tx t with
    | some (.collecting c) =>
      if c.phase = .begun ∧ s.locks.admitsShare t c.table = true then
        some { s.setTx t (.collecting { c with phase := .locked }) with locks := s.locks.takeShare t c.table }
      else none
    | _ => none
  | .delete t =>
    match s.tx t with
    | some (.collecting c) =>
      -- the lock that the DELETE takes is weaker than the one held
      if c.phase = .locked then
        some (s.setTx t (.collecting
          { c with phase := .deleted (unusedIds s.committed c.taskIdentifiersToKeep c.table) }))
      else none
    | _ => none
  | .commit t =>
    match s.tx t with
    | some (.adding a) => if a.todo.isEmpty then some (s.finish t (s.view a) (a.settled s.asked)) else none
    | some (.collecting c) =>
      match c.phase with
      | .deleted ids => some (s.finish t (deleteEntries s.committed ids c.table) s.asked)
      | _ => none
    | none => none
  | .rollback t =>
    match s.tx t with
    | some _ => some (s.finish t s.committed s.asked)
    | none => none
  | .single c =>
    if !c.adds && s.keepsHeld (c.run s.committed) then some { s with committed := c.run s.committed } else none

inductive Moves (s : Sys) : Sys → Prop
  | beganAdd {t : TxId} {now : Time} (ht : s.tx t = none) :
      Moves s (s.setTx t (.adding { now := now, mine := s.committed }))
  | called {t : TxId} {a : Adding} {call : AddCall} {statements : List AddStatement}
      (ht : s.tx t = some (.adding a)) (hc : call.statements = .ok statements) :
      Moves s (s.setTx t (.adding { a with todo := statements }))
  | executed {t : TxId} {a : Adding} {st : AddStatement} {rest : List AddStatement} {c : Change}
      (ht : s.tx t = some (.adding a)) (htodo : a.todo = st :: rest) (hlock : s.admits t st = true)
      (hrun : st.run (s.view a) a.now = .ok c) (hfree : s.unopposed t c = true) :
      Moves s (s.perform t a st c rest)
  | beganCleanup {t : TxId} {table : NamedTable} {keep : List String} (ht : s.tx t = none) :
      Moves s (s.setTx t (.collecting { table := table, taskIdentifiersToKeep := keep }))
  | lockedTable {t : TxId} {c : Collecting} (ht : s.tx t = some (.collecting c)) (hp : c.phase = .begun)
      (hlock : s.locks.admitsShare t c.table = true) :
      Moves s { s.setTx t (.collecting { c with phase := .locked }) with locks := s.locks.takeShare t c.table }
  | deleted {t : TxId} {c : Collecting} (ht : s.tx t = some (.collecting c)) (hp : c.phase = .locked) :
      Moves s (s.setTx t (.collecting
        { c with phase := .deleted (unusedIds s.committed c.taskIdentifiersToKeep c.table) }))
  | committedAdd {t : TxId} {a : Adding} (ht : s.tx t = some (.adding a)) :
      Moves s (s.finish t (s.view a) (a.settled s.asked))
  | committedCleanup {t : TxId} {c : Collecting} {ids : List ℕ} (ht : s.tx t = some (.collecting c))
      (hp : c.phase = .deleted ids) : Moves s (s.finish t (deleteEntries s.committed ids c.table) s.asked)
  | rolledBack {t : TxId} : Moves s (s.finish t s.committed s.asked)
  | single {c : Single} (ha : c.adds = false) (hk : s.keepsHeld (c.run s.committed) = true) :
      Moves s { s with committed := c.run s.committed }

theorem moves_execute {s s' : Sys} {t : TxId} {a : Adding} (ht : s.tx t = some (.adding a)) :
    s.execute t a = some s' → Moves s s' := by
  fun_cases Sys.execute s t a <;> rintro ⟨⟩
  case case3 htodo hlock c hrun hfree => exact .executed ht htodo hlock hrun hfree

theorem moves_of_txStep {s s' : Sys} {action : TxAction} : txStep s action = some s' → Moves s s' := by
  fun_cases txStep s action <;> intro h <;> try cases h
  case case1 ht => exact .beganAdd ht
  case case3 hc ht _ => exact .called ht hc
  case case6 ht => exact moves_execute ht h
  case case8 ht => exact .beganCleanup ht
  case case10 ht hg => exact .lockedTable ht hg.1 hg.2
  case case13 ht hp => exact .deleted ht hp
  case case16 ht _ => exact .committedAdd ht
  case case18 ht ids hp => exact .committedCleanup ht hp
  case case21 => exact .rolledBack
  case case23 hg =>
    simp only [Bool.and_eq_true,Bool.not_eq_true'] at hg
    exact .single hg.1 hg.2

end GraphileWorker.Maintenance
