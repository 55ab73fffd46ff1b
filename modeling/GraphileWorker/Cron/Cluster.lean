import GraphileWorker.Cron.Schedule
import GraphileWorker.Foundation.Runs

/-! # Cron runners that share a database

`run_until_error` at the grain of single statements. A statement may be refused, commit and
be answered, or commit and lose its answer; one that was sent may be executed again later. The
ledgers `fired`, `examined` and `ticked` are read by no branch.
-/
namespace GraphileWorker.Cron
open Database Foundation

inductive Delivery
  | refused
  | answered
  | lost
  deriving DecidableEq

inductive RunnerPc
  | starting
  | reading (start : Instant)
  | registering (start : Instant) (items : List (Crontab × Instant)) (unknown : List String)
  /-- The `while` of the backfill is about to compare `ts` with `start`. -/
  | backfilling (start ts : Instant) (items : List (Crontab × Instant))
  | sleeping (ts : Instant)
  | retrying
  | panicked

/-- A runner with what its current `run_until_error` has looked at: when it
started, the entries it backfills, and the minutes of its two loops. -/
structure RunnerState where
  pc : RunnerPc := .starting
  start : Instant := 0
  items : List (Crontab × Instant) := []
  examined : List Instant := []
  ticked : List Instant := []

inductive RunnerAction
  | start (now : Instant)
  | read (ok : Bool)
  | insert (d : Delivery)
  /-- One round of the `while` loop; `now` is the clock of the database. -/
  | backfill (now : Time) (d : Delivery)
  | wake (now : Instant) (dbNow : Time) (d : Delivery)
  | retry

structure Call where
  jobs : List CrontabJob
  ts : Instant

structure Cluster (R : Type) where
  store : Store
  runners : R → RunnerState := fun _ => {}
  sent : List Call := []
  fired : List (String × Instant) := []

inductive Action (R : Type)
  | runner (r : R) (action : RunnerAction)
  /-- A statement that was sent before is executed once more. -/
  | again (k : ℕ) (now : Time)

def insertUnknown (start : Instant) (known : List KnownCrontab) (identifier : String) : List KnownCrontab :=
  if known.any fun k => k.identifier == identifier then known
  else known ++ [⟨identifier,start / 1000 * 1000,none⟩]

def Call.fires (call : Call) (locked : List String) : List (String × Instant) :=
  (call.jobs.filter fun job => locked.contains job.identifier).map fun job => (job.identifier,call.ts)

namespace Cluster
variable {R : Type}

/-- Executes a statement; one that raises an error changes nothing. -/
def execute (s : Cluster R) (call : Call) (now : Time) : Cluster R × Bool :=
  match cronStatement s.store call.jobs call.ts now with
  | .ok (store,locked) => ({ s with store := store, fired := s.fired ++ call.fires locked },true)
  | .error _ => (s,false)

def send (s : Cluster R) (call : Call) (now : Time) : Delivery → Cluster R × Bool
  | .refused => ({ s with sent := s.sent ++ [call] },false)
  | .answered => ({ s with sent := s.sent ++ [call] } : Cluster R).execute call now
  | .lost => ((({ s with sent := s.sent ++ [call] } : Cluster R).execute call now).1,false)

variable {s : Cluster R}

@[simp] theorem execute_runners (call : Call) (now : Time) : (s.execute call now).1.runners = s.runners := by
  unfold execute
  split <;> rfl

@[simp] theorem execute_sent (call : Call) (now : Time) : (s.execute call now).1.sent = s.sent := by
  unfold execute
  split <;> rfl

@[simp] theorem send_runners (call : Call) (now : Time) (d : Delivery) :
    (s.send call now d).1.runners = s.runners := by
  cases d with
  | refused => rfl
  | answered | lost => exact execute_runners call now

@[simp] theorem send_sent (call : Call) (now : Time) (d : Delivery) :
    (s.send call now d).1.sent = s.sent ++ [call] := by
  cases d with
  | refused => rfl
  | answered | lost => exact execute_sent call now

end Cluster

def afterBackfill (z : Zone) (start : Instant) : RunnerPc :=
  ((roundDateMinute z start true).map RunnerPc.sleeping).getD .panicked

def enterBackfill (z : Zone) (start : Instant) (items : List (Crontab × Instant)) : RunnerPc :=
  match largestBackfill items with
  | none => afterBackfill z start
  | some secs =>
    match roundDateMinute z (start - secs * oneSecond) true with
    | none => .panicked
    | some ts => .backfilling start ts items

section
variable (debugText : Instant → String)

def backfillCall (z : Zone) (cfg : Config) (start : Instant) (items : List (Crontab × Instant)) (ts : Instant) : Call :=
  ⟨(toBackfill z cfg start items ts).map fun c => .forCron debugText c ts true,ts⟩

def tickCall (z : Zone) (cfg : Config) (ts : Instant) : Call :=
  ⟨(collectJobsToSchedule z cfg ts).map fun c => .forCron debugText c ts false,ts⟩

variable {R : Type} [DecidableEq R] (z : R → Zone) (cfg : R → Config)

def Cluster.put (s : Cluster R) (r : R) (q : RunnerState) : Cluster R :=
  { s with runners := Function.update s.runners r q }

@[simp] theorem Cluster.put_runners_self (s : Cluster R) (r : R) (q : RunnerState) : (s.put r q).runners r = q :=
  Function.update_self ..

/-- Sends a statement unless it has no jobs, and goes to `next` if that succeeds. -/
def Cluster.schedule (s : Cluster R) (r : R) (q : RunnerState) (call : Call) (now : Time) (d : Delivery)
    (next : RunnerPc) : Cluster R :=
  if call.jobs.isEmpty then s.put r { q with pc := next }
  else (s.send call now d).1.put r { q with pc := if (s.send call now d).2 then next else .retrying }

def runnerStep (s : Cluster R) (r : R) (q : RunnerState) : RunnerPc → RunnerAction → Option (Cluster R)
  | .starting, .start now => some (s.put r { pc := .reading now, start := now })
  | .reading start, .read ok =>
    if ok then
      let found := getBackfillAndUnknownItems (cfg r).crontabs s.store.known
      some (s.put r { q with
        pc := if found.2.isEmpty then enterBackfill (z r) start found.1 else .registering start found.1 found.2
        items := found.1 })
    else some (s.put r { q with pc := .retrying })
  | .registering start items unknown, .insert d =>
    let known := if d = .refused then s.store.known else unknown.foldl (insertUnknown start) s.store.known
    some (({ s with store := { s.store with known := known } } : Cluster R).put r
      { q with pc := if d = .answered then enterBackfill (z r) start items else .retrying })
  | .backfilling start ts items, .backfill now d =>
    if ts < start then
      some (s.schedule r { q with examined := q.examined ++ [ts] }
        (backfillCall debugText (z r) (cfg r) start items ts) now d (.backfilling start (ts + oneMinute) items))
    else some (s.put r { q with pc := afterBackfill (z r) start })
  | .sleeping ts, .wake now dbNow d =>
    match roundDateMinute (z r) now false with
    | none => some (s.put r { q with pc := .panicked })
    | some current =>
      if (current - ts).tdiv oneMinute < 0 then some s
      else some (s.schedule r { q with ticked := q.ticked ++ [ts] } (tickCall debugText (z r) (cfg r) ts) dbNow d
        (.sleeping (ts + oneMinute)))
  | .retrying, .retry => some (s.put r { q with pc := .starting })
  | _, _ => none

def clusterStep (s : Cluster R) : Action R → Option (Cluster R)
  | .runner r a => runnerStep debugText z cfg s r (s.runners r) (s.runners r).pc a
  | .again k now => s.sent[k]?.map fun call => (s.execute call now).1

end

theorem filterMap_sublist_map {α β : Type} {f : α → Option β} {g : α → β} (h : ∀ a b, f a = some b → b = g a)
    (l : List α) : (l.filterMap f).Sublist (l.map g) := by
  induction l with
  | nil => exact .slnil
  | cons a rest ih =>
    rw [List.filterMap_cons]
    split
    · exact ih.cons (g a)
    · next b hb =>
      rw [h a b hb]
      exact ih.cons_cons (g a)

def RunnerPc.items : RunnerPc → List (Crontab × Instant)
  | .registering _ items _ => items
  | .backfilling _ _ items => items
  | _ => []

inductive RunnerMove (z : Zone) (crontabs : List Crontab) (q : RunnerState) : RunnerState → Prop
  | start (now : Instant) (h : q.pc = .starting) : RunnerMove z crontabs q { pc := .reading now, start := now }
  | read (start : Instant) (items : List (Crontab × Instant)) (unknown : List String) (h : q.pc = .reading start)
      (hi : (items.map Prod.fst).Sublist crontabs) (pc : RunnerPc)
      (hpc : pc = enterBackfill z start items ∨ pc = .registering start items unknown) :
      RunnerMove z crontabs q { q with pc := pc, items := items }
  | registered (start : Instant) (items : List (Crontab × Instant)) (unknown : List String)
      (h : q.pc = .registering start items unknown) :
      RunnerMove z crontabs q { q with pc := enterBackfill z start items }
  | backfill (start ts : Instant) (items : List (Crontab × Instant)) (h : q.pc = .backfilling start ts items)
      (hts : ts < start) (pc : RunnerPc) (hpc : pc = .backfilling start (ts + oneMinute) items ∨ pc = .retrying) :
      RunnerMove z crontabs q { q with pc := pc, examined := q.examined ++ [ts] }
  | backfilled (start ts : Instant) (items : List (Crontab × Instant)) (h : q.pc = .backfilling start ts items)
      (hts : ¬ts < start) : RunnerMove z crontabs q { q with pc := afterBackfill z start }
  | tick (ts : Instant) (h : q.pc = .sleeping ts) (pc : RunnerPc)
      (hpc : pc = .sleeping (ts + oneMinute) ∨ pc = .retrying) :
      RunnerMove z crontabs q { q with pc := pc, ticked := q.ticked ++ [ts] }
  | failed : RunnerMove z crontabs q { q with pc := .retrying }
  | panicked : RunnerMove z crontabs q { q with pc := .panicked }
  | retry (h : q.pc = .retrying) : RunnerMove z crontabs q { q with pc := .starting }

section
variable {debugText : Instant → String} {R : Type} [DecidableEq R] {z : R → Zone} {cfg : R → Config}
variable {s s' : Cluster R}

theorem Cluster.schedule_runners (r : R) (q : RunnerState) (call : Call) (now : Time) (d : Delivery)
    (next : RunnerPc) : ∃ pc, (pc = next ∨ pc = .retrying) ∧
      (s.schedule r q call now d next).runners = Function.update s.runners r { q with pc := pc } := by
  unfold Cluster.schedule
  split
  · exact ⟨next,.inl rfl,rfl⟩
  · refine ⟨if (s.send call now d).2 then next else .retrying,?_,by simp [Cluster.put]⟩
    split
    · exact .inl rfl
    · exact .inr rfl

theorem backfillItems_sublist (crontabs : List Crontab) (known : List KnownCrontab) :
    ((getBackfillAndUnknownItems crontabs known).1.map Prod.fst).Sublist crontabs := by
  simp only [getBackfillAndUnknownItems,List.map_filterMap]
  rw [← List.map_id crontabs]
  nth_rewrite 1 [List.map_id]
  refine filterMap_sublist_map ?_ crontabs
  intro c d h
  obtain ⟨item,hi,rfl⟩ := Option.map_eq_some_iff.mp h
  obtain ⟨k,-,rfl⟩ := Option.map_eq_some_iff.mp hi
  rfl

inductive Schedules (debugText : Instant → String) (z : Zone) (cfg : Config) (q : RunnerState) : Call → Prop
  | backfill (start ts : Instant) (items : List (Crontab × Instant)) (h : q.pc = .backfilling start ts items) :
      Schedules debugText z cfg q (backfillCall debugText z cfg start items ts)
  | tick (ts : Instant) : Schedules debugText z cfg q (tickCall debugText z cfg ts)

inductive ClusterMove (debugText : Instant → String) (z : R → Zone) (cfg : R → Config) (s : Cluster R) (r : R) :
    Cluster R → Prop
  | stay : ClusterMove debugText z cfg s r s
  | put {q : RunnerState} (h : RunnerMove (z r) (cfg r).crontabs (s.runners r) q) :
      ClusterMove debugText z cfg s r (s.put r q)
  | register {q : RunnerState} (start : Instant) (unknown : List String) (d : Delivery)
      (h : RunnerMove (z r) (cfg r).crontabs (s.runners r) q) : ClusterMove debugText z cfg s r
        (({ s with store := { s.store with known :=
          if d = .refused then s.store.known else unknown.foldl (insertUnknown start) s.store.known } } : Cluster R).put
          r q)
  | schedule {q : RunnerState} {call : Call} (now : Time) (d : Delivery) {next : RunnerPc}
      (hc : Schedules debugText (z r) (cfg r) (s.runners r) call)
      (h : ∀ pc, pc = next ∨ pc = .retrying → RunnerMove (z r) (cfg r).crontabs (s.runners r) { q with pc := pc }) :
      ClusterMove debugText z cfg s r (s.schedule r q call now d next)

theorem runnerStep_move {r : R} {a : RunnerAction} {pc : RunnerPc} (hp : (s.runners r).pc = pc) :
    runnerStep debugText z cfg s r (s.runners r) pc a = some s' → ClusterMove debugText z cfg s r s' := by
  fun_cases runnerStep debugText z cfg s r (s.runners r) pc a <;> rintro ⟨⟩
  case case1 now => exact .put (.start now hp)
  case case2 start found =>
    refine .put (.read start found.1 found.2 hp (backfillItems_sublist _ _) _ ?_)
    split
    · exact .inl rfl
    · exact .inr rfl
  case case3 => exact .put .failed
  case case4 start items unknown d _ =>
    refine .register start unknown d ?_
    cases d with
    | answered => exact .registered start items unknown hp
    | refused | lost => exact .failed
  case case5 start ts items now d hts =>
    exact .schedule now d (.backfill start ts items hp) fun pc hpc => .backfill start ts items hp hts pc hpc
  case case6 start ts items now d hts => exact .put (.backfilled start ts items hp hts)
  case case7 => exact .put .panicked
  case case8 => exact .stay
  case case9 ts _ dbNow d _ _ _ => exact .schedule dbNow d (.tick ts) fun pc hpc => .tick ts hp pc hpc
  case case10 => exact .put (.retry hp)

theorem ClusterMove.runners {r : R} (h : ClusterMove debugText z cfg s r s') :
    s'.runners = s.runners ∨ ∃ q, RunnerMove (z r) (cfg r).crontabs (s.runners r) q ∧
      s'.runners = Function.update s.runners r q := by
  cases h with
  | stay => exact .inl rfl
  | put hm | register start unknown d hm => exact .inr ⟨_,hm,rfl⟩
  | schedule now d hc hm =>
    obtain ⟨pc,hpc,he⟩ := Cluster.schedule_runners (s := s) r _ _ now d _
    exact .inr ⟨_,hm pc hpc,he⟩

theorem clusterStep_runners {I : R → RunnerState → Prop}
    (hI : ∀ r q q', RunnerMove (z r) (cfg r).crontabs q q' → I r q → I r q') {a : Action R}
    (h : clusterStep debugText z cfg s a = some s') (hs : ∀ r, I r (s.runners r)) (r : R) : I r (s'.runners r) := by
  cases a with
  | runner r₀ a =>
    rcases (runnerStep_move rfl h).runners with he | ⟨q,hq,he⟩
    · rw [he]
      exact hs r
    · rw [he]
      by_cases hr : r = r₀
      · subst hr
        rw [Function.update_self]
        exact hI r _ _ hq (hs r)
      · rw [Function.update_of_ne hr]
        exact hs r
  | again k now =>
    obtain ⟨call,-,rfl⟩ := Option.map_eq_some_iff.mp h
    rw [Cluster.execute_runners]
    exact hs r

end

end GraphileWorker.Cron
