import GraphileWorker.Cron.Cluster

/-! # Panics of the cron loop

`round_date_minute` unwraps what it gets from the zone, so a runner panics when the minute of
what it rounds has no single offset.
-/
namespace GraphileWorker.Cron
open Foundation

/-- What is rounded when registration is over. -/
def firstRounded (start : Instant) (items : List (Crontab × Instant)) : Instant :=
  (largestBackfill items).elim start fun secs => start - secs * oneSecond

/-- The instant that an action makes a runner round. -/
def RunnerPc.rounded (crontabs : List Crontab) (known : List KnownCrontab) : RunnerPc → RunnerAction → Option Instant
  | .reading start, .read true =>
    let found := getBackfillAndUnknownItems crontabs known
    if found.2.isEmpty then some (firstRounded start found.1) else none
  | .registering start items _, .insert .answered => some (firstRounded start items)
  | .backfilling start ts _, .backfill _ _ => if ts < start then none else some start
  | .sleeping _, .wake now _ _ => some now
  | _, _ => none

def Cluster.rounded {R : Type} (cfg : R → Config) (s : Cluster R) : Action R → Option (R × Instant)
  | .runner r a => ((s.runners r).pc.rounded (cfg r).crontabs s.store.known a).map fun t => (r,t)
  | .again _ _ => none

variable {z : Zone} {start : Instant}

theorem roundDateMinute_eq_none {roundUp : Bool} : roundDateMinute z start roundUp = none ↔ ¬SingleMinute z start :=
  Option.not_isSome_iff_eq_none.symm.trans (not_congr roundDateMinute_isSome_iff)

theorem afterBackfill_panicked : afterBackfill z start = .panicked ↔ ¬SingleMinute z start := by
  have hi : roundDateMinute z start true = none ↔ _ := roundDateMinute_eq_none
  rw [← hi,afterBackfill]
  cases roundDateMinute z start true <;> simp

theorem enterBackfill_panicked {items : List (Crontab × Instant)} :
    enterBackfill z start items = .panicked ↔ ¬SingleMinute z (firstRounded start items) := by
  unfold enterBackfill firstRounded
  cases largestBackfill items with
  | none => exact afterBackfill_panicked
  | some secs =>
    have hi : roundDateMinute z (start - secs * oneSecond) true = none ↔ _ := roundDateMinute_eq_none
    rw [Option.elim_some,← hi]
    cases hr : roundDateMinute z (start - secs * oneSecond) true <;> simp [hr]

section
variable {debugText : Instant → String} {R : Type} [DecidableEq R] {z : R → Zone} {cfg : R → Config} {s s' : Cluster R}
  {r : R} {a : RunnerAction}

theorem schedule_not_panicked (q : RunnerState) (call : Call) (now : Database.Time) (d : Delivery) {next : RunnerPc}
    (h : next ≠ .panicked) : ((s.schedule r q call now d next).runners r).pc ≠ .panicked := by
  obtain ⟨pc,hpc,he⟩ := Cluster.schedule_runners (s := s) r q call now d next
  rw [he,Function.update_self]
  rcases hpc with rfl | rfl
  · exact h
  · exact nofun

theorem runnerStep_panicked {pc : RunnerPc} (hp : (s.runners r).pc = pc) (hn : pc ≠ .panicked) :
    runnerStep debugText z cfg s r (s.runners r) pc a = some s' → ((s'.runners r).pc = .panicked ↔
      ∃ t, pc.rounded (cfg r).crontabs s.store.known a = some t ∧ ¬SingleMinute (z r) t) := by
  fun_cases runnerStep debugText z cfg s r (s.runners r) pc a <;> rintro ⟨⟩
  case case1 | case10 => simp [RunnerPc.rounded]
  case case2 start found =>
    by_cases hu : found.2.isEmpty = true
    · simp [RunnerPc.rounded,found,hu,enterBackfill_panicked]
    · simp [RunnerPc.rounded,found,hu]
  case case3 start ok hok => simp [RunnerPc.rounded,hok]
  case case4 start items unknown d known =>
    cases d with
    | answered => simp [RunnerPc.rounded,enterBackfill_panicked]
    | refused | lost => simp [RunnerPc.rounded]
  case case5 start ts items now d hts =>
    have hnone : (RunnerPc.backfilling start ts items).rounded (cfg r).crontabs s.store.known (.backfill now d) = none :=
      if_pos hts
    rw [hnone]
    simpa using schedule_not_panicked _ _ now d fun h => by cases h
  case case6 start ts items now d hts => simp [RunnerPc.rounded,hts,afterBackfill_panicked]
  case case7 hr => simp [RunnerPc.rounded,roundDateMinute_eq_none.mp hr]
  case case8 hr _ => simp [RunnerPc.rounded,hp,roundDateMinute_isSome_iff.mp (Option.isSome_of_eq_some hr)]
  case case9 dbNow d _ hr _ =>
    simpa [RunnerPc.rounded,roundDateMinute_isSome_iff.mp (Option.isSome_of_eq_some hr)] using
      schedule_not_panicked _ _ dbNow d fun h => by cases h

theorem clusterStep_panicked {a : Action R} (hn : (s.runners r).pc ≠ .panicked)
    (h : clusterStep debugText z cfg s a = some s') : (s'.runners r).pc = .panicked ↔
      ∃ t, s.rounded cfg a = some (r,t) ∧ ¬SingleMinute (z r) t := by
  cases a with
  | runner r₀ a =>
    by_cases hr : r₀ = r
    · subst hr
      simpa [Cluster.rounded] using runnerStep_panicked rfl hn h
    · have hsame : s'.runners r = s.runners r := by
        rcases (runnerStep_move rfl h).runners with he | ⟨q,-,he⟩
        · rw [he]
        · rw [he,Function.update_of_ne (Ne.symm hr)]
      rw [hsame]
      simp [Cluster.rounded,hn,hr]
  | again k now =>
    obtain ⟨call,-,rfl⟩ := Option.map_eq_some_iff.mp h
    simpa [Cluster.rounded] using hn

end

/-- No runner panics in a run whose steps only round what has a single minute; any other step does panic. -/
theorem cron_never_panics {R : Type} [DecidableEq R] (debugText : Instant → String) (z : R → Zone) (cfg : R → Config) :
    (∀ store s, Reaches (clusterStep debugText z cfg) (fun s a => ∀ p ∈ s.rounded cfg a, SingleMinute (z p.1) p.2)
      { store := store } s → ∀ r, (s.runners r).pc ≠ .panicked) ∧
    ∀ s a s' r, (s.runners r).pc ≠ .panicked → clusterStep debugText z cfg s a = some s' →
      ((s'.runners r).pc = .panicked ↔ ∃ t, s.rounded cfg a = some (r,t) ∧ ¬SingleMinute (z r) t) := by
  refine ⟨fun store s h => ?_,fun s a s' r hn h => clusterStep_panicked hn h⟩
  refine h.invariant (I := fun s => ∀ r, (s.runners r).pc ≠ .panicked) ?_ nofun
  intro s a s' hok hs hn r hp
  obtain ⟨t,hround,hmany⟩ := (clusterStep_panicked (hn r) hs).mp hp
  exact hmany (hok (r,t) hround)

/-- Central European time in 2026: clocks go forward on 29 March and back on 25 October, at
one o'clock UTC. Both ends of the repeated hour are ambiguous. -/
def paris : Zone where
  offsetFromUtc u :=
    if u < 1774746000 * oneSecond ∨ 1792890000 * oneSecond ≤ u then 3600 * oneSecond else 7200 * oneSecond
  offsetFromLocal n :=
    let seconds := n / oneSecond
    if seconds ≤ 1774749600 then .single (3600 * oneSecond)
    else if seconds < 1774753200 then .none
    else if seconds < 1792893600 then .single (7200 * oneSecond)
    else if seconds ≤ 1792897200 then .ambiguous (3600 * oneSecond) (7200 * oneSecond)
    else .single (3600 * oneSecond)

def filled (hours minutes : ℕ) : Crontab where
  taskIdentifier := "task"
  options := { fill := some ⟨0,0,hours,minutes,0⟩ }

/-- A runner in Paris that starts at this second, finds this table of known entries and acts. -/
def parisRun (cfg : Config) (known : List KnownCrontab) (seconds : ℤ) (actions : List RunnerAction) :
    Option (Cluster Unit) :=
  exec (clusterStep (fun _ => "") (fun _ => paris) fun _ => cfg)
    (fun s a => ∀ p ∈ s.rounded (fun _ => cfg) a, SingleMinute paris p.2) { store := ⟨.empty,known⟩ }
    ((.start (seconds * oneSecond) :: .read true :: actions).map (.runner ()))

theorem later_hour_never_panics : ∃ s, parisRun ⟨[filled 0 1],true⟩ [⟨"task",0,none⟩] 1792899012
      [.backfill 0 .answered,.backfill 0 .answered,.wake (1792899060 * oneSecond) 0 .answered] = some s ∧
    (s.runners ()).ticked = [1792899060 * oneSecond] ∧ (s.runners ()).pc ≠ .panicked := by
  have h : (parisRun ⟨[filled 0 1],true⟩ [⟨"task",0,none⟩] 1792899012
      [.backfill 0 .answered,.backfill 0 .answered,.wake (1792899060 * oneSecond) 0 .answered]).map
        (fun s => (s.runners ()).ticked) = some [1792899060 * oneSecond] := by decide +kernel
  obtain ⟨s,hs,ht⟩ := Option.map_eq_some_iff.mp h
  exact ⟨s,hs,ht,(cron_never_panics _ (fun _ => paris) fun _ => ⟨[filled 0 1],true⟩).1 _ s (reaches_exec hs) ()⟩

def parisPc (cfg : Config) (known : List KnownCrontab) (seconds : ℤ) (actions : List RunnerAction) : Option RunnerPc :=
  (exec (clusterStep (fun _ => "") (fun _ => paris) fun _ => cfg) (fun _ _ => True) { store := ⟨.empty,known⟩ }
    ((.start (seconds * oneSecond) :: .read true :: actions).map (.runner ()))).map fun s => (s.runners ()).pc

/-- On 25 October 2026 a runner panics when it starts at 02:30:12 or at 03:00:30 local time, when it
wakes up at 02:00, and when it starts at 03:30:12 and backfills the last hour. -/
theorem fall_back_hour_panics :
    parisPc ⟨[],false⟩ [] 1792888212 [] = some .panicked ∧ parisPc ⟨[],true⟩ [] 1792888212 [] = some .panicked ∧
    parisPc ⟨[],false⟩ [] 1792893630 [] = some .panicked ∧
    parisPc ⟨[filled 1 0],false⟩ [] 1792886399 [.insert .answered,.wake (1792886400 * oneSecond) 0 .answered] =
      some .panicked ∧
    parisPc ⟨[filled 1 0],true⟩ [⟨"task",0,none⟩] 1792895412 [] = some .panicked :=
  ⟨rfl,rfl,rfl,rfl,rfl⟩

end GraphileWorker.Cron
