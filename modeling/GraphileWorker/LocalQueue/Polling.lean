import GraphileWorker.LocalQueue.Conservation

/-! # The poll interval of the fetch loop

A watch beside the queue is due from an empty or failed result on, until a sleep of the loop
has elapsed, and it stops when another task pulses, releases or changes the mode.
-/
namespace GraphileWorker.LocalQueue
open Foundation
variable {J : Type} {i : Input J} {thr : Tid → Thread J} {a : Action J}

inductive Watch
  | off
  /-- A fetch has started, and nothing has disturbed the queue since. -/
  | fetching
  /-- Its result was empty or an error, and no sleep has elapsed since. -/
  | due
  | rested
  deriving DecidableEq

/-- Threads that pulse, release, or notify after a change of the mode. -/
def Thread.signals : Thread J → Bool
  | .cacheNotify | .drainedNotify _ => true
  | .releaseStart | .releaseMode | .releaseDelay | .releaseAbortNotify | .releaseStateNotify | .releaseTimer
  | .releaseWait | .releaseCheck _ | .releaseCreated _ | .releaseParked _ | .releaseTimerAgain
  | .releaseDelayTask | .returning .release _ => true
  | .pulse _ | .pulseActive | .pulseCounter | .pulseCompare _ | .pulseAbortNotify | .pulseMode
  | .pulsePolling | .pulseDelay | .pulseAgain | .pulseNotify => true
  | _ => false

/-- A step of a pulse or a release, or a change of the mode by another task. -/
def disturbs (s : State J) (a : Action J) (s' : State J) : Bool :=
  match a with
  | .loop _ | .spawnTimer _ | .spawnDelay _ | .die _ | .start _ (.getJob _) => false
  | .start _ .release | .start _ (.pulse _) | .cancel _ => true
  | .thread t _ => (s.thr t).signals || !decide (s'.sh.mode = s.sh.mode)

def Watch.next (s : State J) (a : Action J) (w : Watch) : Watch :=
  match s.loop, a with
  | .fetchTry, .loop (.boundary true) => if w = .due then .due else .fetching
  | .fetchSql, .loop (.batch r) => if w = .fetching ∧ (r.getD []).isEmpty then .due else .off
  | .select _, .loop .elapsed | .selectParked _, .loop .elapsed => if w = .due then .rested else w
  | _, _ => w

def watchStep (cfg : Config) (p : State J × Watch) (a : Action J) : Option (State J × Watch) :=
  (step cfg p.1 a).map fun s' => (s',if disturbs p.1 a s' then .off else p.2.next p.1 a)

/-- While the watch is due, the sleep is over when the select polls it for the first time. -/
def elapsedFirst (p : State J × Watch) (a : Action J) : Bool :=
  match p.2, p.1.loop, a with
  | .due, .select _, .loop .tick => false
  | _, _, _ => true

variable {cfg : Config} {sh sh' : Shared J} {s s' : State J} {t : Tid} {th th' : Thread J} {pc pc' : LoopPc J}
  {w : Watch}

def Thread.delays : Thread J → Bool
  | .delayStart | .delayCreated _ | .delayParked _ | .delayClear _ _ | .delayNotify _ _ | .delayAborted
  | .delayExpired _ => true
  | _ => false

def LoopPc.delays : LoopPc J → Bool
  | .bailSet | .bailEnd | .bailNotify | .delayThreshold _ | .delayActivate _ | .delayForget _ | .delaySpawn _
  | .delayReplace _ _ => true
  | _ => false

structure NoDelay (sh : Shared J) : Prop where
  inactive : sh.delayActive = false
  unwanted : sh.delayFetchOnComplete = false

theorem loopStep_noDelay (hd : cfg.refetchDelay = none) (hn : NoDelay sh)
    (hp : pc.delays = false) (h : loopStep cfg sh pc i = some (sh',pc')) : NoDelay sh' ∧ pc'.delays = false := by
  obtain ⟨hi,hu⟩ := hn
  cases loopStep_cases h with
  | fetchDelayed ha =>
    rw [hi] at ha
    cases ha
  | fetchNotify r => exact ⟨⟨hi,hu⟩,afterResult_not (fun _ => rfl) rfl rfl (Or.inl hd)⟩
  | releasedKept last | releasedNotify last => exact ⟨⟨hi,hu⟩,afterReleased_not rfl rfl _⟩
  | takeDelayTop | takeDelaySleep => exact ⟨⟨hi,rfl⟩,rfl⟩
  | _ => first | exact ⟨⟨hi,hu⟩,rfl⟩ | cases hp

theorem returnStep_quiet {who : Caller} {pc : ReturnPc} (h : ReturnStepped sh t who pc i sh' th) :
    th.delays = false ∧ (NoDelay sh → NoDelay sh') ∧ sh'.fetchAgain = sh.fetchAgain := by
  cases h with
  | _ => exact ⟨rfl,fun hn => ⟨hn.inactive,hn.unwanted⟩,rfl⟩

theorem threadStep_quiet (hd : th.delays = false) (h : threadStep sh t th i = some (sh',th')) :
    th'.delays = false ∧ (NoDelay sh → NoDelay sh') ∧ (th.signals = false → sh'.fetchAgain = sh.fetchAgain) := by
  cases threadStep_cases h with
  | returning _ _ _ _ _ hr =>
    obtain ⟨hth,hn,hf⟩ := returnStep_quiet hr
    exact ⟨hth,hn,fun _ => hf⟩
  | releaseDelay => exact ⟨rfl,fun hn => ⟨rfl,hn.unwanted⟩,fun _ => rfl⟩
  | pulseAgain => exact ⟨rfl,fun hn => ⟨hn.inactive,hn.unwanted⟩,nofun⟩
  | _ => first | exact ⟨rfl,fun hn => ⟨hn.inactive,hn.unwanted⟩,fun _ => rfl⟩ | cases hd

theorem abandon_quiet (h : abandon sh th = some sh') :
    (NoDelay sh → NoDelay sh') ∧ sh'.fetchAgain = sh.fetchAgain ∧ sh'.mode = sh.mode := by
  cases abandon_cases h with
  | _ => exact ⟨fun hn => ⟨hn.inactive,hn.unwanted⟩,rfl,rfl⟩

/-- Counters at which `set_fetch_again(false)` of the running fetch is done. -/
def LoopPc.cleared : LoopPc J → Bool
  | .fetchReset | .fetchSql => true
  | _ => false

/-- From an empty result to the select that waits for the sleep. -/
def LoopPc.resting : LoopPc J → Bool
  | .fetchDropGuard r | .fetchEnd r | .fetchNotify r => (r.getD []).isEmpty
  | .afterFetch | .takeAgain | .takeDelay false | .armSleep | .select _ => true
  | _ => false

/-- Where the loop goes when it does not find the mode `Polling`. -/
def LoopPc.barred : LoopPc J → Bool
  | .checked m => decide (m ≠ .polling)
  | .top | .unfetchable _ | .created _ | .parked _ | .finish | .finishNotify | .done => true
  | _ => false

structure Due (sh : Shared J) (pc : LoopPc J) : Prop where
  again : sh.fetchAgain = false
  where_ : pc.resting = true ∨ sh.mode ≠ .polling ∧ pc.barred = true

theorem resting_afterResult (hc : cfg.continuous = true) (hd : cfg.refetchDelay = none)
    {r : Option (List (Claim J))} (hr : (r.getD []).isEmpty = true) : afterResult cfg r = .afterFetch := by
  cases r with
  | none => rfl
  | some jobs =>
    have hj : jobs = [] := List.isEmpty_iff.mp hr
    simp [afterResult,hd,afterDelay,hj,hc]

theorem Due.loopStep (hc : cfg.continuous = true) (hd : cfg.refetchDelay = none) (hn : NoDelay sh)
    (hs : ∀ b, pc ≠ .select b) (hdue : Due sh pc) (h : loopStep cfg sh pc i = some (sh',pc')) : Due sh' pc' := by
  obtain ⟨hf,hw⟩ := hdue
  cases loopStep_cases h with
  | fetchDropGuard r | fetchEnd r => exact ⟨hf,hw⟩
  | fetchNotify r =>
    rcases hw with hr | ⟨_,hb⟩
    · exact ⟨hf,Or.inl (by rw [resting_afterResult hc hd hr]; rfl)⟩
    · cases hb
  | afterFetchPolling | takeDelaySleep | armSleep => exact ⟨hf,Or.inl rfl⟩
  | afterFetchOnce _ hcont =>
    rw [hc] at hcont
    cases hcont
  | afterFetchOther hm => exact ⟨hf,Or.inr ⟨hm,rfl⟩⟩
  | takeAgain => exact ⟨rfl,Or.inl (by rw [hf]; rfl)⟩
  | takeDelayTop again ha =>
    cases again with
    | true => rcases hw with hr | ⟨_,hb⟩ <;> contradiction
    | false =>
      rw [Bool.false_or,hn.unwanted] at ha
      cases ha
  | selectElapsed b | selectReady b | selectParked b => exact absurd rfl (hs b)
  -- outside of `Polling` the loop goes round without a fetch
  | topReleased | checkedWait | unfetchable | createdReady | createdParked | parked | finish | finishNotify =>
    rcases hw with hr | ⟨hm,_⟩
    · cases hr
    · exact ⟨hf,Or.inr ⟨hm,rfl⟩⟩
  | top =>
    rcases hw with hr | ⟨hm,_⟩
    · cases hr
    · exact ⟨hf,Or.inr ⟨hm,decide_eq_true hm⟩⟩
  | _ => rcases hw with hr | ⟨_,hb⟩ <;> contradiction

structure PollInv (s : State J) (w : Watch) : Prop where
  noDelay : NoDelay s.sh
  threads : ∀ t, (s.thr t).delays = false
  loop : s.loop.delays = false
  cleared : w = .fetching → s.loop.cleared = true → s.sh.fetchAgain = false
  due : w = .due → Due s.sh s.loop

theorem PollInv.other {w' : Watch} (hi : PollInv s w) (hn : NoDelay sh') (ht : ∀ t, (thr t).delays = false)
    (hw : w' = .off ∨ w' = w ∧ sh'.fetchAgain = s.sh.fetchAgain ∧ sh'.mode = s.sh.mode) :
    PollInv ⟨sh',s.loop,thr⟩ w' := by
  rcases hw with rfl | ⟨rfl,hf,hm⟩
  · exact ⟨hn,ht,hi.loop,nofun,nofun⟩
  · refine ⟨hn,ht,hi.loop,fun hw hc => hf.trans (hi.cleared hw hc),fun hw => ?_⟩
    obtain ⟨ha,hr⟩ := hi.due hw
    exact ⟨hf.trans ha,hm ▸ hr⟩

theorem Watch.next_fetching (h : w.next s a = .fetching) :
    w = .fetching ∨ s.loop = .fetchTry ∧ a = .loop (.boundary true) := by
  unfold Watch.next at h
  split at h
  · next hl => exact Or.inr ⟨hl,rfl⟩
  · split at h <;> cases h
  · split at h
    · cases h
    · exact Or.inl h
  · split at h
    · cases h
    · exact Or.inl h
  · exact Or.inl h

theorem Watch.next_due (h : w.next s a = .due) : (w = .due ∧ ∀ b, s.loop = .select b → a ≠ .loop .elapsed) ∨
    ∃ r, w = .fetching ∧ s.loop = .fetchSql ∧ a = .loop (.batch r) ∧ (r.getD []).isEmpty = true := by
  unfold Watch.next at h
  split at h
  · next hl =>
    split at h
    · next hw => exact Or.inl ⟨hw,fun b hb => by rw [hl] at hb; cases hb⟩
    · cases h
  · next r hl =>
    split at h
    · next hw => exact Or.inr ⟨r,hw.1,hl,rfl,hw.2⟩
    · cases h
  · split at h
    · cases h
    · next hw => exact absurd h hw
  · split at h
    · cases h
    · next hw => exact absurd h hw
  · next hs _ => exact Or.inl ⟨h,fun b hb ha => hs b hb ha⟩

theorem loopStep_cleared (h : loopStep cfg sh pc i = some (sh',pc')) (hp : pc'.cleared = true) :
    sh'.fetchAgain = false ∨ pc.cleared = true ∧ sh'.fetchAgain = sh.fetchAgain := by
  cases loopStep_cases h with
  | fetchClear => exact Or.inl rfl
  | fetchReset => exact Or.inr ⟨rfl,rfl⟩
  | fetchNotify r =>
    rw [afterResult_not (f := LoopPc.cleared) (fun _ => rfl) rfl rfl (Or.inr fun _ => rfl)] at hp
    cases hp
  | delayReplace t jobs =>
    rw [afterDelay_not (f := LoopPc.cleared) (fun _ => rfl) rfl rfl] at hp
    cases hp
  | releasedKept last | releasedNotify last =>
    rw [afterReleased_not (f := LoopPc.cleared) rfl rfl] at hp
    cases hp
  | _ => cases hp

theorem PollInv.loop_step (hc : cfg.continuous = true) (hd : cfg.refetchDelay = none)
    (hi : PollInv s w) (hok : elapsedFirst (s,w) (.loop i) = true) (h : loopStep cfg s.sh s.loop i = some (sh',pc)) :
    PollInv ⟨sh',pc,s.thr⟩ (w.next s (.loop i)) := by
  obtain ⟨hn,hp⟩ := loopStep_noDelay hd hi.noDelay hi.loop h
  refine ⟨hn,hi.threads,hp,fun hw hcl => ?_,fun hw => ?_⟩
  · rcases Watch.next_fetching hw with rfl | ⟨hl,ha⟩
    · rcases loopStep_cleared h hcl with hf | ⟨hpc,hf⟩
      · exact hf
      · exact hf.trans (hi.cleared rfl hpc)
    · cases ha
      rw [hl] at h
      cases h
      cases hcl
  · rcases Watch.next_due hw with ⟨rfl,hs⟩ | ⟨r,rfl,hl,ha,hr⟩
    · refine (hi.due rfl).loopStep hc hd hi.noDelay (fun b hb => ?_) h
      -- the select is polled with the sleep over, or it is not polled
      cases i with
      | tick =>
        simp [elapsedFirst,hb] at hok
      | elapsed => exact hs b hb rfl
      | _ => rw [hb] at h; cases h
    · cases ha
      have hf : s.sh.fetchAgain = false := hi.cleared rfl (by rw [hl]; rfl)
      rw [hl] at h
      cases r with
      | none =>
        cases h
        exact ⟨hf,Or.inl rfl⟩
      | some jobs =>
        cases h
        have hj : jobs = [] := List.isEmpty_iff.mp hr
        exact ⟨hf,Or.inl (by rw [hj]; rfl)⟩

theorem next_of_not_loop (h : ∀ i, a ≠ .loop i) : w.next s a = w := by
  unfold Watch.next
  split
  all_goals first | rfl | exact absurd rfl (h _)

theorem delays_update (h : ∀ t, (thr t).delays = false) (ht : th.delays = false) :
    ∀ u, (Function.update thr t th u).delays = false :=
  (Function.forall_update_iff thr fun _ th => th.delays = false).mpr ⟨ht,fun u _ => h u⟩

theorem PollInv.step (hc : cfg.continuous = true) (hd : cfg.refetchDelay = none)
    (hi : PollInv s w) (hok : elapsedFirst (s,w) a = true) (h : step cfg s a = some s') :
    PollInv s' (if disturbs s a s' then .off else w.next s a) := by
  cases step_cases h with
  | loop i sh pc hl => exact hi.loop_step hc hd hok hl
  | spawnTimer t mx hl ht =>
    have hw : w.next s (.spawnTimer t) = w := by simp [Watch.next,hl]
    rw [hw]
    refine ⟨hi.noDelay,delays_update hi.threads rfl,rfl,fun _ h => (by cases h),fun hdue => ?_⟩
    obtain ⟨_,hr | ⟨_,hb⟩⟩ := hi.due hdue
    · rw [hl] at hr
      cases hr
    · rw [hl] at hb
      cases hb
  | spawnDelay t jobs hl ht =>
    have hp := hi.loop
    rw [hl] at hp
    cases hp
  | start t c ht =>
    refine hi.other hi.noDelay (delays_update hi.threads (by cases c <;> rfl)) ?_
    cases c with
    | getJob skip => exact Or.inr ⟨next_of_not_loop nofun,rfl,rfl⟩
    | release | pulse n => exact Or.inl rfl
  | thread t i sh th hp =>
    obtain ⟨hth,hn,hf⟩ := threadStep_quiet (hi.threads t) hp
    refine hi.other (hn hi.noDelay) (delays_update hi.threads hth) ?_
    split
    · exact Or.inl rfl
    · next hq =>
      have hq' : ¬((s.thr t).signals || !decide (sh.mode = s.sh.mode)) = true := hq
      simp only [Bool.or_eq_true,Bool.not_eq_true',decide_eq_false_iff_not,not_or,not_not,Bool.not_eq_true] at hq'
      exact Or.inr ⟨next_of_not_loop nofun,hf hq'.1,hq'.2⟩
  | die t sh ha hp =>
    obtain ⟨hn,hf,hm⟩ := abandon_quiet hp
    exact hi.other (hn hi.noDelay) (delays_update hi.threads rfl) (Or.inr ⟨next_of_not_loop nofun,hf,hm⟩)
  | cancel t sh ha hp =>
    obtain ⟨hn,_,_⟩ := abandon_quiet hp
    exact hi.other (hn hi.noDelay) (delays_update hi.threads rfl) (Or.inl rfl)

/-- If the sleep after an empty or failed fetch is over when the select polls it first, no fetch statement
starts while the watch is due. -/
theorem poll_interval_honoured (hc : cfg.continuous = true) (hd : cfg.refetchDelay = none)
    (h : Reaches (watchStep cfg) (fun p a => elapsedFirst p a = true) (initial,.off) (s,w)) :
    ¬(w = .due ∧ s.loop = .fetchSql) := by
  have hI := h.invariant (I := fun p => PollInv p.1 p.2) ?_
    (show PollInv initial .off from ⟨⟨rfl,rfl⟩,fun _ => rfl,rfl,nofun,nofun⟩)
  · rintro ⟨hw,hl⟩
    obtain ⟨_,hr | ⟨_,hb⟩⟩ := hI.due hw
    · rw [hl] at hr
      cases hr
    · rw [hl] at hb
      cases hb
  · rintro ⟨u,v⟩ a ⟨u',v'⟩ hok hs hi
    obtain ⟨u₁,hu,he⟩ := Option.map_eq_some_iff.mp hs
    cases he
    exact hi.step hc hd hok hu

def restedRun : List (Action ℕ) :=
  firstFetch [] ++ loopTicks 7 ++ [Action.loop .elapsed] ++ loopTicks 2 ++ [Action.loop (.boundary true)] ++ loopTicks 4

def restlessRun : List (Action ℕ) :=
  firstFetch [] ++ loopTicks 10 ++ [Action.loop (.boundary true)] ++ loopTicks 4

theorem rested_run_honours : ∃ p : State ℕ × Watch,
    Reaches (watchStep {}) (fun p a => elapsedFirst p a = true) (initial,.off) p ∧
    p.1.loop = .fetchSql ∧ ¬(p.2 = .due ∧ p.1.loop = .fetchSql) := by
  obtain ⟨p,hr,hf⟩ : ∃ p, Reaches (watchStep {}) (fun p a => elapsedFirst p a = true) (initial,.off) p ∧
      p.1.loop.isFetchSql = true := exists_reaches_of_exec restedRun (by decide)
  exact ⟨p,hr,LoopPc.isFetchSql_iff.mp hf,poll_interval_honoured rfl rfl hr⟩

/-- With nothing but the loop moving, the second statement starts while the sleep is still running. -/
theorem empty_fetch_repeats_at_once : ∃ p : State ℕ × Watch,
    Reaches (watchStep {}) (fun _ _ => True) (initial,.off) p ∧ p.2 = .due ∧ p.1.loop = .fetchSql := by
  simp only [← LoopPc.isFetchSql_iff]
  exact exists_reaches_of_exec restlessRun (by decide)

end GraphileWorker.LocalQueue
