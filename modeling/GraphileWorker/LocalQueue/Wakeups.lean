import GraphileWorker.LocalQueue.Conservation
import GraphileWorker.Foundation.Ownership

/-! # Wakeups of the fetch loop

A refetch delay that ends stores a permit in `state_notify`, but `set_mode` calls
`notify_waiters`, which reaches a created waiter only. Runs here have no release.
-/
namespace GraphileWorker.LocalQueue
open Foundation GraphileWorker.Runtime
variable {J : Type} {i : Input J}

/-- Between the end of a refetch delay and its `notify_one`. -/
def Thread.endsDelay : Thread J → Bool
  | .delayNotify _ _ => true
  | _ => false

/-- Between a write of the mode or of the delay flag and the notification of it. -/
def Thread.notifies (th : Thread J) : Bool := th.broadcasts || th.endsDelay

/-- A `notify_waiters` of `set_mode` does not fall between the loop's look at a mode in
which it cannot fetch and the creation of its waiter, and it does not bring the
broadcast counter round to the snapshot of that waiter. -/
def inTime (s : State J) : Action J → Bool
  | .thread t _ => !(s.thr t).broadcasts || match s.loop with
    | .checked m | .unfetchable m => decide (m = .polling)
    | .created b | .parked b => decide ((s.sh.stateNotify.broadcast + 1) % counterModulus ≠ b)
    | _ => true
  | _ => true

variable {cfg : Config} {sh sh' : Shared J} {s s' : State J} {t : Tid} {th th' : Thread J} {pc pc' : LoopPc J}

/-- What a step of a thread does to the mode, the delay flag and `state_notify`. -/
inductive WakeMove : Shared J → Thread J → Shared J → Thread J → Prop
  | keep {sh sh' : Shared J} {th th' : Thread J} (hm : sh'.mode = sh.mode) (hd : sh'.delayActive = sh.delayActive)
      (hn : sh'.stateNotify = sh.stateNotify) (hf : sh'.fetchInProgress = sh.fetchInProgress)
      (hw : th.notifies = false) : WakeMove sh th sh' th'
  | poll {sh : Shared J} {th th' : Thread J} (hm : sh.mode ≠ .polling) (hw : th'.broadcasts = true) :
      WakeMove sh th { sh with mode := .polling } th'
  | expire {sh : Shared J} {th th' : Thread J} (hm : sh.mode = .waiting) :
      WakeMove sh th { sh with ttlReturnComplete := false, mode := .ttlExpired } th'
  | clear {sh : Shared J} {th th' : Thread J} (hw : th'.endsDelay = true) :
      WakeMove sh th { sh with delayActive := false } th'
  | one {sh : Shared J} {th th' : Thread J} :
      WakeMove sh th { sh with stateNotify := sh.stateNotify.notifyOne } th'
  | all {sh : Shared J} {th th' : Thread J} (hw : th.broadcasts = true) :
      WakeMove sh th { sh with stateNotify := sh.stateNotify.notifyWaiters } th'

theorem ne_of_not_keepsMode {m : Mode} (h : sh.keepsMode m = false) : sh.mode ≠ m := by
  intro he
  simp [Shared.keepsMode,he] at h

theorem returnStep_wake {who : Caller} {pc : ReturnPc} (h : ReturnStepped sh t who pc i sh' th') :
    sh'.mode = sh.mode ∧ sh'.delayActive = sh.delayActive ∧ sh'.stateNotify = sh.stateNotify ∧
      sh'.fetchInProgress = sh.fetchInProgress := by
  cases h with
  | _ => exact ⟨rfl,rfl,rfl,rfl⟩

theorem threadStep_wake (hr : th.releases = false) (h : threadStep sh t th i = some (sh',th')) :
    WakeMove sh th sh' th' := by
  cases threadStep_cases h with
  | cachePollingSet _ hk | drainedSet _ _ hk => exact .poll (ne_of_not_keepsMode hk) rfl
  | cacheNotify | drainedNotify => exact .all rfl
  | timerExpire _ hm => exact .expire hm
  | returning _ _ _ _ _ hs =>
    obtain ⟨hm,hd,hn,hf⟩ := returnStep_wake hs
    exact .keep hm hd hn hf rfl
  | delayClear => exact .clear rfl
  | delayNotifyAborted | delayNotifyExpired | pulseNotify => exact .one
  | _ => first | exact .keep rfl rfl rfl rfl rfl | cases hr

theorem abandon_wake (h : abandon sh th = some sh') : th.broadcasts = false ∧ WakeMove sh th sh' th' := by
  cases abandon_cases h with
  | _ => exact ⟨rfl,.keep rfl rfl rfl rfl rfl⟩

namespace WakeMove

theorem fetchInProgress (h : WakeMove sh th sh' th') : sh'.fetchInProgress = sh.fetchInProgress := by
  cases h with
  | keep hm hd hn hf => exact hf
  | poll | expire | clear | one | all => rfl

theorem sole {w : Option ℕ} (h : WakeMove sh th sh' th') (hs : sh.stateNotify.Sole w) : sh'.stateNotify.Sole w := by
  cases h with
  | keep hm hd hn => exact hn ▸ hs
  | poll | expire | clear => exact hs
  | one => exact hs.notifyOne
  | all => exact Notify.sole_notifyWaiters

theorem polling (h : WakeMove sh th sh' th') (hp : sh.mode = .polling) : sh'.mode = .polling := by
  cases h with
  | keep hm => exact hm.trans hp
  | poll => rfl
  | expire hm => rw [hp] at hm; cases hm
  | clear | one | all => exact hp

end WakeMove

/-- The loop has set `fetch_in_progress` and not cleared it. -/
def LoopPc.fetching : LoopPc J → Bool
  | .fetchDelayCheck | .bailSet | .bailEnd | .fetchClear | .fetchReset | .fetchSql | .fetchDropGuard _
  | .fetchEnd _ => true
  | _ => false

/-- From the look at the mode to the wait in the branch that does not fetch. -/
def LoopPc.watching : LoopPc J → Bool
  | .checked _ | .unfetchable _ | .created _ | .parked _ => true
  | _ => false

/-- The snapshot of a loop that waits in that branch. -/
def LoopPc.parkedAt : LoopPc J → Option ℕ
  | .parked b => some b
  | _ => none

theorem LoopPc.parkedAt_iff {b : ℕ} : pc.parkedAt = some b ↔ pc = .parked b := by
  cases pc <;> simp [LoopPc.parkedAt]

theorem loopStep_fetching (hf : sh.fetchInProgress = pc.fetching)
    (h : loopStep cfg sh pc i = some (sh',pc')) : sh'.fetchInProgress = pc'.fetching := by
  cases loopStep_cases h with
  | fetchNotify r => exact hf.trans (afterResult_not (fun _ => rfl) rfl rfl (Or.inr fun _ => rfl)).symm
  | delayReplace t jobs => exact hf.trans (afterDelay_not (fun _ => rfl) rfl rfl _).symm
  | releasedKept last | releasedNotify last => exact hf.trans (afterReleased_not rfl rfl _).symm
  | _ => first | exact hf | rfl

theorem loopStep_sole (hs : sh.stateNotify.Sole pc.waitsAt)
    (h : loopStep cfg sh pc i = some (sh',pc')) : sh'.stateNotify.Sole pc'.waitsAt := by
  cases loopStep_cases h with
  | startNotify | waitingNotify | releasedNotify => exact Notify.sole_notifyWaiters
  | bailNotify | fetchNotify => exact (Notify.Sole.notifyOne hs).any
  | createdReady b hw | createdParked b hw | selectReady b hw | selectParked b hw =>
    have hsole := hs.registerWaiter (b := b)
    rwa [hw] at hsole
  | parked b n hn | parkedReady b n hn => exact Notify.Sole.tryComplete hs hn
  | parkedElapsed => exact Notify.Sole.dropWaiter hs
  | _ => exact Notify.Sole.any hs

theorem loopStep_watching (h : loopStep cfg sh pc i = some (sh',pc')) (hw : pc'.watching = true) :
    pc = .top ∨ pc.watching = true := by
  cases loopStep_cases h with
  | top => exact Or.inl rfl
  | checkedWait | unfetchable | createdParked => exact Or.inr rfl
  | fetchNotify r =>
    rw [afterResult_not (f := LoopPc.watching) (fun _ => rfl) rfl rfl (Or.inr fun _ => rfl)] at hw
    cases hw
  | delayReplace t jobs =>
    rw [afterDelay_not (f := LoopPc.watching) (fun _ => rfl) rfl rfl] at hw
    cases hw
  | releasedKept last | releasedNotify last =>
    rw [afterReleased_not (f := LoopPc.watching) rfl rfl] at hw
    cases hw
  | _ => cases hw

/-- Were the loop awake, it would fetch. -/
def Shared.fetchable (sh : Shared J) : Prop := sh.mode = .polling ∧ sh.delayActive = false

/-- If the loop could fetch, then `p` holds of `state_notify`, or some thread is about to notify. -/
def Alarm (p : Notify → Prop) (sh : Shared J) (thr : Tid → Thread J) : Prop :=
  sh.fetchable → p sh.stateNotify ∨ ∃ t, (thr t).notifies = true

/-- The same for a loop that was kept from fetching by a refetch delay. -/
def DelayAlarm (sh : Shared J) (thr : Tid → Thread J) : Prop :=
  sh.delayActive = false → sh.stateNotify.permit = true ∨ ∃ t, (thr t).endsDelay = true

theorem Thread.notifies_of_endsDelay (h : th.endsDelay = true) : th.notifies = true := by
  rw [Thread.notifies,h,Bool.or_true]

section Move
variable {thr : Tid → Thread J} (hm : WakeMove sh (thr t) sh' th)
include hm

theorem Alarm.move {p : Notify → Prop} (h : Alarm p sh thr) (h1 : p sh.stateNotify.notifyOne)
    (h2 : (thr t).broadcasts = true → p sh.stateNotify.notifyWaiters) :
    Alarm p sh' (Function.update thr t th) := by
  intro hf
  cases hm with
  | keep hm hd hn _ hw =>
    rcases h ⟨hm ▸ hf.1,hd ▸ hf.2⟩ with h | h
    · exact Or.inl (hn ▸ h)
    · exact Or.inr (exists_update_of_not hw h)
  | poll _ hw => exact Or.inr (exists_update_self (Bool.or_eq_true_iff.mpr (Or.inl hw)))
  | expire => cases hf.1
  | clear hw => exact Or.inr (exists_update_self (Thread.notifies_of_endsDelay hw))
  | one => exact Or.inl h1
  | all hw => exact Or.inl (h2 hw)

theorem DelayAlarm.move (h : DelayAlarm sh thr) (hp : sh.mode = .polling) (hs : sh.stateNotify.Sole none) :
    DelayAlarm sh' (Function.update thr t th) := by
  intro hf
  cases hm with
  | keep hm hd hn _ hw =>
    rcases h (hd ▸ hf) with h | h
    · exact Or.inl (hn ▸ h)
    · exact Or.inr (exists_update_of_not (Bool.or_eq_false_iff.mp hw).2 h)
  | poll hm => exact absurd hp hm
  | expire hm => rw [hp] at hm; cases hm
  | clear hw => exact Or.inr (exists_update_self hw)
  | one => exact Or.inl hs.permit
  | all hw =>
    rcases h hf with h | h
    · exact Or.inl h
    · refine Or.inr (exists_update_of_not ?_ h)
      cases hth : thr t <;> first | rfl | (rw [hth] at hw; cases hw)

end Move

/-- What keeps a wakeup from being lost, at each counter from the look at the mode on. -/
def Heard (sh : Shared J) (thr : Tid → Thread J) : LoopPc J → Prop
  | .checked m => (m = .polling → sh.mode = .polling) ∧ (m ≠ .polling → Alarm (·.permit = true) sh thr)
  | .unfetchable m => (m = .polling → sh.mode = .polling ∧ DelayAlarm sh thr) ∧
      (m ≠ .polling → Alarm (·.permit = true) sh thr)
  | .created b | .parked b => Alarm (·.wakes b) sh thr
  | _ => True

theorem heard_of_not_watching {thr : Tid → Thread J} (h : pc.watching = false) : Heard sh thr pc := by
  cases pc <;> trivial

structure WakeInv (s : State J) : Prop where
  unreleased : ∀ t, (s.thr t).releases = false
  fetching : s.sh.fetchInProgress = s.loop.fetching
  sole : s.sh.stateNotify.Sole s.loop.waitsAt
  heard : Heard s.sh s.thr s.loop

theorem inTime_of_quiet (h : (s.thr t).broadcasts = false) : inTime s (.thread t i) = true := by
  simp [inTime,h]

theorem WakeInv.move_heard (hi : WakeInv s) (hok : inTime s (.thread t i) = true)
    (hm : WakeMove s.sh (s.thr t) sh' th) : Heard sh' (Function.update s.thr t th) s.loop := by
  obtain ⟨sh,pc,thr⟩ := s
  obtain ⟨-,-,hs,hh⟩ := hi
  dsimp only [inTime] at *
  have quiet {m : Mode} (hne : m ≠ .polling) (hb : (thr t).broadcasts = true)
      (ho : (!(thr t).broadcasts || decide (m = .polling)) = true) : False := by simp [hb,hne] at ho
  cases pc with
  | checked m =>
    refine ⟨fun he => hm.polling (hh.1 he),fun hne => ?_⟩
    exact (hh.2 hne).move hm hs.permit fun hb => (quiet hne hb hok).elim
  | unfetchable m =>
    refine ⟨fun he => ⟨hm.polling (hh.1 he).1,(hh.1 he).2.move hm (hh.1 he).1 hs⟩,fun hne => ?_⟩
    exact (hh.2 hne).move hm hs.permit fun hb => (quiet hne hb hok).elim
  | created b | parked b =>
    refine Alarm.move (p := (·.wakes b)) hm hh (Notify.wakes_notifyOne _ _) fun hb => Notify.wakes_notifyWaiters ?_
    simpa [hb] using hok
  | _ => trivial

theorem WakeInv.move (hi : WakeInv s) (hr : ∀ u, (Function.update s.thr t th u).releases = false)
    (hok : inTime s (.thread t i) = true) (hm : WakeMove s.sh (s.thr t) sh' th) :
    WakeInv ⟨sh',s.loop,Function.update s.thr t th⟩ where
  unreleased := hr
  fetching := hm.fetchInProgress.trans hi.fetching
  sole := hm.sole hi.sole
  heard := hi.move_heard hok hm

section Loop
variable {thr : Tid → Thread J} {i : Input J}

theorem heard_top (h : loopStep cfg sh .top i = some (sh',pc')) : Heard sh' thr pc' := by
  cases i with
  | tick =>
    cases h
    split
    · trivial
    · exact ⟨id,fun hne hf => absurd hf.1 hne⟩
  | _ => cases h

theorem heard_checked {m : Mode} (hh : Heard sh thr (.checked m)) (hf : sh.fetchInProgress = false)
    (h : loopStep cfg sh (.checked m) i = some (sh',pc')) : Heard sh' thr pc' := by
  cases i with
  | tick =>
    cases h
    split
    · trivial
    · next hn =>
      -- no fetch is running, so in `Polling` it is a refetch delay that holds the loop back
      exact ⟨fun he => ⟨hh.1 he,fun hd => absurd ⟨he,hf,hd⟩ hn⟩,hh.2⟩
  | _ => cases h

theorem heard_unfetchable {m : Mode} (hh : Heard sh thr (.unfetchable m))
    (h : loopStep cfg sh (.unfetchable m) i = some (sh',pc')) : Heard sh' thr pc' := by
  cases i with
  | tick =>
    cases h
    intro hf
    by_cases he : m = .polling
    · rcases (hh.1 he).2 hf.2 with hp | ⟨t,ht⟩
      · exact Or.inl (Or.inl hp)
      · exact Or.inr ⟨t,Thread.notifies_of_endsDelay ht⟩
    · exact (hh.2 he hf).imp_left Or.inl
  | _ => cases h

theorem heard_created {b : ℕ} (hh : Heard sh thr (.created b))
    (h : loopStep cfg sh (.created b) i = some (sh',pc')) : Heard sh' thr pc' := by
  cases i with
  | tick =>
    cases h
    rcases hr : sh.stateNotify.registerWaiter b with ⟨n,ready⟩
    cases ready with
    | true => trivial
    | false =>
      obtain ⟨hb,hp,rfl⟩ := Notify.registerWaiter_parks hr
      intro hf
      rcases hh hf with hw | hw
      · -- a permit or a broadcast would have completed the first poll
        rcases hw with hw | hw | hw
        · rw [hp] at hw
          cases hw
        · exact Or.inl (Or.inr (Or.inl hw))
        · exact absurd hb hw
      · exact Or.inr hw
  | _ => cases h

end Loop

theorem WakeInv.loop_heard (hi : WakeInv s) (h : loopStep cfg s.sh s.loop i = some (sh',pc')) :
    Heard sh' s.thr pc' := by
  obtain ⟨sh,pc,thr⟩ := s
  obtain ⟨-,hf,-,hh⟩ := hi
  dsimp only at *
  cases hw : pc'.watching with
  | false => exact heard_of_not_watching hw
  | true =>
    rcases loopStep_watching h hw with rfl | hp
    · exact heard_top h
    · cases pc with
      | checked m => exact heard_checked hh hf h
      | unfetchable m => exact heard_unfetchable hh h
      | created b => exact heard_created hh h
      | parked b =>
        cases i with
        | tick =>
          obtain ⟨n,_,he⟩ := Option.map_eq_some_iff.mp h
          cases he
          cases hw
        | _ => cases h
      | _ => cases hp

theorem WakeInv.step {a : Action J} (hi : WakeInv s) (ha : a.releases = false) (hok : inTime s a = true)
    (h : step cfg s a = some s') : WakeInv s' := by
  have hr := step_unreleased hi.unreleased ha h
  cases step_cases h with
  | loop i sh pc hl =>
    exact ⟨hr,loopStep_fetching hi.fetching hl,loopStep_sole hi.sole hl,hi.loop_heard hl⟩
  | spawnTimer t mx hl ht | spawnDelay t jobs hl ht =>
    have hf := hi.fetching
    have hs := hi.sole
    rw [hl] at hf hs
    exact ⟨hr,hf,hs,trivial⟩
  | start t c ht =>
    refine hi.move (i := .tick) hr (inTime_of_quiet (by rw [ht]; rfl)) ?_
    rw [ht]
    exact .keep rfl rfl rfl rfl rfl
  | thread t i sh th hp => exact hi.move hr hok (threadStep_wake (hi.unreleased t) hp)
  | die t sh ha hp | cancel t sh ha hp =>
    obtain ⟨hb,hm⟩ := abandon_wake hp
    exact hi.move (i := .tick) hr (inTime_of_quiet hb) hm

/-- If no `notify_waiters` falls between the loop's look at the mode and the creation of its waiter, a loop that
waits although it could fetch has been notified, or some task is about to notify it. -/
theorem wakeup_not_lost {b : ℕ}
    (h : Reaches (step cfg) (fun s a => a.releases = false ∧ inTime s a = true) initial s)
    (hl : s.loop.parkedAt = some b) (hm : s.sh.mode = .polling) (hd : s.sh.delayActive = false) :
    s.sh.stateNotify.wakes b ∨ ∃ t, (s.thr t).notifies = true := by
  have hi := h.invariant (I := WakeInv) (fun _ _ _ hok hs hi => hi.step hok.1 hok.2 hs)
    (show WakeInv initial from ⟨fun _ => rfl,rfl,Notify.sole_of_zero rfl rfl,trivial⟩)
  have hh := hi.heard
  rw [LoopPc.parkedAt_iff.mp hl] at hh
  exact hh ⟨hm,hd⟩

def secondLook : List (Action ℕ) := firstFetch [7] ++ loopTicks 6 ++ [Action.spawnTimer 1] ++ loopTicks 7

def drain : List (Action ℕ) := .start 2 (.getJob false) :: threadTicks 2 7

theorem drained_run_woken : ∃ s : State ℕ,
    Reaches (step {}) (fun s a => a.releases = false ∧ inTime s a = true) initial s ∧
    s.loop.parkedAt = some 2 ∧ s.sh.mode = .polling ∧ s.sh.delayActive = false ∧
    (s.sh.stateNotify.wakes 2 ∨ ∃ t, (s.thr t).notifies = true) := by
  obtain ⟨s,hr,hl,hm,hd⟩ : ∃ s, Reaches (step {}) (fun s a => a.releases = false ∧ inTime s a = true) initial s ∧
      s.loop.parkedAt = some 2 ∧ s.sh.mode = .polling ∧ s.sh.delayActive = false :=
    exists_reaches_of_exec (secondLook ++ loopTicks 3 ++ drain) (by decide)
  exact ⟨s,hr,hl,hm,hd,wakeup_not_lost hr hl hm hd⟩

/-- The loop waits in `Polling`, and nothing is stored or on its way. -/
theorem wakeup_lost : ∃ s : State ℕ, Reaches (step {}) (fun _ a => a.releases = false) initial s ∧
    s.loop.parkedAt = some 3 ∧ s.sh.mode = .polling ∧ s.sh.fetchInProgress = false ∧ s.sh.delayActive = false ∧
    ¬s.sh.stateNotify.wakes 3 ∧ ∀ t, (s.thr t).notifies = false := by
  have he : (exec (step {}) (fun _ a => a.releases = false) initial (secondLook ++ drain ++ loopTicks 3)).map
      (fun s => (s.loop.parkedAt,(s.sh.mode,s.sh.fetchInProgress,s.sh.delayActive),s.sh.stateNotify,
        (List.range 3).all fun t => !(s.thr t).notifies)) =
      some (some 3,(.polling,false,false),⟨false,1,0,3⟩,true) := by decide
  obtain ⟨s,hs,hf⟩ := Option.map_eq_some_iff.mp he
  simp only [Prod.mk.injEq] at hf
  obtain ⟨hl,⟨hm,hp,hd⟩,hn,ht⟩ := hf
  have hc := exec_forall (p := fun th => !th.notifies) (n := 3) hs (by decide) ht rfl
  refine ⟨s,reaches_exec hs,hl,hm,hp,hd,?_,fun t => by simpa using hc t⟩
  rw [hn]
  simp [Notify.wakes]

end GraphileWorker.LocalQueue
