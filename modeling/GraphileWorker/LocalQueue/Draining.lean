import GraphileWorker.LocalQueue.Conservation
import GraphileWorker.Foundation.Ownership

/-! # The mode when the cache is drained

`received_jobs` fills the cache before it switches to `Waiting`; the consumer of the last job
switches back to `Polling`. Runs here have no release and no expired TTL.
-/
namespace GraphileWorker.LocalQueue
open Foundation
variable {J : Type} {i : Input J} {thr : Tid → Thread J}

def Thread.isDrained : Thread J → Bool
  | .drained _ => true
  | _ => false

def LoopPc.isSetWaiting : LoopPc J → Bool
  | .setWaiting _ => true
  | _ => false

/-- Threads of consumers, pulses and refetch delays, and timers that sleep. -/
def Thread.calm : Thread J → Bool
  | .timerRead | .timerExpire | .returning _ _ => false
  | .releaseStart | .releaseMode | .releaseDelay | .releaseAbortNotify | .releaseStateNotify | .releaseTimer
  | .releaseWait | .releaseCheck _ | .releaseCreated _ | .releaseParked _ | .releaseTimerAgain
  | .releaseDelayTask => false
  | _ => true

/-- No release is called and no TTL is reached. -/
def beforeTtl (s : State J) : Action J → Bool
  | .start _ .release => false
  | .thread t .elapsed => match s.thr t with
    | .timerSleep => false
    | _ => true
  | _ => true

/-- The consumer of the last job does not look at the mode between the append and the
`set_mode(Waiting)` of `received_jobs`. -/
def inOrder (s : State J) : Action J → Bool
  | .thread t _ => !((s.thr t).isDrained && s.loop.isSetWaiting)
  | _ => true

variable {cfg : Config} {sh sh' : Shared J} {s s' : State J} {t : Tid} {th th' : Thread J} {pc pc' : LoopPc J}

theorem not_waiting_of_keepsMode (hk : sh.keepsMode .polling = true) : sh.mode ≠ .waiting := by
  intro hw
  simp [Shared.keepsMode,hw] at hk

/-- What a step of a calm thread does to the cache and the mode. -/
inductive CacheMove : Shared J → Thread J → Shared J → Thread J → Prop
  | keep {sh sh' : Shared J} {th th' : Thread J} (hq : sh'.jobQueue = sh.jobQueue) (hd : th.isDrained = false)
      (hm : sh'.mode = .waiting → sh.mode = .waiting) : CacheMove sh th sh' th'
  | pop {sh sh' : Shared J} {th th' : Thread J} (hd : th.isDrained = false) (hm : sh'.mode = sh.mode)
      (hl : sh'.jobQueue = [] → th'.isDrained = true) : CacheMove sh th sh' th'
  | back {sh sh' : Shared J} {th th' : Thread J} (hq : sh'.jobQueue = sh.jobQueue) (hd : th.isDrained = true)
      (hm : sh'.mode ≠ .waiting) : CacheMove sh th sh' th'

theorem threadStep_cache (hc : th.calm = true) (hi : i = .elapsed → th ≠ .timerSleep)
    (h : threadStep sh t th i = some (sh',th')) : th'.calm = true ∧ CacheMove sh th sh' th' := by
  cases threadStep_cases h with
  | popLast => exact ⟨rfl,.pop rfl rfl fun _ => rfl⟩
  | pop c rest _ _ hr => exact ⟨rfl,.pop rfl rfl fun he => absurd he hr⟩
  | cachePollingSet => exact ⟨rfl,.keep rfl rfl nofun⟩
  | drainedKept _ _ hk => exact ⟨rfl,.back rfl rfl (not_waiting_of_keepsMode hk)⟩
  | drainedSet => exact ⟨rfl,.back rfl rfl nofun⟩
  | timerSleep => exact absurd rfl (hi rfl)
  | _ => first | exact ⟨rfl,.keep rfl rfl id⟩ | cases hc

theorem abandon_cache (h : abandon sh th = some sh') :
    sh'.jobQueue = sh.jobQueue ∧ sh'.mode = sh.mode ∧ th.isDrained = false := by
  cases abandon_cases h with
  | _ => exact ⟨rfl,rfl,rfl⟩

/-- Counters on the way to `Waiting`, with jobs in hand. -/
def LoopPc.appends : LoopPc J → Bool
  | .append jobs => !jobs.isEmpty
  | _ => true

theorem appends_afterDelay (jobs : List (Claim J)) : (afterDelay cfg jobs).appends = true := by
  rcases afterDelay_cases cfg jobs with ⟨hj,h⟩ | ⟨_,_,h⟩ | ⟨_,_,h⟩
  · rw [h]
    simpa [LoopPc.appends] using hj
  all_goals rw [h]; rfl

theorem appends_afterResult (r : Option (List (Claim J))) : (afterResult cfg r).appends = true := by
  rcases afterResult_cases cfg r with ⟨_,h⟩ | ⟨jobs,_,h | ⟨d,_,h⟩⟩
  · rw [h]; rfl
  · rw [h,appends_afterDelay]
  · rw [h]; rfl

theorem appends_afterReleased (last : Bool) : (afterReleased last : LoopPc J).appends = true := by
  cases last <;> rfl

/-- What a step of the loop does to the cache and the mode: it fills the cache, or it
leaves the cache and goes to `Waiting` only from the counter that is there for it. -/
inductive LoopCache : Shared J → LoopPc J → Shared J → LoopPc J → Prop
  | keep {sh sh' : Shared J} {pc pc' : LoopPc J} (hq : sh'.jobQueue = sh.jobQueue)
      (hm : sh'.mode = .waiting → sh.mode = .waiting) (hp : pc'.isSetWaiting = false) : LoopCache sh pc sh' pc'
  | fill {sh sh' : Shared J} {pc pc' : LoopPc J} (hq : sh'.jobQueue ≠ []) : LoopCache sh pc sh' pc'
  | wait {sh sh' : Shared J} {pc pc' : LoopPc J} (hq : sh'.jobQueue = sh.jobQueue)
      (hp : pc.isSetWaiting = true) : LoopCache sh pc sh' pc'

theorem loopStep_cache (ha : pc.appends = true) (h : loopStep cfg sh pc i = some (sh',pc')) :
    pc'.appends = true ∧ LoopCache sh pc sh' pc' := by
  cases loopStep_cases h with
  | fetchNotify r =>
    exact ⟨appends_afterResult r,
      .keep rfl id (afterResult_not (fun _ => rfl) rfl rfl (Or.inr fun _ => rfl))⟩
  | delayReplace t jobs =>
    exact ⟨appends_afterDelay jobs,.keep rfl id (afterDelay_not (fun _ => rfl) rfl rfl _)⟩
  | append jobs =>
    refine ⟨rfl,.fill fun he => ?_⟩
    have hj := (List.append_eq_nil_iff.mp he).2
    simp [LoopPc.appends,hj] at ha
  | waitingKept | waitingSet => exact ⟨rfl,.wait rfl rfl⟩
  | startSet | releasedSet => exact ⟨rfl,.keep rfl nofun rfl⟩
  | releasedKept last | releasedNotify last =>
    exact ⟨appends_afterReleased last,.keep rfl id (afterReleased_not rfl rfl _)⟩
  | _ => exact ⟨rfl,.keep rfl id rfl⟩

/-- As long as the cache is empty in `Waiting`, or about to be, some consumer is on
its way to `Polling`. -/
structure DrainInv (s : State J) : Prop where
  calm : ∀ t, (s.thr t).calm = true
  appends : s.loop.appends = true
  drained : s.sh.jobQueue = [] → s.sh.mode = .waiting ∨ s.loop.isSetWaiting = true →
    ∃ t, (s.thr t).isDrained = true

theorem calm_update (h : ∀ t, (thr t).calm = true) (ht : th.calm = true) :
    ∀ u, (Function.update thr t th u).calm = true :=
  (Function.forall_update_iff thr fun _ th => th.calm = true).mpr ⟨ht,fun u _ => h u⟩

theorem DrainInv.other {pc : LoopPc J} (hi : DrainInv s) (hc : ∀ t, (thr t).calm = true)
    (ha : pc.appends = true) (hq : sh'.jobQueue = s.sh.jobQueue) (hm : sh'.mode = .waiting → s.sh.mode = .waiting)
    (hp : pc.isSetWaiting = true → s.loop.isSetWaiting = true)
    (hd : (∃ u, (s.thr u).isDrained = true) → ∃ u, (thr u).isDrained = true) : DrainInv ⟨sh',pc,thr⟩ where
  calm := hc
  appends := ha
  drained he hw := hd (hi.drained (hq.symm.trans he) (hw.imp hm hp))

theorem DrainInv.thread_step (hi : DrainInv s) (hcalm : beforeTtl s (.thread t i) = true)
    (hord : inOrder s (.thread t i) = true) (h : threadStep s.sh t (s.thr t) i = some (sh',th)) :
    DrainInv ⟨sh',s.loop,Function.update s.thr t th⟩ := by
  have hne : i = .elapsed → s.thr t ≠ .timerSleep := by
    rintro rfl ht
    simp [beforeTtl,ht] at hcalm
  obtain ⟨hth,hm⟩ := threadStep_cache (hi.calm t) hne h
  have hc := calm_update (t := t) hi.calm hth
  cases hm with
  | keep hq hd hm => exact hi.other hc hi.appends hq hm id (exists_update_of_not (p := Thread.isDrained) hd)
  | pop hd hm hl =>
    exact ⟨hc,hi.appends,fun he _ => ⟨t,by simpa using hl he⟩⟩
  | back hq hd hm =>
    refine ⟨hc,hi.appends,fun _ hw => ?_⟩
    -- the mode is not `Waiting`, and the loop is not about to set it
    rcases hw with hw | hw
    · exact absurd hw hm
    · simp [inOrder,hd,hw] at hord

theorem DrainInv.step {a : Action J} (hi : DrainInv s) (hcalm : beforeTtl s a = true) (hord : inOrder s a = true)
    (h : step cfg s a = some s') : DrainInv s' := by
  cases step_cases h with
  | loop i sh pc hl =>
    obtain ⟨ha,hm⟩ := loopStep_cache hi.appends hl
    cases hm with
    | keep hq hm hp => exact hi.other hi.calm ha hq hm (fun h => by rw [hp] at h; cases h) id
    | fill hq => exact ⟨hi.calm,ha,fun he => absurd he hq⟩
    | wait hq hp =>
      exact ⟨hi.calm,ha,fun he _ => hi.drained (hq.symm.trans he) (Or.inr hp)⟩
  | spawnTimer t mx hl ht | spawnDelay t jobs hl ht =>
    have hd : (s.thr t).isDrained = false := by rw [ht]; rfl
    exact hi.other (calm_update hi.calm rfl) rfl rfl id nofun (exists_update_of_not (p := Thread.isDrained) hd)
  | start t c ht =>
    cases c with
    | release => cases hcalm
    | getJob skip | pulse n =>
      have hd : (s.thr t).isDrained = false := by rw [ht]; rfl
      exact hi.other (calm_update hi.calm rfl) hi.appends rfl id id (exists_update_of_not (p := Thread.isDrained) hd)
  | thread t i sh th hp => exact hi.thread_step hcalm hord hp
  | die t sh ha hp | cancel t sh ha hp =>
    obtain ⟨hq,hm,hd⟩ := abandon_cache hp
    have hw : sh.mode = .waiting → s.sh.mode = .waiting := hm.symm.trans
    exact hi.other (calm_update hi.calm rfl) hi.appends hq hw id (exists_update_of_not (p := Thread.isDrained) hd)

theorem drainInv_initial : DrainInv (initial : State J) :=
  ⟨fun _ => rfl,rfl,fun _ hw => by rcases hw with hw | hw <;> cases hw⟩

def Thread.consuming : Thread J → Bool
  | .getJob _ | .direct | .directMode | .directSql | .cache | .cacheChecked _ | .cacheSetPolling | .cacheNotify
  | .cacheLock | .cachePop | .drained _ | .drainedNotify _ => true
  | _ => false

/-- The loop waits and has not been woken, and nobody is inside `get_job`. -/
structure AtRest (s : State J) : Prop where
  loop : ∃ b, s.loop.waitsAt = some b ∧ s.sh.stateNotify.tryComplete b = none
  consumers : ∀ t, (s.thr t).consuming = false

theorem Thread.not_drained (h : th.consuming = false) : th.isDrained = false := by
  cases th <;> first | rfl | cases h

/-- If no consumer of the last job steps in between the append and the switch to `Waiting`, a loop does not
wait on an empty cache in `Waiting` while no consumer is busy. -/
theorem not_parked_on_empty_cache
    (h : Reaches (step cfg) (fun s a => beforeTtl s a = true ∧ inOrder s a = true) initial s) (hr : AtRest s) :
    ¬(s.sh.mode = .waiting ∧ s.sh.jobQueue = []) := by
  have hi := h.invariant (I := DrainInv) (fun _ _ _ hok hs hi => hi.step hok.1 hok.2 hs) drainInv_initial
  rintro ⟨hm,hq⟩
  obtain ⟨t,ht⟩ := hi.drained hq (Or.inl hm)
  rw [Thread.not_drained (hr.consumers t)] at ht
  cases ht

/-- Two jobs are cached, the loop waits, and consumer 2 has taken one of them. -/
def cachedRun : List (Action ℕ) :=
  firstFetch [7,8] ++ loopTicks 6 ++ [Action.spawnTimer 1] ++ loopTicks 10 ++
  [Action.start 2 (.getJob false)] ++ threadTicks 2 5

/-- Consumer 2 takes the only job right after the append, and asks for `Polling` while
the mode is `Polling` still. -/
def overtakingRun : List (Action ℕ) :=
  firstFetch [7] ++ loopTicks 4 ++ [Action.start 2 (.getJob false)] ++ threadTicks 2 6 ++
  loopTicks 2 ++ [Action.spawnTimer 1] ++ loopTicks 10

theorem cached_run_at_rest : ∃ s : State ℕ,
    Reaches (step {}) (fun s a => beforeTtl s a = true ∧ inOrder s a = true) initial s ∧ AtRest s ∧
    s.sh.mode = .waiting ∧ ¬(s.sh.mode = .waiting ∧ s.sh.jobQueue = []) := by
  have he : (exec (step {}) (fun s a => beforeTtl s a = true ∧ inOrder s a = true) initial cachedRun).map
      (fun s => (s.loop.waitsAt,s.sh.stateNotify.tryComplete 2,s.sh.mode,
        (List.range 3).all fun t => !(s.thr t).consuming)) = some (some 2,none,.waiting,true) := by decide
  obtain ⟨s,hs,hf⟩ := Option.map_eq_some_iff.mp he
  simp only [Prod.mk.injEq] at hf
  obtain ⟨hl,hn,hm,ht⟩ := hf
  have hr := reaches_exec hs
  have hc := exec_forall (p := fun th => !th.consuming) (n := 3) hs (by decide) ht rfl
  have hrest : AtRest s := ⟨⟨2,hl,hn⟩,fun t => by simpa using hc t⟩
  exact ⟨s,hr,hrest,hm,not_parked_on_empty_cache hr hrest⟩

theorem parked_on_empty_cache : ∃ s : State ℕ,
    Reaches (step {}) (fun s a => beforeTtl s a = true) initial s ∧ AtRest s ∧
    s.sh.mode = .waiting ∧ s.sh.jobQueue = [] := by
  have he : (exec (step {}) (fun s a => beforeTtl s a = true) initial overtakingRun).map
      (fun s => (s.loop.waitsAt,s.sh.stateNotify.tryComplete 2,(s.sh.mode,s.sh.jobQueue.length),
        (List.range 3).all fun t => !(s.thr t).consuming)) = some (some 2,none,(.waiting,0),true) := by decide
  obtain ⟨s,hs,hf⟩ := Option.map_eq_some_iff.mp he
  simp only [Prod.mk.injEq] at hf
  obtain ⟨hl,hn,⟨hm,hq⟩,ht⟩ := hf
  have hc := exec_forall (p := fun th => !th.consuming) (n := 3) hs (by decide) ht rfl
  exact ⟨s,reaches_exec hs,⟨⟨2,hl,hn⟩,fun t => by simpa using hc t⟩,hm,List.length_eq_zero_iff.mp hq⟩

end GraphileWorker.LocalQueue
