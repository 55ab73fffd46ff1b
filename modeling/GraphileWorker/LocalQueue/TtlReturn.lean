import GraphileWorker.LocalQueue.Locks

/-! # The return of a batch whose TTL is over

The timer of a batch sleeps on when the batch is drained, and the loop aborts it only after
the next batch is in `Waiting`. Runs here have no release, and every return succeeds.
-/
namespace GraphileWorker.LocalQueue
open Foundation
variable {J : Type} {a : Action J} {i : Input J}

/-- Counters inside `set_mode_ttl_expired`, once the mode is stored. -/
def Thread.returnsTtl : Thread J → Bool
  | .returning .ttl _ => true
  | _ => false

def Thread.isTimerExpire : Thread J → Bool
  | .timerExpire => true
  | _ => false

/-- Between the store of `Waiting` and the `replace_abort` of the timer before. -/
def LoopPc.installs : LoopPc J → Bool
  | .waitingNotify _ | .spawnTtl _ | .replaceTtl _ _ => true
  | _ => false

def Input.fails : Input J → Bool
  | .response false => true
  | _ => false

/-- No release is called and no return statement fails. -/
def returnsSucceed : Action J → Bool
  | .thread _ i => !i.fails
  | a => !a.releases

/-- A timer that comes to switch a waiting queue has not been aborted, and the loop is
not about to abort it. -/
def ownTimer (s : State J) : Action J → Bool
  | .thread t _ => !((s.thr t).isTimerExpire && decide (s.sh.mode = .waiting)) ||
      (decide (t ∉ s.sh.aborted) && !s.loop.installs)
  | _ => true

variable {cfg : Config} {sh sh' : Shared J} {s s' : State J} {t : Tid} {th th' : Thread J} {pc pc' : LoopPc J}

theorem releases_of_returnsSucceed (h : returnsSucceed a = true) : a.releases = false := by
  cases a with
  | thread => rfl
  | _ => simpa [returnsSucceed] using h

/-- `set_mode(Polling)` would be refused. -/
def Shared.expired (sh : Shared J) : Prop := sh.mode = .ttlExpired ∧ sh.ttlReturnComplete = false

theorem not_expired_of_mode {m : Mode} (hm : sh.mode = m) (hne : m ≠ .ttlExpired) : ¬sh.expired :=
  fun he => hne (hm.symm.trans he.1)

/-- What a step of a thread does to the mode and to a TTL return. -/
inductive TtlMove : Shared J → Thread J → Shared J → Thread J → Prop
  | keep {sh sh' : Shared J} {th th' : Thread J} (hm : sh'.mode = sh.mode)
      (hc : sh'.ttlReturnComplete = sh.ttlReturnComplete) (ha : sh'.aborted = sh.aborted)
      (hr : th'.returnsTtl = th.returnsTtl)
      (hp : sh'.permit = true → th'.permitted = true ∨ sh.permit = true ∧ th.permitted = false) :
      TtlMove sh th sh' th'
  | poll {sh : Shared J} {th th' : Thread J} (he : ¬sh.expired) (hr : th.returnsTtl = false)
      (hr' : th'.returnsTtl = false) (hp : th.permitted = false) : TtlMove sh th { sh with mode := .polling } th'
  | expire (sh : Shared J) (hm : sh.mode = .waiting) :
      TtlMove sh .timerExpire { sh with ttlReturnComplete := false, mode := .ttlExpired } (.returning .ttl .lock)
  | complete {sh : Shared J} {th th' : Thread J} (hr : th.returnsTtl = true) (hr' : th'.returnsTtl = false)
      (hp : th.permitted = false) : TtlMove sh th { sh with ttlReturnComplete := true } th'

theorem not_expired_of_not_keepsMode (h : sh.keepsMode .polling = false) : ¬sh.expired := by
  rintro ⟨hm,hc⟩
  simp [Shared.keepsMode,hm,hc] at h

theorem returnStep_ttl {pc : ReturnPc} (hi : i.fails = false)
    (h : ReturnStepped sh t .ttl pc i sh' th') : TtlMove sh (.returning .ttl pc) sh' th' := by
  cases h with
  | ttlEmitted | ttlReturned => exact .complete rfl rfl rfl
  | lock => exact .keep rfl rfl rfl rfl fun h => Or.inr ⟨h,rfl⟩
  | empty | ack => exact .keep rfl rfl rfl rfl nofun
  | retry | failTtl => cases hi
  | begin | drain | commit | backoff => exact .keep rfl rfl rfl rfl fun _ => Or.inl rfl

theorem threadStep_ttl (hr : th.releases = false) (hi : i.fails = false)
    (h : threadStep sh t th i = some (sh',th')) : TtlMove sh th sh' th' := by
  cases threadStep_cases h with
  | cachePollingSet _ hk | drainedSet _ _ hk => exact .poll (not_expired_of_not_keepsMode hk) rfl rfl rfl
  | timerExpire _ hm => exact .expire _ hm
  | returning who pc _ _ _ hs =>
    cases who with
    | ttl => exact returnStep_ttl hi hs
    | release => cases hr
  | _ => first | exact .keep rfl rfl rfl rfl fun h => Or.inr ⟨h,rfl⟩ | cases hr

theorem abandon_ttl {o : Outcome J} (hr : th.releases = false) (ht : th.returnsTtl = false)
    (h : abandon sh th = some sh') : TtlMove sh th sh' (.finished o) := by
  cases abandon_cases h with
  | ttlLock | ttlEmitting | ttlReturning => cases ht
  | releaseLock | releaseEmitting | releaseReturning | releaseStart | releaseMode | releaseParked => cases hr
  | _ => exact .keep rfl rfl rfl rfl fun h => Or.inr ⟨h,rfl⟩

/-- Counters that the loop only reaches in `Polling`. -/
def LoopPc.polls : LoopPc J → Bool
  | .checked m => decide (m = .polling)
  | .fetchTry | .fetchStart | .fetchDelayCheck | .bailSet | .bailEnd | .fetchClear | .fetchReset | .fetchSql
  | .fetchDropGuard _ | .fetchEnd _ | .fetchNotify _ | .delayThreshold _ | .delayActivate _ | .delayForget _
  | .delaySpawn _ | .delayReplace _ _ | .append _ | .setWaiting _ | .setReleased _ => true
  | _ => false

/-- What a step of the loop does to the mode and to the timers. -/
inductive LoopTtl : Shared J → LoopPc J → Shared J → LoopPc J → Prop
  | keep {sh sh' : Shared J} {pc pc' : LoopPc J} (hm : sh'.mode = sh.mode) (ha : sh'.aborted = sh.aborted)
      (hi : pc'.installs = false) (hp : pc'.polls = true → pc.polls = true ∨ sh.mode = .polling) :
      LoopTtl sh pc sh' pc'
  | begin {sh : Shared J} {pc pc' : LoopPc J} (he : ¬sh.expired) :
      LoopTtl sh pc { sh with mode := .polling } pc'
  | fetch {sh sh' : Shared J} {pc pc' : LoopPc J} (hf : pc.polls = true)
      (hm : sh'.mode ≠ .ttlExpired) (hp : pc'.polls = true → sh'.mode = .polling) : LoopTtl sh pc sh' pc'
  | install {sh sh' : Shared J} {pc pc' : LoopPc J} (hm : sh'.mode = sh.mode) (hi : pc.installs = true)
      (hp : pc'.polls = false) : LoopTtl sh pc sh' pc'

theorem loopStep_ttl (hpoll : pc.polls = true → sh.mode = .polling) (h : loopStep cfg sh pc i = some (sh',pc')) :
    sh'.ttlReturnComplete = sh.ttlReturnComplete ∧ LoopTtl sh pc sh' pc' := by
  cases loopStep_cases h with
  | startSet _ hk => exact ⟨rfl,.begin (not_expired_of_not_keepsMode hk)⟩
  | top => exact ⟨rfl,.keep rfl rfl rfl fun hp => Or.inr (of_decide_eq_true hp)⟩
  | afterFetchOnce hm => exact ⟨rfl,.keep rfl rfl rfl fun _ => Or.inr hm⟩
  | waitingNotify | replaceTtlAgain | replaceTtl => exact ⟨rfl,.install rfl rfl rfl⟩
  | waitingSet | releasedSet => exact ⟨rfl,.fetch rfl nofun nofun⟩
  -- the counters that stay in `Polling` do so whatever the step is
  | fetchNotify r | delayReplace t jobs | waitingKept | releasedKept last =>
    have hm := hpoll rfl
    exact ⟨rfl,.fetch rfl (fun he => absurd (hm.symm.trans he) (by decide)) fun _ => hm⟩
  | releasedNotify last =>
    refine ⟨rfl,.keep rfl rfl (afterReleased_not rfl rfl _) fun hp => ?_⟩
    rw [afterReleased_not (f := LoopPc.polls) rfl rfl] at hp
    cases hp
  | _ => first
    | exact ⟨rfl,.keep rfl rfl rfl fun _ => Or.inl rfl⟩
    | exact ⟨rfl,.keep rfl rfl rfl nofun⟩

structure TtlInv (sh : Shared J) (pc : LoopPc J) (thr : Tid → Thread J) : Prop where
  unreleased : ∀ t, (thr t).releases = false
  polls : pc.polls = true → sh.mode = .polling
  one : ∀ t u, (thr t).returnsTtl = true → (thr u).returnsTtl = true → t = u
  live : ∀ t, (thr t).returnsTtl = true → sh.expired ∧ t ∉ sh.aborted ∧ pc.installs = false
  owed : sh.expired → ∃ t, (thr t).returnsTtl = true
  permit : sh.permit = true → ∃ t, (thr t).permitted = true

variable {thr : Tid → Thread J}

theorem TtlMove.permit (h : TtlMove sh (thr t) sh' th) (hi : sh.permit = true → ∃ u, (thr u).permitted = true)
    (hp : sh'.permit = true) : ∃ u, (Function.update thr t th u).permitted = true := by
  have hc : th.permitted = true ∨ sh.permit = true ∧ (thr t).permitted = false := by
    generalize thr t = th₀ at h
    cases h with
    | keep _ _ _ _ h => exact h hp
    | poll _ _ _ h | complete _ _ h => exact Or.inr ⟨hp,h⟩
    | expire => exact Or.inr ⟨hp,rfl⟩
  rcases hc with hc | ⟨hs,hn⟩
  · exact exists_update_self hc
  · exact exists_update_of_not hn (hi hs)

theorem TtlInv.none_returns (hi : TtlInv sh pc thr) (he : ¬sh.expired) (u : Tid) : (thr u).returnsTtl = false := by
  rw [← Bool.not_eq_true]
  exact fun hu => he (hi.live u hu).1

theorem TtlInv.of_none (hr : ∀ t, (thr t).releases = false) (hp : pc.polls = true → sh.mode = .polling)
    (hn : ∀ t, (thr t).returnsTtl = false) (he : ¬sh.expired)
    (hperm : sh.permit = true → ∃ t, (thr t).permitted = true) : TtlInv sh pc thr where
  unreleased := hr
  polls := hp
  one t u ht := by rw [hn t] at ht; cases ht
  live t ht := by rw [hn t] at ht; cases ht
  owed h := absurd h he
  permit := hperm

theorem TtlInv.move (hi : TtlInv sh pc thr) (hr : ∀ u, (Function.update thr t th u).releases = false)
    (hok : th.returnsTtl = true → (thr t).isTimerExpire = true → sh.mode = .waiting →
      t ∉ sh.aborted ∧ pc.installs = false)
    (hm : TtlMove sh (thr t) sh' th) : TtlInv sh' pc (Function.update thr t th) := by
  have hperm := hm.permit hi.permit
  generalize hth : thr t = th₀ at hm hok
  cases hm with
  | keep hm hc ha hret _ =>
    have hu := apply_update_of_eq (hret.trans (congrArg Thread.returnsTtl hth.symm))
    have he : sh'.expired ↔ sh.expired := by rw [Shared.expired,Shared.expired,hm,hc]
    refine ⟨hr,fun hp => hm.trans (hi.polls hp),?_,?_,?_,hperm⟩
    · intro u v
      rw [hu,hu]
      exact hi.one u v
    · intro u
      rw [hu,he,ha]
      exact hi.live u
    · intro h
      obtain ⟨u,h⟩ := hi.owed (he.mp h)
      exact ⟨u,(hu u).trans h⟩
  | poll hne hret hret' _ =>
    have hu := apply_update_of_eq (hret'.trans (hret.symm.trans (congrArg Thread.returnsTtl hth.symm)))
    exact .of_none hr (fun _ => rfl) (fun u => (hu u).trans (hi.none_returns hne u)) (fun h => (by cases h.1)) hperm
  | expire hm =>
    obtain ⟨ha,hl⟩ := hok rfl rfl hm
    have hne := not_expired_of_mode hm (by decide)
    -- nobody returned before, so this task is the only one
    have hself (u : Tid) (hu : (Function.update thr t (.returning .ttl .lock) u).returnsTtl = true) : u = t := by
      by_contra h
      rw [Function.update_of_ne h,hi.none_returns hne] at hu
      cases hu
    refine ⟨hr,fun hp => ?_,fun u v hu hv => (hself u hu).trans (hself v hv).symm,fun u hu => ?_,
      fun _ => exists_update_self rfl,hperm⟩
    · rw [hi.polls hp] at hm
      cases hm
    · exact ⟨⟨rfl,rfl⟩,hself u hu ▸ ha,hl⟩
  | complete hret hret' _ =>
    have hnone (u : Tid) : (Function.update thr t th u).returnsTtl = false := by
      by_cases h : u = t
      · rw [h,Function.update_self,hret']
      · rw [Function.update_of_ne h,← Bool.not_eq_true]
        exact fun hu => h (hi.one u t hu (hth ▸ hret))
    exact .of_none hr hi.polls hnone (fun h => (by cases h.2)) hperm

theorem TtlInv.loop (hi : TtlInv sh pc thr) (hc : sh'.ttlReturnComplete = sh.ttlReturnComplete)
    (hp : sh'.permit = sh.permit) (hm : LoopTtl sh pc sh' pc') : TtlInv sh' pc' thr := by
  have hperm : sh'.permit = true → ∃ t, (thr t).permitted = true := hp ▸ hi.permit
  cases hm with
  | keep hm ha hl hpoll =>
    have he : sh'.expired ↔ sh.expired := by rw [Shared.expired,Shared.expired,hm,hc]
    refine ⟨hi.unreleased,fun h => hm.trans ?_,hi.one,fun u hu => ?_,fun h => hi.owed (he.mp h),hperm⟩
    · exact (hpoll h).elim hi.polls id
    · obtain ⟨hx,hna,-⟩ := hi.live u hu
      exact ⟨he.mpr hx,ha ▸ hna,hl⟩
  | begin hne =>
    exact .of_none hi.unreleased (fun _ => rfl) (hi.none_returns hne) (fun h => (by cases h.1)) hperm
  | fetch hf hm hpoll =>
    have hne := not_expired_of_mode (hi.polls hf) (by decide)
    exact .of_none hi.unreleased hpoll (hi.none_returns hne) (fun h => hm h.1) hperm
  | install hm hl hpoll =>
    have hne : ¬sh.expired := fun he => by
      obtain ⟨u,hu⟩ := hi.owed he
      have hn := (hi.live u hu).2.2
      rw [hl] at hn
      cases hn
    refine .of_none hi.unreleased (fun h => ?_) (hi.none_returns hne) ?_ hperm
    · rw [hpoll] at h
      cases h
    · rwa [Shared.expired,hm,hc]

theorem TtlInv.step (hi : TtlInv s.sh s.loop s.thr) (ha : returnsSucceed a = true)
    (hok : ownTimer s a = true) (h : step cfg s a = some s') : TtlInv s'.sh s'.loop s'.thr := by
  have hr := step_unreleased hi.unreleased (releases_of_returnsSucceed ha) h
  cases step_cases h with
  | loop i sh pc hl =>
    obtain ⟨hc,hm⟩ := loopStep_ttl hi.polls hl
    exact hi.loop hc (congrArg Pending.permit (loopStep_view hl)) hm
  | spawnTimer t mx hl ht =>
    have hn : TtlInv s.sh s.loop (Function.update s.thr t .timerSleep) :=
      hi.move hr nofun (by rw [ht]; exact .keep rfl rfl rfl rfl fun h => Or.inr ⟨h,rfl⟩)
    exact hn.loop rfl rfl (hl ▸ .install rfl rfl rfl)
  | spawnDelay t jobs hl ht =>
    have hn : TtlInv s.sh s.loop (Function.update s.thr t .delayStart) :=
      hi.move hr nofun (by rw [ht]; exact .keep rfl rfl rfl rfl fun h => Or.inr ⟨h,rfl⟩)
    exact hn.loop rfl rfl (hl ▸ .keep rfl rfl rfl fun _ => Or.inl rfl)
  | start t c ht =>
    refine hi.move hr (fun h => ?_) ?_
    · cases c <;> cases h
    · rw [ht]
      exact .keep rfl rfl rfl (by cases c <;> rfl) fun h => Or.inr ⟨h,rfl⟩
  | thread t i sh th hp =>
    refine hi.move hr ?_ (threadStep_ttl (hi.unreleased t) (by simpa [returnsSucceed] using ha) hp)
    intro _ ht hm
    simpa [ownTimer,ht,hm] using hok
  | die t sh hd hp =>
    -- the task that returns is not among the aborted ones
    have hn : (s.thr t).returnsTtl = false := by
      rw [← Bool.not_eq_true]
      exact fun ht => (hi.live t ht).2.1 hd
    exact hi.move hr nofun (abandon_ttl (hi.unreleased t) hn hp)
  | cancel t sh hc hp =>
    have hn := hi.unreleased t
    rw [Thread.releases_of_isRelease hc] at hn
    cases hn

theorem ttlInv_initial : TtlInv (initial : State J).sh initial.loop initial.thr :=
  .of_none (fun _ => rfl) nofun (fun _ => rfl) (fun h => (by cases h.1)) nofun

/-- Steps of task `t` whose statements succeed, and of a consumer that holds the cache. -/
def runsOn (t : Tid) (s : State J) : Action J → Bool
  | .thread u i => if u = t then !i.fails else (s.thr u).ownsCache
  | _ => false

/-- Task `t` can run on until the return is complete, the permit is gone and
`set_mode(Polling)` is no longer refused. -/
def Completes (cfg : Config) (t : Tid) (s : State J) : Prop :=
  ∃ s', Reaches (step cfg) (fun s a => runsOn t s a = true) s s' ∧ s'.sh.ttlReturnComplete = true ∧
    s'.sh.permit = false ∧ s'.sh.keepsMode .polling = false

theorem Completes.of_step (hok : runsOn t s a = true) (h : LocalQueue.step cfg s a = some s')
    (hc : Completes cfg t s') : Completes cfg t s := by
  obtain ⟨u,hr,hu⟩ := hc
  have hone : Reaches (LocalQueue.step cfg) (fun s a => runsOn t s a = true) s s' := .step .refl hok h
  exact ⟨u,hone.trans hr,hu⟩

theorem Completes.of_return {pc : ReturnPc} (ht : s.thr t = .returning .ttl pc)
    (hi : i.fails = false) (h : returnStep s.sh t .ttl pc i = some (sh',th'))
    (hc : Completes cfg t (s.put t (sh',th'))) : Completes cfg t s :=
  .of_step (by simp [runsOn,hi]) (step_returning ht h) hc

theorem ownsCache_put {p : Shared J × Thread J} (hq : ∀ u, s.sh.jobQueueLock = some u → (s.thr u).ownsCache = true)
    (ht : (s.thr t).ownsCache = false) (u : Tid) (hu : s.sh.jobQueueLock = some u) :
    ((s.put t p).thr u).ownsCache = true := by
  have hc := hq u hu
  have hne : u ≠ t := by
    rintro rfl
    rw [hc] at ht
    cases ht
  exact (congrArg Thread.ownsCache (Function.update_of_ne hne ..)).trans hc

section Complete
variable (hm : s.sh.mode = .ttlExpired)
include hm

theorem completes_ended {pc : ReturnPc} (ht : s.thr t = .returning .ttl pc) (hpc : pc = .emitting ∨ pc = .returned)
    (hp : s.sh.permit = false) : Completes cfg t s := by
  have hr : returnStep s.sh t .ttl pc .tick = some (returnOk s.sh .ttl) := by rcases hpc with rfl | rfl <;> rfl
  refine .of_return ht rfl hr ⟨_,.refl,rfl,hp,?_⟩
  simp [State.put,Shared.keepsMode,hm]

theorem completes_sql {n : ℕ} {committed : Bool} (ht : s.thr t = .returning .ttl (.sql n committed)) :
    Completes cfg t s := by
  have hacked {s : State J} (hm : s.sh.mode = .ttlExpired) (ht : s.thr t = .returning .ttl (.sql n true)) :
      Completes cfg t s :=
    .of_return ht (i := .response true) rfl rfl
      (completes_ended hm (by simp [State.put]) (Or.inl rfl) rfl)
  cases committed with
  | true => exact hacked hm ht
  | false => exact .of_return ht (i := .commit) rfl rfl (hacked hm (by simp [State.put]))

theorem completes_drain (ht : s.thr t = .returning .ttl .drain) (hq : s.sh.jobQueueLock = none) :
    Completes cfg t s := by
  by_cases he : (s.sh.pending ++ s.sh.jobQueue).isEmpty = true
  · refine .of_return ht (i := .tick) rfl (by simp only [returnStep,hq,he]; rfl) ?_
    exact completes_ended hm (by simp [State.put]) (Or.inr rfl) rfl
  · have hr : returnStep s.sh t .ttl .drain .tick = some ({ s.sh with
        pending := s.sh.pending ++ s.sh.jobQueue, jobQueue := [] },.returning .ttl (.sql 0 false)) := by
      simp only [returnStep,hq,he]
      rfl
    exact .of_return ht rfl hr (completes_sql hm (Function.update_self t _ s.thr))

variable (hq : ∀ u, s.sh.jobQueueLock = some u → (s.thr u).ownsCache = true)
include hq

theorem completes_drain_held (ht : s.thr t = .returning .ttl .drain) : Completes cfg t s := by
  cases hl : s.sh.jobQueueLock with
  | none => exact completes_drain hm ht hl
  | some u =>
    have hu := hq u hl
    have hne : u ≠ t := by
      rintro rfl
      rw [ht] at hu
      cases hu
    have hpop : threadStep s.sh u (s.thr u) .tick =
        some ({ s.sh with jobQueueLock := none },.finished (.job none)) := by
      rw [Thread.ownsCache_iff.mp hu]
      exact if_pos (Or.inr hm)
    refine .of_step (by simp [runsOn,hne,hu]) (step_thread hpop) (completes_drain hm ?_ rfl)
    exact (Function.update_of_ne hne.symm ..).trans ht

theorem completes_begin (ht : s.thr t = .returning .ttl .begin) : Completes cfg t s := by
  refine .of_return ht (i := .tick) rfl rfl (completes_drain_held hm ?_ (Function.update_self t _ s.thr))
  exact ownsCache_put hq (by rw [ht]; rfl)

theorem completes {pc : ReturnPc} (ht : s.thr t = .returning .ttl pc) (hl : pc = .lock → s.sh.pendingLock = none)
    (hp : pc = .emitting ∨ pc = .returned → s.sh.permit = false) : Completes cfg t s := by
  cases pc with
  | lock =>
    refine .of_return ht (i := .tick) rfl (by simp only [returnStep,hl rfl]; rfl) ?_
    refine completes_begin hm ?_ (Function.update_self t _ s.thr)
    exact ownsCache_put hq (by rw [ht]; rfl)
  | begin => exact completes_begin hm hq ht
  | drain => exact completes_drain_held hm hq ht
  | sql n committed => exact completes_sql hm ht
  | backoff n => exact .of_return ht (i := .elapsed) rfl rfl (completes_sql hm (Function.update_self t _ s.thr))
  | emitting => exact completes_ended hm ht (Or.inl rfl) (hp (Or.inl rfl))
  | returned => exact completes_ended hm ht (Or.inr rfl) (hp (Or.inr rfl))

end Complete

theorem Thread.returnsTtl_iff : th.returnsTtl = true ↔ ∃ pc, th = .returning .ttl pc := by
  cases th with
  | returning who pc => cases who <;> simp [Thread.returnsTtl]
  | _ => simp [Thread.returnsTtl]

theorem Thread.returnsTtl_of_owns (hr : th.releases = false) (h : th.ownsPending = true) : th.returnsTtl = true := by
  cases th with
  | returning who pc => cases who <;> first | rfl | cases hr
  | _ => cases h

theorem TtlInv.completes (hi : TtlInv s.sh s.loop s.thr) (h : Runs cfg initial s)
    (ht : (s.thr t).returnsTtl = true) : Completes cfg t s := by
  obtain ⟨pc,hpc⟩ := Thread.returnsTtl_iff.mp ht
  have hself {u : Tid} (hu : (s.thr u).ownsPending = true) : u = t :=
    hi.one u t (Thread.returnsTtl_of_owns (hi.unreleased u) hu) ht
  refine LocalQueue.completes (hi.live t ht).1.1 (fun u hu => (h.cacheOwned u).mpr hu) hpc ?_ ?_
  · rintro rfl
    by_contra hl
    obtain ⟨u,hu⟩ := Option.ne_none_iff_exists'.mp hl
    have ho := (h.pendingInv.owned u).mpr hu
    rw [hself ho,hpc] at ho
    cases ho
  · intro he
    rw [← Bool.not_eq_true]
    intro hp
    obtain ⟨u,hu⟩ := hi.permit hp
    rw [hself (Thread.permitted_owns hu),hpc] at hu
    rcases he with rfl | rfl <;> cases hu

/-- If a timer only switches a waiting queue while it is neither aborted nor about to be, the task that
returns an expired cache can run on until the return is complete. -/
theorem ttl_return_not_orphaned
    (h : Reaches (step cfg) (fun s a => returnsSucceed a = true ∧ ownTimer s a = true) initial s)
    (hm : s.sh.mode = .ttlExpired) (hc : s.sh.ttlReturnComplete = false) :
    ∃ t, (s.thr t).returnsTtl = true ∧ t ∉ s.sh.aborted ∧ Completes cfg t s := by
  have hi := h.invariant (I := fun s => TtlInv s.sh s.loop s.thr)
    (fun _ _ _ hok hs hi => hi.step hok.1 hok.2 hs) ttlInv_initial
  obtain ⟨t,ht⟩ := hi.owed ⟨hm,hc⟩
  exact ⟨t,ht,(hi.live t ht).2.1,hi.completes (h.mono fun _ _ _ => trivial) ht⟩

def firstBatch : List (Action ℕ) := firstFetch [7] ++ loopTicks 6 ++ [Action.spawnTimer 1] ++ loopTicks 2

/-- Consumer 2 drains the cache, and the next batch is stored as `Waiting`. -/
def secondBatch : List (Action ℕ) :=
  Action.start 2 (.getJob false) :: threadTicks 2 7 ++ loopTicks 2 ++ [Action.loop (.boundary true)] ++ loopTicks 4 ++
  [Action.loop (.batch (some [8]))] ++ loopTicks 5

def expiredRun : List (Action ℕ) := firstBatch ++ [Action.thread 1 .elapsed] ++ threadTicks 1 2

/-- Timer 1 expires the second batch before the loop replaces it, and is dropped in its return. -/
def replacedTimer : List (Action ℕ) :=
  firstBatch ++ secondBatch ++ [Action.thread 1 .elapsed] ++ threadTicks 1 5 ++ loopTicks 1 ++ [Action.spawnTimer 3] ++
  loopTicks 1 ++ [Action.die 1]

theorem expired_run_returned : ∃ s : State ℕ,
    Reaches (step {}) (fun s a => returnsSucceed a = true ∧ ownTimer s a = true) initial s ∧
    s.sh.mode = .ttlExpired ∧ s.sh.ttlReturnComplete = false ∧
    ∃ t, (s.thr t).returnsTtl = true ∧ t ∉ s.sh.aborted ∧ Completes {} t s := by
  obtain ⟨s,hr,hm,hc⟩ : ∃ s, Reaches (step {}) (fun s a => returnsSucceed a = true ∧ ownTimer s a = true) initial s ∧
      s.sh.mode = .ttlExpired ∧ s.sh.ttlReturnComplete = false := exists_reaches_of_exec expiredRun (by decide)
  exact ⟨s,hr,hm,hc,ttl_return_not_orphaned hr hm hc⟩

/-- Nobody is left to complete the return, and the permit stays. -/
theorem ttl_return_orphaned : ∃ s : State ℕ, Reaches (step {}) (fun _ a => returnsSucceed a = true) initial s ∧
    s.sh.mode = .ttlExpired ∧ s.sh.ttlReturnComplete = false ∧ s.sh.permit = true ∧
    ∀ t, (s.thr t).returnsTtl = false := by
  have he : (exec (step {}) (fun _ a => returnsSucceed a = true) initial replacedTimer).map
      (fun s => (s.sh.mode,s.sh.ttlReturnComplete,s.sh.permit,
        (List.range 4).all fun t => !(s.thr t).returnsTtl)) = some (.ttlExpired,false,true,true) := by decide
  obtain ⟨s,hs,hf⟩ := Option.map_eq_some_iff.mp he
  simp only [Prod.mk.injEq] at hf
  obtain ⟨hm,hc,hp,ht⟩ := hf
  have hn := exec_forall (p := fun th => !th.returnsTtl) (n := 4) hs (by decide) ht rfl
  exact ⟨s,reaches_exec hs,hm,hc,hp,fun t => by simpa using hn t⟩

end GraphileWorker.LocalQueue
