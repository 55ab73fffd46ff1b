import GraphileWorker.LocalQueue.TtlReturn
import GraphileWorker.LocalQueue.Draining
import GraphileWorker.Database.Statement

/-! # How many jobs a local queue holds

Nothing compares the cache with `config.size`: the bound rests on a query being started only
over an empty cache. Runs here have no release, and every return statement succeeds.
-/
namespace GraphileWorker.LocalQueue
open Foundation
variable {J : Type} {i : Input J}

/-- How far a TTL return has come: before the cache is drained, with the drained
claims pending, and with everything returned. -/
inductive Stage
  | away
  | before
  | drained
  | settled
  deriving DecidableEq

def Thread.stage : Thread J → Stage
  | .returning .ttl (.sql _ _) | .returning .ttl (.backoff _) => .drained
  | .returning .ttl .emitting | .returning .ttl .returned => .settled
  | .returning .ttl _ => .before
  | _ => .away

def Thread.setsPolling : Thread J → Bool
  | .cacheSetPolling | .drained _ => true
  | _ => false

/-- A consumer's `set_mode(Polling)` does not find a filled cache in `Waiting`. -/
def pollsEmptyCache (s : State J) : Action J → Bool
  | .thread t _ => !((s.thr t).setsPolling && decide (s.sh.mode = .waiting)) || s.sh.jobQueue.isEmpty
  | _ => true

def answersWithin (n : ℕ) : Action J → Prop
  | .loop (.batch (some jobs)) => jobs.length ≤ n
  | _ => True

variable {cfg : Config} {sh sh' : Shared J} {s s' : State J} {t : Tid} {th th' : Thread J} {pc pc' : LoopPc J}
  {n : ℕ}

structure SameCache (sh sh' : Shared J) : Prop where
  mode : sh'.mode = sh.mode
  complete : sh'.ttlReturnComplete = sh.ttlReturnComplete
  jobQueue : sh'.jobQueue = sh.jobQueue
  pending : sh'.pending = sh.pending

/-- What a step of a thread does to the mode, the cache and the pending returns. -/
inductive SizeMove : Shared J → Thread J → Shared J → Thread J → Prop
  | keep {sh sh' : Shared J} {th th' : Thread J} (h : SameCache sh sh')
      (hs : th'.stage = th.stage ∨ th'.stage = .away) :
      SizeMove sh th sh' th'
  | pop {sh : Shared J} {th th' : Thread J} {c : Claim J} {rest : List (Claim J)} {handed : List (Tid × Claim J)}
      {lock : Option Tid} (hq : sh.jobQueue = c :: rest) (hs : th'.stage = .away) :
      SizeMove sh th { sh with jobQueue := rest, jobQueueLock := lock, handed := handed } th'
  | poll {sh : Shared J} {th th' : Thread J} (he : ¬sh.expired) (hp : th.setsPolling = true) (hs : th'.stage = .away) :
      SizeMove sh th { sh with mode := .polling } th'
  | expire {sh : Shared J} {th th' : Thread J} (hm : sh.mode = .waiting) (hs : th'.stage = .before) :
      SizeMove sh th { sh with ttlReturnComplete := false, mode := .ttlExpired } th'
  | drain {sh : Shared J} {th th' : Thread J} (hs : th.stage = .before) (hs' : th'.stage = .drained) :
      SizeMove sh th { sh with pending := sh.pending ++ sh.jobQueue, jobQueue := [] } th'
  | settle {sh sh' : Shared J} {th th' : Thread J} (hm : sh'.mode = sh.mode)
      (hc : sh'.ttlReturnComplete = sh.ttlReturnComplete) (hp : sh'.pending = [])
      (hq : sh'.jobQueue = [] ∨ th.stage = .drained ∧ sh'.jobQueue = sh.jobQueue) (hs : th.stage ≠ .away)
      (hs' : th'.stage = .settled) : SizeMove sh th sh' th'
  | complete {sh : Shared J} {th th' : Thread J} (hs : th.stage = .settled) (hs' : th'.stage = .away) :
      SizeMove sh th { sh with ttlReturnComplete := true } th'

theorem SameCache.refl (sh : Shared J) : SameCache sh sh := ⟨rfl,rfl,rfl,rfl⟩

theorem returnStep_size {pc : ReturnPc} (hi : i.fails = false)
    (h : ReturnStepped sh t .ttl pc i sh' th') : SizeMove sh (.returning .ttl pc) sh' th' := by
  cases h with
  | empty => exact .settle rfl rfl rfl (Or.inl rfl) nofun rfl
  | drain => exact .drain rfl rfl
  | ack => exact .settle rfl rfl rfl (Or.inr ⟨rfl,rfl⟩) nofun rfl
  | ttlEmitted | ttlReturned => exact .complete rfl rfl
  | retry | failTtl => cases hi
  | lock | begin | commit | backoff => exact .keep ⟨rfl,rfl,rfl,rfl⟩ (Or.inl rfl)

theorem threadStep_size (hr : th.releases = false) (hi : i.fails = false)
    (h : threadStep sh t th i = some (sh',th')) : SizeMove sh th sh' th' := by
  cases threadStep_cases h with
  | popLast c _ hq => exact .pop hq rfl
  | pop c rest _ hq => exact .pop hq rfl
  | cachePollingSet _ hk | drainedSet _ _ hk => exact .poll (not_expired_of_not_keepsMode hk) rfl rfl
  | timerExpire _ hm => exact .expire hm rfl
  | returning who pc _ _ _ hs =>
    cases who with
    | ttl => exact returnStep_size hi hs
    | release => cases hr
  | _ => first | exact .keep ⟨rfl,rfl,rfl,rfl⟩ (Or.inl rfl) | cases hr

theorem abandon_size {o : Outcome J} (h : abandon sh th = some sh') :
    th.setsPolling = false ∧ SizeMove sh th sh' (.finished o) := by
  cases abandon_cases h with
  | _ => exact ⟨rfl,.keep ⟨rfl,rfl,rfl,rfl⟩ (Or.inr rfl)⟩

def LoopPc.isStart : LoopPc J → Bool
  | .start => true
  | _ => false

/-- What a step of the loop does, as long as it polls in `Polling` only. -/
inductive LoopSize (n : ℕ) : Shared J → LoopPc J → Shared J → LoopPc J → Prop
  | keep {sh sh' : Shared J} {pc pc' : LoopPc J} (h : SameCache sh sh') (hh : pc'.held = pc.held)
      (hw : pc.isSetWaiting = false) (hp : pc'.polls = true → pc.polls = true ∨ sh.mode = .polling) :
      LoopSize n sh pc sh' pc'
  | begin {sh : Shared J} {pc : LoopPc J} (he : ¬sh.expired) (hh : pc.held = []) :
      LoopSize n sh .start { sh with mode := .polling } pc
  | issue {sh sh' : Shared J} {pc pc' : LoopPc J} (h : SameCache sh sh') (hh : pc'.held.length ≤ n)
      (hp : pc.polls = true) (hw : pc.isSetWaiting = false) : LoopSize n sh pc sh' pc'
  | append {sh : Shared J} {pc pc' : LoopPc J} (hp : pc.polls = true) (hw : pc.isSetWaiting = false)
      (hw' : pc'.isSetWaiting = true) (hh : pc'.held = []) :
      LoopSize n sh pc { sh with jobQueue := sh.jobQueue ++ pc.held } pc'
  | wait {sh : Shared J} {pc pc' : LoopPc J} (hp : pc.polls = true) (hh : pc'.held = []) (hp' : pc'.polls = false) :
      LoopSize n sh pc { sh with mode := .waiting } pc'
  | release {sh : Shared J} {pc pc' : LoopPc J} (hp : pc.polls = true) (hw : pc.isSetWaiting = false)
      (hh : pc'.held = []) (hp' : pc'.polls = false) : LoopSize n sh pc { sh with mode := .released } pc'

theorem loopStep_size (hpoll : pc.polls = true → sh.mode = .polling)
    (ha : answersWithin n (.loop i)) (h : loopStep cfg sh pc i = some (sh',pc')) :
    pc'.isStart = false ∧ LoopSize n sh pc sh' pc' := by
  cases loopStep_cases h with
  | startSet _ hk => exact ⟨rfl,.begin (not_expired_of_not_keepsMode hk) rfl⟩
  | top => exact ⟨rfl,.keep ⟨rfl,rfl,rfl,rfl⟩ rfl rfl fun hp => Or.inr (of_decide_eq_true hp)⟩
  | fetchSql jobs => exact ⟨rfl,.issue ⟨rfl,rfl,rfl,rfl⟩ ((length_number _ jobs).trans_le ha) rfl rfl⟩
  | fetchNotify r =>
    exact ⟨afterResult_not (fun _ => rfl) rfl rfl (Or.inr fun _ => rfl),
      .keep ⟨rfl,rfl,rfl,rfl⟩ (held_afterResult cfg r) rfl fun _ => Or.inl rfl⟩
  | delayReplace t jobs =>
    exact ⟨afterDelay_not (fun _ => rfl) rfl rfl _,
      .keep ⟨rfl,rfl,rfl,rfl⟩ (held_afterDelay cfg jobs) rfl fun _ => Or.inl rfl⟩
  | append jobs => exact ⟨rfl,.append rfl rfl rfl rfl⟩
  | waitingKept _ _ hk =>
    -- the mode is `Polling` here, so it is not kept
    rw [Shared.keepsMode,hpoll rfl] at hk
    cases hk
  | waitingSet => exact ⟨rfl,.wait rfl rfl rfl⟩
  | releasedSet => exact ⟨rfl,.release rfl rfl rfl rfl⟩
  | releasedKept last =>
    exact ⟨afterReleased_not rfl rfl _,
      .keep ⟨rfl,rfl,rfl,rfl⟩ (held_afterReleased last) rfl fun _ => Or.inl rfl⟩
  | releasedNotify last =>
    refine ⟨afterReleased_not rfl rfl _,.keep ⟨rfl,rfl,rfl,rfl⟩ (held_afterReleased last) rfl fun hp => ?_⟩
    rw [afterReleased_not (f := LoopPc.polls) rfl rfl] at hp
    cases hp
  | afterFetchOnce hm => exact ⟨rfl,.keep ⟨rfl,rfl,rfl,rfl⟩ rfl rfl fun _ => Or.inr hm⟩
  | _ => first
    | exact ⟨rfl,.keep ⟨rfl,rfl,rfl,rfl⟩ rfl rfl fun _ => Or.inl rfl⟩
    | exact ⟨rfl,.keep ⟨rfl,rfl,rfl,rfl⟩ rfl rfl fun hp => by cases hp⟩

/-- What holds of the two lists: pending claims mean that a return is not complete,
and a filled cache that the queue waits, is expired, or is about to wait. -/
structure CacheInv (n : ℕ) (sh : Shared J) (pc : LoopPc J) : Prop where
  polls : pc.polls = true → sh.mode = .polling
  held : pc.held.length ≤ n
  fits : sh.jobQueue.length + sh.pending.length ≤ n
  start : pc.isStart = true → sh.jobQueue = [] ∧ sh.pending = []
  pending : sh.pending ≠ [] → sh.expired
  cache : sh.jobQueue ≠ [] → sh.mode = .waiting ∨ sh.expired ∨ pc.isSetWaiting = true

structure StageInv (sh : Shared J) (q : Stage) : Prop where
  live : q ≠ .away → sh.expired
  drained : q = .drained → sh.jobQueue = []
  settled : q = .settled → sh.jobQueue = [] ∧ sh.pending = []

structure SizeInv (n : ℕ) (sh : Shared J) (pc : LoopPc J) (thr : Tid → Thread J) : Prop where
  unreleased : ∀ t, (thr t).releases = false
  cache : CacheInv n sh pc
  one : ∀ t u, (thr t).stage ≠ .away → (thr u).stage ≠ .away → t = u
  stage : ∀ t, StageInv sh (thr t).stage

variable {thr : Tid → Thread J}

theorem SameCache.expired_iff (h : SameCache sh sh') : sh'.expired ↔ sh.expired := by
  rw [Shared.expired,Shared.expired,h.mode,h.complete]

theorem CacheInv.empty (hi : CacheInv n sh pc) (hm : sh.mode = .polling) (hw : pc.isSetWaiting = false) :
    sh.jobQueue = [] ∧ sh.pending = [] := by
  have he := not_expired_of_mode hm (by decide)
  constructor
  · by_contra hq
    rcases hi.cache hq with h | h | h
    · rw [hm] at h
      cases h
    · exact he h
    · rw [hw] at h
      cases h
  · by_contra hp
    exact he (hi.pending hp)

theorem CacheInv.same (hi : CacheInv n sh pc) (h : SameCache sh sh')
    (hp : pc'.polls = true → pc.polls = true ∨ sh.mode = .polling) (hh : pc'.held = pc.held)
    (hs : pc'.isStart = true → pc.isStart = true) (hw : pc.isSetWaiting = true → pc'.isSetWaiting = true) :
    CacheInv n sh' pc' where
  polls hq := h.mode.trans ((hp hq).elim hi.polls id)
  held := hh ▸ hi.held
  fits := by rw [h.jobQueue,h.pending]; exact hi.fits
  start hq := by rw [h.jobQueue,h.pending]; exact hi.start (hs hq)
  pending hp := h.expired_iff.mpr (hi.pending (h.pending ▸ hp))
  cache hq := by rw [h.mode,h.expired_iff]; exact (hi.cache (h.jobQueue ▸ hq)).imp_right (Or.imp_right hw)

theorem CacheInv.of_empty (hp : pc.polls = true → sh.mode = .polling) (hh : pc.held.length ≤ n)
    (hq : sh.jobQueue = []) (he : sh.pending = []) : CacheInv n sh pc where
  polls := hp
  held := hh
  fits := by simp [hq,he]
  start _ := ⟨hq,he⟩
  pending h := absurd he h
  cache h := absurd hq h

theorem StageInv.away (sh : Shared J) : StageInv sh .away := ⟨fun h => absurd rfl h,nofun,nofun⟩

theorem StageInv.same {q : Stage} (hi : StageInv sh q) (h : SameCache sh sh') : StageInv sh' q where
  live hq := h.expired_iff.mpr (hi.live hq)
  drained hq := h.jobQueue.trans (hi.drained hq)
  settled hq := by rw [h.jobQueue,h.pending]; exact hi.settled hq

theorem SizeInv.away_of_not_expired (hi : SizeInv n sh pc thr) (he : ¬sh.expired) (u : Tid) :
    (thr u).stage = .away := by
  by_contra hu
  exact he ((hi.stage u).live hu)

theorem SizeInv.others_away (hi : SizeInv n sh pc thr) (ht : (thr t).stage ≠ .away) (u : Tid) (hu : u ≠ t) :
    (thr u).stage = .away := by
  by_contra h
  exact hu (hi.one u t h ht)

section
variable (hr : ∀ u, (Function.update thr t th u).releases = false)
include hr

theorem SizeInv.of_self (hc : CacheInv n sh pc)
    (ho : ∀ u, u ≠ t → (thr u).stage = .away) (ht : StageInv sh th.stage) :
    SizeInv n sh pc (Function.update thr t th) := by
  have hself (u : Tid) (hu : (Function.update thr t th u).stage ≠ .away) : u = t := by
    by_contra h
    rw [Function.update_of_ne h] at hu
    exact hu (ho u h)
  refine ⟨hr,hc,fun u v hu hv => (hself u hu).trans (hself v hv).symm,fun u => ?_⟩
  by_cases h : u = t
  · rwa [h,Function.update_self]
  · rw [Function.update_of_ne h,ho u h]
    exact .away sh

variable (hi : SizeInv n sh pc thr)
include hi

theorem SizeInv.update (hc : CacheInv n sh' pc) (hst : ∀ q, StageInv sh q → StageInv sh' q)
    (hs : th.stage = (thr t).stage ∨ th.stage = .away) : SizeInv n sh' pc (Function.update thr t th) := by
  have hu (u : Tid) : (Function.update thr t th u).stage = (thr u).stage ∨
      (Function.update thr t th u).stage = .away := by
    by_cases hu : u = t
    · rw [hu,Function.update_self]
      exact hs
    · rw [Function.update_of_ne hu]
      exact Or.inl rfl
  have hne (u : Tid) (h : (Function.update thr t th u).stage ≠ .away) : (thr u).stage ≠ .away := by
    rwa [(hu u).resolve_right h] at h
  refine ⟨hr,hc,fun u v hu hv => hi.one u v (hne u hu) (hne v hv),fun u => ?_⟩
  rcases hu u with hu | hu <;> rw [hu]
  · exact hst _ (hi.stage u)
  · exact .away sh'

theorem SizeInv.same (h : SameCache sh sh') (hs : th.stage = (thr t).stage ∨ th.stage = .away) :
    SizeInv n sh' pc (Function.update thr t th) :=
  hi.update hr (hi.cache.same h Or.inl rfl id id) (fun _ hq => hq.same h) hs

theorem SizeInv.pop {c : Claim J} {rest : List (Claim J)} {handed : List (Tid × Claim J)} {lock : Option Tid}
    (hq : sh.jobQueue = c :: rest) (hs : th.stage = .away) :
    SizeInv n { sh with jobQueue := rest, jobQueueLock := lock, handed := handed } pc (Function.update thr t th) := by
  have hne : sh.jobQueue ≠ [] := by simp [hq]
  have hf : rest.length + sh.pending.length ≤ n := by
    have := hi.cache.fits
    rw [hq,List.length_cons] at this
    omega
  have hc : CacheInv n { sh with jobQueue := rest, jobQueueLock := lock, handed := handed } pc :=
    ⟨hi.cache.polls,hi.cache.held,hf,fun h => absurd (hi.cache.start h).1 hne,hi.cache.pending,
      fun _ => hi.cache.cache hne⟩
  refine hi.update hr hc (fun q hq => ?_) (Or.inr hs)
  exact ⟨hq.live,fun hd => absurd (hq.drained hd) hne,fun hd => absurd (hq.settled hd).1 hne⟩

theorem SizeInv.move (hok : (thr t).setsPolling = true → sh.mode = .waiting → sh.jobQueue = [])
    (hm : SizeMove sh (thr t) sh' th) : SizeInv n sh' pc (Function.update thr t th) := by
  have hc := hi.cache
  have hst := hi.stage t
  have hothers := hi.others_away (t := t)
  generalize hth : thr t = th₀ at hm hok hst hothers
  cases hm with
  | keep h hs => exact hi.same hr h (hth ▸ hs)
  | pop hq hs => exact hi.pop hr hq hs
  | poll he hp hs =>
    -- the switch is refused while a return is under way, and the cache is not filled
    have hq : sh.jobQueue ≠ [] → pc.isSetWaiting = true := fun hq => by
      rcases hc.cache hq with h | h | h
      · exact absurd (hok hp h) hq
      · exact absurd h he
      · exact h
    have hpe : sh.pending = [] := by
      by_contra h
      exact he (hc.pending h)
    refine .of_self hr ⟨fun _ => rfl,hc.held,hc.fits,hc.start,fun h => absurd hpe h,fun h => Or.inr (Or.inr (hq h))⟩
      (fun u _ => hi.away_of_not_expired he u) ?_
    rw [hs]
    exact .away _
  | expire hm hs =>
    have hne := not_expired_of_mode hm (by decide)
    refine .of_self hr ⟨fun hp => ?_,hc.held,hc.fits,hc.start,fun _ => ⟨rfl,rfl⟩,fun _ => Or.inr (Or.inl ⟨rfl,rfl⟩)⟩
      (fun u _ => hi.away_of_not_expired hne u) ?_
    · rw [hc.polls hp] at hm
      cases hm
    · rw [hs]
      exact ⟨fun _ => ⟨rfl,rfl⟩,nofun,nofun⟩
  | drain hs hs' =>
    have he : sh.expired := hst.live (by rw [hs]; decide)
    have hf : ([] : List (Claim J)).length + (sh.pending ++ sh.jobQueue).length ≤ n := by
      have := hc.fits
      simp only [List.length_nil,List.length_append]
      omega
    refine .of_self hr ⟨hc.polls,hc.held,hf,fun h => ?_,fun _ => he,fun h => absurd rfl h⟩
      (hothers (by rw [hs]; decide)) ?_
    · obtain ⟨hq,hp⟩ := hc.start h
      exact ⟨rfl,by simp [hq,hp]⟩
    · rw [hs']
      exact ⟨fun _ => he,fun _ => rfl,nofun⟩
  | settle hm hcm hp hq hs hs' =>
    have he : sh.expired := hst.live hs
    have hq' : sh'.jobQueue = [] := by
      rcases hq with h | ⟨hd,h⟩
      · exact h
      · exact h.trans (hst.drained hd)
    refine .of_self hr (.of_empty (fun h => hm.trans (hc.polls h)) hc.held hq' hp) (hothers hs) ?_
    rw [hs']
    exact ⟨fun _ => ⟨hm.trans he.1,hcm.trans he.2⟩,nofun,fun _ => ⟨hq',hp⟩⟩
  | complete hs hs' =>
    obtain ⟨hq,hp⟩ := hst.settled hs
    refine .of_self hr (.of_empty hc.polls hc.held hq hp) (hothers (by rw [hs]; decide)) ?_
    rw [hs']
    exact .away _

end

theorem SizeInv.loop (hi : SizeInv n sh pc thr) (hs : pc'.isStart = false) (hm : LoopSize n sh pc sh' pc') :
    SizeInv n sh' pc' thr := by
  have hc := hi.cache
  -- a counter that polls finds `Polling`, so nobody returns
  have hnone (hp : pc.polls = true) (u : Tid) : (thr u).stage = .away :=
    hi.away_of_not_expired (not_expired_of_mode (hc.polls hp) (by decide)) u
  have hquiet {sh' : Shared J} (hp : pc.polls = true) (h : CacheInv n sh' pc') : SizeInv n sh' pc' thr :=
    ⟨hi.unreleased,h,hi.one,fun u => by rw [hnone hp u]; exact .away sh'⟩
  cases hm with
  | keep h hh hw hp =>
    exact ⟨hi.unreleased,hc.same h hp hh (by simp [hs]) (by simp [hw]),hi.one,fun u => (hi.stage u).same h⟩
  | begin he hh =>
    obtain ⟨hq,hp⟩ := hc.start rfl
    refine ⟨hi.unreleased,.of_empty (fun _ => rfl) (by simp [hh]) hq hp,hi.one,fun u => ?_⟩
    rw [hi.away_of_not_expired he u]
    exact .away _
  | issue h hh hp hw =>
    obtain ⟨hq,he⟩ := hc.empty (hc.polls hp) hw
    exact hquiet hp (.of_empty (fun _ => h.mode.trans (hc.polls hp)) hh (h.jobQueue.trans hq) (h.pending.trans he))
  | append hp hw hw' hh =>
    obtain ⟨hq,he⟩ := hc.empty (hc.polls hp) hw
    have hf : (sh.jobQueue ++ pc.held).length + sh.pending.length ≤ n := by
      rw [hq,he]
      exact hc.held
    exact hquiet hp ⟨fun _ => hc.polls hp,by simp [hh],hf,by simp [hs],fun h => absurd he h,
      fun _ => Or.inr (Or.inr hw')⟩
  | wait hp hh hp' =>
    have he : sh.pending = [] := by
      by_contra h
      exact not_expired_of_mode (hc.polls hp) (by decide) (hc.pending h)
    exact hquiet hp ⟨by simp [hp'],by simp [hh],hc.fits,by simp [hs],fun h => absurd he h,fun _ => Or.inl rfl⟩
  | release hp hw hh hp' =>
    obtain ⟨hq,he⟩ := hc.empty (hc.polls hp) hw
    exact hquiet hp (.of_empty (by simp [hp']) (by simp [hh]) hq he)

theorem SizeInv.step {a : Action J} (hi : SizeInv n s.sh s.loop s.thr) (ha : returnsSucceed a = true)
    (hw : answersWithin n a) (hok : pollsEmptyCache s a = true) (h : step cfg s a = some s') :
    SizeInv n s'.sh s'.loop s'.thr := by
  have hr := step_unreleased hi.unreleased (releases_of_returnsSucceed ha) h
  cases step_cases h with
  | loop i sh pc hl =>
    obtain ⟨hs,hm⟩ := loopStep_size hi.cache.polls hw hl
    exact hi.loop hs hm
  | spawnTimer t mx hl ht =>
    have hn : SizeInv n s.sh s.loop (Function.update s.thr t .timerSleep) := hi.same hr (.refl _) (Or.inr rfl)
    refine hn.loop rfl ?_
    rw [hl]
    exact .keep (.refl _) rfl rfl nofun
  | spawnDelay t jobs hl ht =>
    have hn : SizeInv n s.sh s.loop (Function.update s.thr t .delayStart) := hi.same hr (.refl _) (Or.inr rfl)
    refine hn.loop rfl ?_
    rw [hl]
    exact .keep (.refl _) rfl rfl fun _ => Or.inl rfl
  | start t c ht => exact hi.same hr (.refl _) (Or.inr (by cases c <;> rfl))
  | thread t i sh th hp =>
    refine hi.move hr ?_ (threadStep_size (hi.unreleased t) (by simpa [returnsSucceed] using ha) hp)
    intro ht hm
    simpa [pollsEmptyCache,ht,hm] using hok
  | die t sh hd hp =>
    obtain ⟨hn,hm⟩ := abandon_size (o := .ended) hp
    exact hi.move hr (by simp [hn]) hm
  | cancel t sh hc hp =>
    have hn := hi.unreleased t
    rw [Thread.releases_of_isRelease hc] at hn
    cases hn

theorem sizeInv_initial : SizeInv n (initial : State J).sh initial.loop initial.thr where
  unreleased _ := rfl
  cache := .of_empty nofun (Nat.zero_le n) rfl rfl
  one _ _ ht := absurd rfl ht
  stage _ := .away _

open Database

/-- What the loop receives is an answer of the batch query, limited to the size of the
queue; the tables may be any tables. -/
def answersQuery (cfg : Config) : Action Job → Prop
  | .loop (.batch (some jobs)) => ∃ db taskIds w filter now,
      jobs = (batchGetJobsWithFilter db taskIds w filter (min cfg.size (2 ^ 31 - 1)) now).2
  | _ => True

theorem answersWithin_of_answersQuery {a : Action Job} (h : answersQuery cfg a) : answersWithin cfg.size a := by
  unfold answersQuery at h
  split at h
  · obtain ⟨db,taskIds,w,filter,now,rfl⟩ := h
    exact (length_batchGetJobsWithFilter _).trans (Nat.min_le_left _ _)
  · next hn =>
    unfold answersWithin
    split
    · exact absurd rfl (hn _)
    · trivial

/-- If no consumer switches a waiting queue to `Polling` over a filled cache, the cache and the pending
returns hold at most `size` jobs, and both are empty while the batch query runs. -/
theorem local_queue_within_size {s : State Job}
    (h : Reaches (step cfg) (fun s a => (returnsSucceed a = true ∧ pollsEmptyCache s a = true) ∧ answersQuery cfg a)
      initial s) :
    s.sh.jobQueue.length + s.sh.pending.length ≤ cfg.size ∧
      (s.loop = .fetchSql → s.sh.jobQueue = [] ∧ s.sh.pending = []) := by
  have hi := h.invariant (I := fun s => SizeInv cfg.size s.sh s.loop s.thr)
    (fun _ _ _ hok hs hi => hi.step hok.1.1 (answersWithin_of_answersQuery hok.2) hok.1.2 hs) sizeInv_initial
  refine ⟨hi.cache.fits,fun hl => ?_⟩
  have hp : s.loop.polls = true := by rw [hl]; rfl
  exact hi.cache.empty (hi.cache.polls hp) (by rw [hl]; rfl)

def claimedOf : ℕ → Db
  | 0 => after [(0,.addJobs [⟨"task",.null,{}⟩,⟨"task",.null,{}⟩,⟨"task",.null,{}⟩] false none)]
  | n + 1 => (batchGetJobsWithFilter (claimedOf n) [1] "w" .unrestricted 1 1).1

def nextJob (n : ℕ) : List Job := (batchGetJobsWithFilter (claimedOf n) [1] "w" .unrestricted 1 1).2

def oneByOne : Config := { size := 1 }

def lastTaken : List (Action Job) :=
  firstFetch (nextJob 0) ++ loopTicks 6 ++ [Action.spawnTimer 1] ++ loopTicks 3 ++
  Action.start 2 (.getJob false) :: threadTicks 2 5

/-- The TTL passes over the empty cache, and consumer 3 switches to `Polling`. -/
def ttlCycle : List (Action Job) :=
  [Action.thread 1 .elapsed] ++ threadTicks 1 6 ++ Action.start 3 (.getJob false) :: threadTicks 3 7

/-- The second job is cached in `Waiting`, and consumer 2 goes on. -/
def lateSwitch : List (Action Job) :=
  loopTicks 2 ++ [Action.loop (.boundary true)] ++ loopTicks 4 ++ [Action.loop (.batch (some (nextJob 1)))] ++
  loopTicks 5 ++ threadTicks 2 1

def queryAgain : List (Action Job) :=
  loopTicks 1 ++ [Action.spawnTimer 4] ++ loopTicks 7 ++ [Action.loop (.boundary true)] ++ loopTicks 4

theorem answersQuery_nextJob (n : ℕ) : answersQuery oneByOne (.loop (.batch (some (nextJob n)))) :=
  ⟨claimedOf n,[1],"w",.unrestricted,1,rfl⟩

theorem lastTaken_within_size : ∃ s : State Job,
    Reaches (step oneByOne)
      (fun s a => (returnsSucceed a = true ∧ pollsEmptyCache s a = true) ∧ answersQuery oneByOne a) initial s ∧
    s.sh.handed.length = 1 ∧ s.sh.jobQueue.length + s.sh.pending.length ≤ 1 := by
  have he : (exec (step oneByOne) (fun s a => returnsSucceed a = true ∧ pollsEmptyCache s a = true) initial
      lastTaken).map (fun s => s.sh.handed.length) = some 1 := by decide
  obtain ⟨s,hs,hf⟩ := Option.map_eq_some_iff.mp he
  have hq : ∀ a ∈ lastTaken, answersQuery oneByOne a := by
    simpa [lastTaken,firstFetch,loopTicks,threadTicks,answersQuery] using answersQuery_nextJob 0
  have hr := reaches_exec_forall hs hq
  exact ⟨s,hr,hf,(local_queue_within_size hr).1⟩

/-- Consumer 2 switches the waiting queue to `Polling` over the second job; a query is then started over it. -/
theorem late_switch_overfills :
    (∃ s : State Job, Reaches (step oneByOne) (fun _ a => returnsSucceed a = true ∧ answersQuery oneByOne a) initial s ∧
      s.loop = .fetchSql ∧ s.sh.jobQueue.length = 1) ∧
    ∃ s : State Job, Reaches (step oneByOne) (fun _ a => returnsSucceed a = true ∧ answersQuery oneByOne a) initial s ∧
      oneByOne.size < s.sh.jobQueue.length + s.sh.pending.length := by
  have hq : ∀ a ∈ lastTaken ++ (ttlCycle ++ (lateSwitch ++ queryAgain)), answersQuery oneByOne a := by
    simpa [lastTaken,ttlCycle,lateSwitch,queryAgain,firstFetch,loopTicks,threadTicks,answersQuery] using
      And.intro (answersQuery_nextJob 0) (answersQuery_nextJob 1)
  have hq' : ∀ a ∈ .loop (.batch (some (nextJob 2))) :: loopTicks 4, answersQuery oneByOne a := by
    simpa [loopTicks,answersQuery] using answersQuery_nextJob 2
  constructor
  · have he : (exec (step oneByOne) (fun _ a => returnsSucceed a = true) initial
        (lastTaken ++ (ttlCycle ++ (lateSwitch ++ queryAgain)))).map
        (fun s => (s.loop.isFetchSql,s.sh.jobQueue.length)) = some (true,1) := by decide
    obtain ⟨s,hs,hf⟩ := Option.map_eq_some_iff.mp he
    simp only [Prod.mk.injEq] at hf
    exact ⟨s,reaches_exec_forall hs hq,LoopPc.isFetchSql_iff.mp hf.1,hf.2⟩
  · have he : (exec (step oneByOne) (fun _ a => returnsSucceed a = true) initial
        ((lastTaken ++ (ttlCycle ++ (lateSwitch ++ queryAgain))) ++
          .loop (.batch (some (nextJob 2))) :: loopTicks 4)).map
        (fun s => s.sh.jobQueue.length) = some 2 := by decide
    obtain ⟨s,hs,hf⟩ := Option.map_eq_some_iff.mp he
    refine ⟨s,reaches_exec_forall hs (List.forall_mem_append.mpr ⟨hq,hq'⟩),?_⟩
    rw [hf]
    exact Nat.lt_of_lt_of_le (by decide : oneByOne.size < 2) (Nat.le_add_right 2 _)

end GraphileWorker.LocalQueue
