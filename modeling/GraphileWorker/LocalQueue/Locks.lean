import GraphileWorker.LocalQueue.Conservation
import GraphileWorker.Foundation.Ownership

/-! # The lock on the pending returns and the permit

A return owns the lock from the moment it takes it until it is acknowledged, gives up or is
dropped. From the drain on it has a permit.
-/
namespace GraphileWorker.LocalQueue
open Foundation
variable {J : Type} {th th' : Thread J} {who : Caller} {pc : ReturnPc} {i : Input J} {o : Outcome J} {a : Action J}

/-- Return counters at which the lock is held. -/
def ReturnPc.owns : ReturnPc → Bool
  | .begin | .drain | .sql _ _ | .backoff _ => true
  | .lock | .emitting | .returned => false

/-- Return counters at which the permit exists. -/
def ReturnPc.permitted : ReturnPc → Bool
  | .drain | .sql _ _ | .backoff _ => true
  | .lock | .begin | .emitting | .returned => false

def Thread.ownsPending : Thread J → Bool
  | .returning _ pc => pc.owns
  | _ => false

def Thread.permitted : Thread J → Bool
  | .returning _ pc => pc.permitted
  | _ => false

theorem Thread.permitted_owns (h : th.permitted = true) : th.ownsPending = true := by
  cases th with
  | returning who pc => cases pc <;> first | rfl | cases h
  | _ => cases h

/-- The part of the shared fields that returns work on. -/
structure Pending (J : Type) where
  lock : Option Tid
  permit : Bool
  jobs : List (Claim J)

def Shared.view (sh : Shared J) : Pending J := ⟨sh.pendingLock,sh.permit,sh.pending⟩

/-- What a step of thread `t` can do to the pending returns. -/
inductive PendingMove (t : Tid) : Pending J → Thread J → Pending J → Thread J → Prop
  | keep {v : Pending J} {th th' : Thread J} (ho : th'.ownsPending = th.ownsPending)
      (hp : th'.permitted = th.permitted) : PendingMove t v th v th'
  | lock (v : Pending J) (who : Caller) (hl : v.lock = none) :
      PendingMove t v (.returning who .lock) { v with lock := some t } (.returning who .begin)
  | begin (v : Pending J) (who : Caller) :
      PendingMove t v (.returning who .begin) { v with permit := true } (.returning who .drain)
  | drain (v : Pending J) (who : Caller) (jobs : List (Claim J)) :
      PendingMove t v (.returning who .drain) { v with jobs := v.jobs ++ jobs } (.returning who (.sql 0 false))
  | clear {v : Pending J} {th th' : Thread J} (hp : th.permitted = true) (ho : th'.ownsPending = false) :
      PendingMove t v th ⟨none,false,[]⟩ th'
  | leave {v : Pending J} {th th' : Thread J} (ho : th.ownsPending = true) (ho' : th'.ownsPending = false) :
      PendingMove t v th { v with lock := none } th'

variable {cfg : Config} {sh sh' : Shared J} {s s' : State J} {t : Tid}

theorem returnStep_pending
    (h : ReturnStepped sh t who pc i sh' th) : PendingMove t sh.view (.returning who pc) sh'.view th := by
  cases h with
  | lock who hl => exact .lock _ who hl
  | begin who => exact .begin _ who
  | drain who => exact .drain _ who _
  | empty | ack => exact .clear rfl rfl
  | failTtl | failRelease => exact .leave rfl rfl
  | _ => exact .keep rfl rfl

theorem threadStep_pending (h : threadStep sh t th i = some (sh',th')) : PendingMove t sh.view th sh'.view th' := by
  cases threadStep_cases h with
  | returning _ _ _ _ _ hr => exact returnStep_pending hr
  | _ => exact .keep rfl rfl

theorem abandon_pending (h : abandon sh th = some sh') :
    PendingMove t sh.view th sh'.view (.finished o) := by
  cases abandon_cases h with
  | ttlReturning pc hp | releaseReturning pc hp =>
    refine .leave ?_ rfl
    cases pc <;> first | rfl | simp at hp
  | _ => exact .keep rfl rfl

theorem loopStep_view {pc pc' : LoopPc J} (h : loopStep cfg sh pc i = some (sh',pc')) :
    sh'.view = sh.view := by
  cases loopStep_cases h with
  | _ => rfl

theorem step_pending (h : step cfg s a = some s') :
    ∃ t th, s'.thr = Function.update s.thr t th ∧ PendingMove t s.sh.view (s.thr t) s'.sh.view th := by
  cases step_cases h with
  | loop i sh pc hp =>
    exact ⟨0,s.thr 0,(Function.update_eq_self 0 s.thr).symm,loopStep_view hp ▸ .keep rfl rfl⟩
  | spawnTimer t mx hl ht => exact ⟨t,_,rfl,by rw [ht]; exact .keep rfl rfl⟩
  | spawnDelay t jobs hl ht => exact ⟨t,_,rfl,by rw [ht]; exact .keep rfl rfl⟩
  | start t c ht => exact ⟨t,_,rfl,by rw [ht]; cases c <;> exact .keep rfl rfl⟩
  | thread t i sh th hp => exact ⟨t,th,rfl,threadStep_pending hp⟩
  | die t sh ha hp | cancel t sh hr hp => exact ⟨t,_,rfl,abandon_pending hp⟩

structure PendingInv (v : Pending J) (thr : Tid → Thread J) : Prop where
  owned : Owned Thread.ownsPending thr v.lock
  permitted : ∀ t, (thr t).permitted = true → v.permit = true
  backed : v.jobs ≠ [] → v.permit = true

theorem PendingMove.handover {v v' : Pending J} (h : PendingMove t v th v' th') :
    Handover t th.ownsPending v.lock th'.ownsPending v'.lock := by
  cases h with
  | keep ho hp => rw [ho]; exact .keep _ _
  | lock who hl => rw [hl]; exact .take
  | begin | drain => exact .keep _ _
  | clear hp ho => rw [Thread.permitted_owns hp,ho]; exact .give _
  | leave ho ho' => rw [ho,ho']; exact .give _

theorem PendingInv.move {v v' : Pending J} {thr : Tid → Thread J} (hi : PendingInv v thr)
    (h : PendingMove t v (thr t) v' th) : PendingInv v' (Function.update thr t th) := by
  refine ⟨hi.owned.handover h.handover,?_,?_⟩
  · rw [Function.forall_update_iff thr (fun _ th => th.permitted = true → v'.permit = true)]
    have ht := hi.permitted t
    have hl := (hi.owned t).mp
    generalize thr t = th₀ at h ht hl
    cases h with
    | keep ho hp => exact ⟨fun h => ht (hp ▸ h),fun u _ => hi.permitted u⟩
    | lock => exact ⟨nofun,fun u _ => hi.permitted u⟩
    | begin => exact ⟨fun _ => rfl,fun _ _ _ => rfl⟩
    | drain => exact ⟨fun _ => ht rfl,fun u _ => hi.permitted u⟩
    | clear hp ho =>
      refine ⟨fun h => ?_,fun u hu h => ?_⟩
      · rw [Thread.permitted_owns h] at ho
        cases ho
      · -- another return would own the same lock
        have hlu := (hi.owned u).mp (Thread.permitted_owns h)
        exact absurd (Option.some.inj (hlu.symm.trans (hl (Thread.permitted_owns hp)))) hu
    | leave ho ho' =>
      refine ⟨fun h => ?_,fun u _ => hi.permitted u⟩
      rw [Thread.permitted_owns h] at ho'
      cases ho'
  · have ht := hi.permitted t
    generalize thr t = th₀ at h ht
    cases h with
    | keep | lock | leave => exact hi.backed
    | begin => exact fun _ => rfl
    | drain => exact fun _ => ht rfl
    | clear => exact fun h => absurd rfl h

theorem Runs.pendingInv (h : Runs cfg initial s) : PendingInv s.sh.view s.thr := by
  refine h.invariant (I := fun s => PendingInv s.sh.view s.thr) ?_ ?_
  · intro s a s' _ he hi
    obtain ⟨t,th,hthr,hm⟩ := step_pending he
    exact hthr ▸ hi.move hm
  · exact ⟨fun t => ⟨nofun,nofun⟩,fun t => nofun,fun h => absurd rfl h⟩

section OwnedLock
variable {own : Thread J → Bool} {l : Shared J → Option Tid}

theorem Runs.owned (h : Runs cfg initial s) (hfree : l {} = none)
    (hnew : own .idle = false ∧ own .timerSleep = false ∧ own .delayStart = false ∧ ∀ c : Call, own c.enter = false)
    (hloop : ∀ sh pc i sh' pc', loopStep cfg sh pc i = some (sh',pc') → l sh' = l sh)
    (hthread : ∀ sh t th i sh' th', threadStep sh t th i = some (sh',th') →
      Handover t (own th) (l sh) (own th') (l sh'))
    (habandon : ∀ sh t th sh' o, abandon sh th = some sh' →
      Handover t (own th) (l sh) (own (.finished o)) (l sh')) : Owned own s.thr (l s.sh) := by
  obtain ⟨hidle,htimer,hdelay,hcall⟩ := hnew
  refine h.invariant (I := fun s => Owned own s.thr (l s.sh)) ?_ fun t => ?_
  · intro s a s' _ hs hi
    cases step_cases hs with
    | loop i sh pc hl => exact hloop _ _ _ _ _ hl ▸ hi
    | spawnTimer t mx hl ht => exact hi.handover (by rw [ht,hidle,htimer]; exact .keep _ _)
    | spawnDelay t jobs hl ht => exact hi.handover (by rw [ht,hidle,hdelay]; exact .keep _ _)
    | start t c ht => exact hi.handover (by rw [ht,hidle,hcall]; exact .keep _ _)
    | thread t i sh th hp => exact hi.handover (hthread _ _ _ _ _ _ hp)
    | die t sh ha hp | cancel t sh ha hp => exact hi.handover (habandon _ _ _ _ _ hp)
  · change own .idle = true ↔ l {} = some t
    rw [hidle,hfree]
    exact ⟨nofun,nofun⟩

end OwnedLock

/-- The consumer that holds the lock on the cache. -/
def Thread.ownsCache : Thread J → Bool
  | .cachePop => true
  | _ => false

theorem Thread.ownsCache_iff : th.ownsCache = true ↔ th = .cachePop := by
  cases th <;> simp [Thread.ownsCache]

theorem returnStep_cacheLock
    (h : ReturnStepped sh t who pc i sh' th) : Handover t false sh.jobQueueLock th.ownsCache sh'.jobQueueLock := by
  cases h with
  | _ => exact .keep _ _

theorem threadStep_cacheLock (h : threadStep sh t th i = some (sh',th')) :
    Handover t th.ownsCache sh.jobQueueLock th'.ownsCache sh'.jobQueueLock := by
  cases threadStep_cases h with
  | cacheLock hl =>
    rw [hl]
    exact .take
  | cacheNone | popLast | pop => exact .give _
  | returning _ _ _ _ _ hr => exact returnStep_cacheLock hr
  | _ => exact .keep _ _

theorem loopStep_cacheLock {pc pc' : LoopPc J} (h : loopStep cfg sh pc i = some (sh',pc')) :
    sh'.jobQueueLock = sh.jobQueueLock := by
  cases loopStep_cases h with
  | _ => rfl

theorem abandon_cacheLock (h : abandon sh th = some sh') :
    Handover t th.ownsCache sh.jobQueueLock (.finished o : Thread J).ownsCache sh'.jobQueueLock := by
  cases abandon_cases h with
  | _ => exact .keep _ _

theorem Runs.cacheOwned (h : Runs cfg initial s) : Owned Thread.ownsCache s.thr s.sh.jobQueueLock :=
  h.owned (l := Shared.jobQueueLock) rfl ⟨rfl,rfl,rfl,fun c => by cases c <;> rfl⟩
    (fun _ _ _ _ _ => loopStep_cacheLock) (fun _ _ _ _ _ _ => threadStep_cacheLock)
    fun _ _ _ _ _ => abandon_cacheLock

def begins (s : State J) : Action J → Bool
  | .thread t .tick => match s.thr t with
    | .returning _ .begin => !s.sh.permit
    | _ => false
  | _ => false

theorem PendingMove.permit {v v' : Pending J} (h : PendingMove t v th v' th')
    (hp : v'.permit = true) : v.permit = true ∨ ∃ who, th = .returning who .begin := by
  cases h with
  | keep | lock | drain | leave => exact Or.inl hp
  | begin who => exact Or.inr ⟨who,rfl⟩
  | clear => cases hp

theorem abandon_permit (h : abandon sh th = some sh') : sh'.permit = sh.permit := by
  cases abandon_cases h with
  | _ => rfl

theorem step_permit (h : step cfg s a = some s') (hp : s'.sh.permit = true) :
    s.sh.permit = true ∨ begins s a = true := by
  cases step_cases h with
  | loop i sh pc hl => exact Or.inl ((congrArg Pending.permit (loopStep_view hl)).symm.trans hp)
  | spawnTimer | spawnDelay | start => exact Or.inl hp
  | thread t i sh th ht =>
    rcases (threadStep_pending ht).permit hp with hp | ⟨who,hw⟩
    · exact Or.inl hp
    · cases hs : s.sh.permit with
      | true => exact Or.inl rfl
      | false =>
        rw [hw] at ht
        cases i with
        | tick => exact Or.inr (by simp [begins,hw,hs])
        | _ => cases ht
  | die t sh ha hd | cancel t sh ha hd => exact Or.inl ((abandon_permit hd).symm.trans hp)

end GraphileWorker.LocalQueue
