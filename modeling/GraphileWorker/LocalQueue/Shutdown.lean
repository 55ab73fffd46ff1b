import GraphileWorker.LocalQueue.Locks

/-! # Shutdown of a local queue

A release goes through phases: the mode is `Released`, the loop has ended, the cache is
drained, nothing is pending. Each phase lasts once it is reached.
-/
namespace GraphileWorker.LocalQueue
open Foundation
variable {J : Type} {who : Caller} {i : Input J} {o : Outcome J} {a : Action J}

/-- The shared fields that a shutdown is about. -/
structure Closing (J : Type) where
  mode : Mode
  runComplete : Bool
  releaseComplete : Bool
  jobQueue : List (Claim J)
  pending : List (Claim J)
  issued : List (Claim J)
  handed : List (Tid × Claim J)

def Shared.closing (sh : Shared J) : Closing J :=
  ⟨sh.mode,sh.runComplete,sh.releaseComplete,sh.jobQueue,sh.pending,sh.issued,sh.handed⟩

/-- The first `k` phases are reached. -/
structure Closed (v : Closing J) (k : ℕ) : Prop where
  released : 1 ≤ k → v.mode = .released
  ended : 2 ≤ k → v.runComplete = true
  drained : 3 ≤ k → v.jobQueue = []
  returned : 4 ≤ k → v.pending = []

theorem Closed.mono {v : Closing J} {j k : ℕ} (h : Closed v k) (hj : j ≤ k) : Closed v j where
  released hk := h.released (hk.trans hj)
  ended hk := h.ended (hk.trans hj)
  drained hk := h.drained (hk.trans hj)
  returned hk := h.returned (hk.trans hj)

theorem Closed.zero (v : Closing J) : Closed v 0 := ⟨nofun,nofun,nofun,nofun⟩

/-- The phases a release relies on at each of its counters, and those it has left
behind when it is over. -/
def Thread.phase : Thread J → ℕ
  | .releaseDelay | .releaseAbortNotify | .releaseStateNotify | .releaseTimer | .releaseWait
  | .releaseCheck _ | .releaseCreated _ | .releaseParked _ => 1
  | .releaseTimerAgain | .releaseDelayTask => 2
  | .returning .release .lock | .returning .release .begin | .returning .release .drain => 2
  | .returning .release (.sql _ _) | .returning .release (.backoff _) => 3
  | .returning .release .emitting | .returning .release .returned => 4
  | .finished (.released true) => 4
  | .finished (.released false) => 2
  | _ => 0

/-- What a step of a thread can do to these fields. -/
inductive Closes : Closing J → Thread J → Closing J → Thread J → Prop
  | keep {v : Closing J} {th th' : Thread J} (hk : th'.phase ≤ th.phase) : Closes v th v th'
  | mode {v : Closing J} {th th' : Thread J} {m : Mode} (hm : v.mode = .released → m = .released)
      (hk : th'.phase ≤ th.phase) : Closes v th { v with mode := m } th'
  | release (v : Closing J) : Closes v .releaseMode { v with mode := .released } .releaseDelay
  | ended (v : Closing J) (b : ℕ) (hr : v.runComplete = true) : Closes v (.releaseCheck b) v .releaseTimerAgain
  | pop (v : Closing J) (t : Tid) (c : Claim J) (rest : List (Claim J)) (th : Thread J)
      (hq : v.jobQueue = c :: rest) (hk : th.phase = 0) :
      Closes v .cachePop { v with jobQueue := rest, handed := v.handed ++ [(t,c)] } th
  | drain (v : Closing J) (who : Caller) :
      Closes v (.returning who .drain) { v with jobQueue := [], pending := v.pending ++ v.jobQueue }
        (.returning who (.sql 0 false))
  | empty (v : Closing J) (who : Caller) :
      Closes v (.returning who .drain) { v with jobQueue := [], pending := [] } (.returning who .returned)
  | ack (v : Closing J) (who : Caller) (attempt : ℕ) (committed : Bool) :
      Closes v (.returning who (.sql attempt committed)) { v with pending := [] } (.returning who .emitting)
  | known (v : Closing J) (hr : v.releaseComplete = true) : Closes v .releaseStart v (.finished (.released true))
  | complete (v : Closing J) (pc : ReturnPc) (hk : (Thread.returning .release pc : Thread J).phase = 4) :
      Closes v (.returning .release pc) { v with releaseComplete := true } (.finished (.released true))

variable {cfg : Config} {sh sh' : Shared J} {s s' : State J} {t : Tid} {v v' : Closing J} {th th' : Thread J}

section
variable (h : Closes v th v' th')
include h

theorem Closes.stable {k : ℕ} (hc : Closed v k) : Closed v' k := by
  cases h with
  | keep | ended | known => exact hc
  | mode hm => exact ⟨fun hk => hm (hc.released hk),hc.ended,hc.drained,hc.returned⟩
  | release => exact ⟨fun _ => rfl,hc.ended,hc.drained,hc.returned⟩
  | pop t c rest th hq =>
    refine ⟨hc.released,hc.ended,fun hk => ?_,hc.returned⟩
    rw [hc.drained hk] at hq
    cases hq
  | drain who =>
    refine ⟨hc.released,hc.ended,fun _ => rfl,fun hk => ?_⟩
    simp [hc.returned hk,hc.drained (by omega)]
  | empty who => exact ⟨hc.released,hc.ended,fun _ => rfl,fun _ => rfl⟩
  | ack who => exact ⟨hc.released,hc.ended,hc.drained,fun _ => rfl⟩
  | complete => exact ⟨hc.released,hc.ended,hc.drained,hc.returned⟩

theorem Closes.advance (hc : Closed v th.phase)
    (hr : v.releaseComplete = true → Closed v 4) : Closed v' th'.phase := by
  have hs : ∀ k, Closed v k → Closed v' k := fun k => h.stable
  cases h with
  | keep hk => exact hc.mono hk
  | mode hm hk => exact (hs _ hc).mono hk
  | release => exact ⟨fun _ => rfl,nofun,nofun,nofun⟩
  | ended b hr => exact ⟨fun _ => hc.released le_rfl,fun _ => hr,nofun,nofun⟩
  | pop t c rest th hq hk => rw [hk]; exact .zero _
  | drain who =>
    cases who with
    | ttl => exact .zero _
    | release => exact ⟨fun _ => hc.released (by simp [Thread.phase]),fun _ => hc.ended le_rfl,fun _ => rfl,nofun⟩
  | empty who =>
    cases who with
    | ttl => exact .zero _
    | release =>
      have hr := hc.released (by simp [Thread.phase])
      have he := hc.ended le_rfl
      exact ⟨fun _ => hr,fun _ => he,fun _ => rfl,fun _ => rfl⟩
  | ack who =>
    cases who with
    | ttl => exact .zero _
    | release =>
      have hr := hc.released (by simp [Thread.phase])
      have he := hc.ended (by simp [Thread.phase])
      have hd := hc.drained le_rfl
      exact ⟨fun _ => hr,fun _ => he,fun _ => hd,fun _ => rfl⟩
  | known hk => exact hr hk
  | complete pc hk => rw [hk] at hc; exact hs _ hc

theorem Closes.releaseComplete (hr : v'.releaseComplete = true) :
    v.releaseComplete = true ∨ th.phase = 4 := by
  cases h with
  | complete pc hk => exact Or.inr hk
  | _ => exact Or.inl hr

theorem Closes.runComplete : v'.runComplete = v.runComplete := by
  cases h <;> rfl

theorem Closes.taken (hc : v.jobQueue = []) :
    v'.issued = v.issued ∧ v'.handed = v.handed := by
  cases h with
  | pop t c rest th hq =>
    rw [hc] at hq
    cases hq
  | _ => exact ⟨rfl,rfl⟩

end

theorem not_released_of_not_keepsMode {m : Mode} (hk : sh.keepsMode m = false) : sh.mode ≠ .released := by
  intro hr
  simp [Shared.keepsMode,hr] at hk

theorem returnStep_closing {pc : ReturnPc} (h : ReturnStepped sh t who pc i sh' th) :
    Closes sh.closing (.returning who pc) sh'.closing th := by
  cases h with
  | empty => exact .empty _ who
  | drain => exact .drain _ who
  | ack _ attempt => exact .ack _ who attempt true
  | releaseEmitted | releaseReturned => exact .complete _ _ rfl
  | failTtl | ttlEmitted | ttlReturned => exact .keep (Nat.zero_le _)
  | failRelease => exact .keep (by simp [Thread.phase])
  | lock | begin | commit | retry | backoff => cases who <;> exact .keep le_rfl

theorem threadStep_closing (h : threadStep sh t th i = some (sh',th')) : Closes sh.closing th sh'.closing th' := by
  cases threadStep_cases h with
  | cachePollingSet _ hk | drainedSet _ _ hk =>
    exact .mode (fun hr => absurd hr (not_released_of_not_keepsMode hk)) (Nat.zero_le _)
  | popLast c _ hq => exact .pop _ t c [] _ hq rfl
  | pop c rest _ hq => exact .pop _ t c rest _ hq rfl
  | timerExpire _ hw => exact .mode (fun hr => by cases hw.symm.trans hr) (Nat.zero_le _)
  | returning _ _ _ _ _ hs => exact returnStep_closing hs
  | releaseKnown _ hc => exact .known _ hc
  | releaseMode => exact .release _
  | releaseEnded b hc => exact .ended _ b hc
  | _ => first | exact .keep (Nat.zero_le _) | exact .keep le_rfl

theorem abandon_closing (ho : (Thread.finished o : Thread J).phase = 0)
    (h : abandon sh th = some sh') : Closes sh.closing th sh'.closing (.finished o) := by
  cases abandon_cases h with
  | _ => exact .keep (ho ▸ Nat.zero_le _)

def LoopPc.ended : LoopPc J → Bool
  | .finishNotify | .done => true
  | _ => false

/-- The loop goes this way only with the mode `Released`. -/
def LoopPc.closes : LoopPc J → Bool
  | .releasedNotify _ | .finish | .finishNotify | .done => true
  | _ => false

theorem LoopPc.closes_of_ended {pc : LoopPc J} (h : pc.ended = true) : pc.closes = true := by
  cases pc <;> first | rfl | cases h

inductive LoopCloses : Closing J → LoopPc J → Closing J → LoopPc J → Prop
  | keep {v : Closing J} {pc pc' : LoopPc J} (he : pc.ended = false) (he' : pc'.ended = false)
      (hc : pc'.closes = true → pc.closes = true ∨ v.mode = .released) : LoopCloses v pc v pc'
  | mode {v : Closing J} {pc pc' : LoopPc J} {m : Mode} (he : pc.ended = false) (he' : pc'.ended = false)
      (hm : v.mode = .released → m = .released) (hc : pc'.closes = true → m = .released) :
      LoopCloses v pc { v with mode := m } pc'
  | issue (v : Closing J) (cs : List (Claim J)) :
      LoopCloses v .fetchSql { v with issued := v.issued ++ cs } (.fetchDropGuard (some cs))
  | append (v : Closing J) (cs : List (Claim J)) (fetchedMax : Bool) :
      LoopCloses v (.append cs) { v with jobQueue := v.jobQueue ++ cs } (.setWaiting fetchedMax)
  | finish (v : Closing J) : LoopCloses v .finish { v with runComplete := true } .finishNotify
  | done (v : Closing J) : LoopCloses v .finishNotify v .done

variable {pc pc' : LoopPc J}

theorem LoopPc.ended_of_not_closes (h : pc.closes = false) : pc.ended = false := by
  cases he : pc.ended with
  | false => rfl
  | true => rw [closes_of_ended he] at h; cases h

theorem LoopCloses.of_open (he : pc.ended = false) (hc : pc'.closes = false) : LoopCloses v pc v pc' :=
  .keep he (LoopPc.ended_of_not_closes hc) fun h => by rw [hc] at h; cases h

theorem loopStep_closing (h : loopStep cfg sh pc i = some (sh',pc')) :
    LoopCloses sh.closing pc sh'.closing pc' := by
  cases loopStep_cases h with
  | startSet _ hk | waitingSet _ _ hk =>
    exact .mode rfl rfl (fun hr => absurd hr (not_released_of_not_keepsMode hk)) nofun
  | topReleased hr => exact .keep rfl rfl fun _ => Or.inr hr
  | fetchSql jobs => exact .issue _ _
  | fetchNotify r => exact .of_open rfl (afterResult_not (fun _ => rfl) rfl rfl (Or.inr fun _ => rfl))
  | delayReplace t jobs => exact .of_open rfl (afterDelay_not (fun _ => rfl) rfl rfl _)
  | append jobs => exact .append _ _ _
  | releasedKept last _ hk =>
    have hm : sh.mode = .released := by simpa [Shared.keepsMode] using hk
    exact .keep rfl (afterReleased_not rfl rfl _) fun _ => Or.inr hm
  | releasedSet => exact .mode rfl rfl (fun _ => rfl) fun _ => rfl
  | releasedNotify last => exact .keep rfl (afterReleased_not rfl rfl _) fun _ => Or.inl rfl
  | finish => exact .finish _
  | finishNotify => exact .done _
  | _ => exact .of_open rfl rfl

section
variable (h : LoopCloses v pc v' pc')
include h

theorem LoopCloses.stable (he : v.runComplete = pc.ended) {k : ℕ}
    (hc : Closed v k) : Closed v' k := by
  have hopen : pc.ended = false → k ≤ 1 := by
    intro hp
    by_contra hk
    have ht := hc.ended (by omega)
    rw [he,hp] at ht
    cases ht
  cases h with
  | keep | done => exact hc
  | mode hp hp' hm =>
    have hk := hopen hp
    exact ⟨fun h1 => hm (hc.released h1),fun _ => by omega,fun _ => by omega,fun _ => by omega⟩
  | issue | append =>
    have hk := hopen rfl
    exact ⟨hc.released,fun _ => by omega,fun _ => by omega,fun _ => by omega⟩
  | finish => exact ⟨hc.released,fun _ => rfl,hc.drained,hc.returned⟩

theorem LoopCloses.runComplete (he : v.runComplete = pc.ended) :
    v'.runComplete = pc'.ended := by
  cases h with
  | keep hp hp' => exact he.trans (hp.trans hp'.symm)
  | mode hp hp' => exact he.trans (hp.trans hp'.symm)
  | issue | append => exact he
  | finish => rfl
  | done => exact he

theorem LoopCloses.released (hc : pc.closes = true → v.mode = .released)
    (hc' : pc'.closes = true) : v'.mode = .released := by
  cases h with
  | keep hp hp' hk => exact (hk hc').elim hc id
  | mode hp hp' hm hk => exact hk hc'
  | issue | append => cases hc'
  | finish | done => exact hc rfl

theorem LoopCloses.releaseComplete : v'.releaseComplete = v.releaseComplete := by
  cases h <;> rfl

theorem LoopCloses.over (he : pc.ended = true) : v' = v := by
  cases h with
  | keep | done => rfl
  | mode hp => rw [hp] at he; cases he
  | issue | append | finish => cases he

end

/-- Direct fetches hold a read guard, and none is left when the mode is `Released`. -/
structure ReadersInv (sh : Shared J) (thr : Tid → Thread J) : Prop where
  listed : Listed Thread.isDirectSql thr sh.modeReaders
  none : sh.mode = .released → sh.modeReaders = []

theorem returnStep_readers {pc : ReturnPc} (h : ReturnStepped sh t who pc i sh' th) :
    sh'.modeReaders = sh.modeReaders ∧ sh'.mode = sh.mode ∧ th.isDirectSql = false := by
  cases h with
  | _ => exact ⟨rfl,rfl,rfl⟩

theorem threadStep_readers (h : threadStep sh t th i = some (sh',th')) :
    sh'.modeReaders = enroll th.isDirectSql th'.isDirectSql t sh.modeReaders ∧
    ((sh.mode = .released → sh.modeReaders = []) → sh'.mode = .released → sh'.modeReaders = []) := by
  cases threadStep_cases h with
  | directMode hm => exact ⟨rfl,fun _ h => absurd h hm⟩
  | directSql r =>
    refine ⟨rfl,fun hi hr => ?_⟩
    simp [hi hr]
  | cachePollingSet | drainedSet | timerExpire => exact ⟨rfl,fun _ => nofun⟩
  | returning _ _ _ _ _ hs =>
    obtain ⟨hr,hm,hth⟩ := returnStep_readers hs
    rw [hr,hm,hth]
    exact ⟨rfl,id⟩
  | releaseMode hr => exact ⟨rfl,fun _ _ => hr⟩
  | _ => exact ⟨rfl,id⟩

theorem loopStep_readers (h : loopStep cfg sh pc i = some (sh',pc')) : sh'.modeReaders = sh.modeReaders ∧
    ((sh.mode = .released → sh.modeReaders = []) → sh'.mode = .released → sh'.modeReaders = []) := by
  cases loopStep_cases h with
  | startSet hr | waitingSet _ hr | releasedSet _ hr => exact ⟨rfl,fun _ _ => hr⟩
  | _ => exact ⟨rfl,id⟩

theorem abandon_readers (h : abandon sh th = some sh') :
    sh'.modeReaders = sh.modeReaders ∧ sh'.mode = sh.mode ∧ th.isDirectSql = false := by
  cases abandon_cases h with
  | _ => exact ⟨rfl,rfl,rfl⟩

theorem ReadersInv.move {thr : Tid → Thread J} (hi : ReadersInv sh thr)
    (hl : sh'.modeReaders = enroll (thr t).isDirectSql th.isDirectSql t sh.modeReaders)
    (hn : sh'.mode = .released → sh'.modeReaders = []) : ReadersInv sh' (Function.update thr t th) :=
  ⟨hl ▸ hi.listed.enroll t th,hn⟩

theorem ReadersInv.step (hi : ReadersInv s.sh s.thr) (h : step cfg s a = some s') : ReadersInv s'.sh s'.thr := by
  cases step_cases h with
  | loop i sh pc hl =>
    obtain ⟨hr,hm⟩ := loopStep_readers hl
    exact ⟨hr ▸ hi.listed,hm hi.none⟩
  | spawnTimer t mx hl ht | spawnDelay t jobs hl ht => exact hi.move (by rw [ht]; rfl) hi.none
  | start t c ht => exact hi.move (by rw [ht]; cases c <;> rfl) hi.none
  | thread t i sh th hp =>
    obtain ⟨hr,hm⟩ := threadStep_readers hp
    exact hi.move hr (hm hi.none)
  | die t sh ha hp | cancel t sh ha hp =>
    obtain ⟨hr,hm,hth⟩ := abandon_readers hp
    refine hi.move ?_ ?_
    · rw [hth]
      exact hr
    · intro hrel
      exact hr.trans (hi.none (hm.symm.trans hrel))

structure ClosingInv (s : State J) : Prop where
  ended : s.sh.runComplete = s.loop.ended
  closes : s.loop.closes = true → s.sh.mode = .released
  thread : ∀ t, Closed s.sh.closing (s.thr t).phase
  complete : s.sh.releaseComplete = true → Closed s.sh.closing 4
  readers : ReadersInv s.sh s.thr

theorem ClosingInv.thread_step (hi : ClosingInv s)
    (h : Closes s.sh.closing (s.thr t) sh'.closing th) (hd : ReadersInv sh' (Function.update s.thr t th))
    {pc : LoopPc J} (he : pc.ended = s.loop.ended) (hcl : pc.closes = s.loop.closes) :
    ClosingInv ⟨sh',pc,Function.update s.thr t th⟩ := by
  refine ⟨?_,?_,?_,?_,hd⟩
  · exact h.runComplete.trans (hi.ended.trans he.symm)
  · intro hc
    have hm := hi.closes (hcl ▸ hc)
    exact (h.stable (k := 1) ⟨fun _ => hm,nofun,nofun,nofun⟩).released le_rfl
  · rw [Function.forall_update_iff s.thr (fun _ th => Closed sh'.closing th.phase)]
    exact ⟨h.advance (hi.thread t) hi.complete,fun u _ => h.stable (hi.thread u)⟩
  · intro hc
    rcases h.releaseComplete hc with hc | hp
    · exact h.stable (hi.complete hc)
    · exact h.stable (hp ▸ hi.thread t)

theorem ClosingInv.loop_step (hi : ClosingInv s) (h : LoopCloses s.sh.closing s.loop sh'.closing pc)
    (hd : ReadersInv sh' s.thr) : ClosingInv ⟨sh',pc,s.thr⟩ := by
  have hs : ∀ k, Closed s.sh.closing k → Closed sh'.closing k := fun k => h.stable hi.ended
  exact ⟨h.runComplete hi.ended,h.released hi.closes,fun t => hs _ (hi.thread t),
    fun hc => hs _ (hi.complete (h.releaseComplete.symm.trans hc)),hd⟩

theorem step_closing (h : step cfg s a = some s') :
    (s'.thr = s.thr ∧ LoopCloses s.sh.closing s.loop s'.sh.closing s'.loop) ∨
    ∃ t th, s'.thr = Function.update s.thr t th ∧ Closes s.sh.closing (s.thr t) s'.sh.closing th ∧
      s'.loop.ended = s.loop.ended ∧ s'.loop.closes = s.loop.closes := by
  cases step_cases h with
  | loop i sh pc hl => exact Or.inl ⟨rfl,loopStep_closing hl⟩
  | spawnTimer t mx hl ht | spawnDelay t jobs hl ht =>
    exact Or.inr ⟨t,_,rfl,.keep (Nat.zero_le _),by rw [hl]; rfl,by rw [hl]; rfl⟩
  | start t c ht => exact Or.inr ⟨t,_,rfl,.keep (by cases c <;> exact Nat.zero_le _),rfl,rfl⟩
  | thread t i sh th hp => exact Or.inr ⟨t,th,rfl,threadStep_closing hp,rfl,rfl⟩
  | die t sh ha hp | cancel t sh ha hp => exact Or.inr ⟨t,_,rfl,abandon_closing rfl hp,rfl,rfl⟩

theorem ClosingInv.step (hi : ClosingInv s) (h : step cfg s a = some s') : ClosingInv s' := by
  have hd := hi.readers.step h
  obtain ⟨sh',pc,thr⟩ := s'
  rcases step_closing h with ⟨rfl,hl⟩ | ⟨t,th,rfl,hc,he,hcl⟩
  · exact hi.loop_step hl hd
  · exact hi.thread_step hc hd he hcl

theorem closingInv_initial : ClosingInv (initial : State J) where
  ended := rfl
  closes := nofun
  thread _ := .zero _
  complete := nofun
  readers := ⟨⟨List.nodup_nil,fun _ => ⟨nofun,nofun⟩⟩,nofun⟩

theorem Runs.closingInv (h : Runs cfg initial s) : ClosingInv s :=
  h.invariant (I := ClosingInv) (fun _ _ _ _ he hi => hi.step he) closingInv_initial

/-- The queue has shut down: the loop is over, nothing is cached or pending, what
was fetched is with a consumer or given back, and no claim is in flight. -/
structure Shut (s : State J) : Prop where
  ended : s.sh.runComplete = true ∧ s.loop.ended = true
  released : s.sh.mode = .released
  jobQueue : s.sh.jobQueue = []
  pending : s.sh.pending = []
  settled : ∀ c ∈ s.sh.issued, (∃ t, (t,c) ∈ s.sh.handed) ∨ c ∈ s.sh.acked
  idle : ¬s.claiming

theorem held_of_ended {pc : LoopPc J} (h : pc.ended = true) : pc.held = [] := by
  cases pc <;> first | rfl | cases h

theorem Runs.unreturned (h : Runs cfg initial s) {c : Claim J} (hc : c ∈ s.sh.issued) :
    (c ∈ s.loop.held ∨ c ∈ s.sh.jobQueue ∨ c ∈ s.sh.pending) ∨ (∃ t, (t,c) ∈ s.sh.handed) ∨ c ∈ s.sh.acked := by
  have hm := (h.conserved conserved_initial).perm.mem_iff.mp hc
  simp only [State.everywhere,List.mem_append,List.mem_map] at hm
  rcases hm with hm | hm | hm | ⟨⟨t,c⟩,hm,rfl⟩ | hm
  · exact Or.inl (Or.inl hm)
  · exact Or.inl (Or.inr (Or.inl hm))
  · exact Or.inl (Or.inr (Or.inr hm))
  · exact Or.inr (Or.inl ⟨t,hm⟩)
  · exact Or.inr (Or.inr hm)

theorem Runs.shut (h : Runs cfg initial s) (hc : Closed s.sh.closing 4) : Shut s := by
  have hi := h.closingInv
  have hrun : s.sh.runComplete = true := hc.ended (by decide)
  have hend : s.loop.ended = true := hi.ended ▸ hrun
  have hmode : s.sh.mode = .released := hc.released (by decide)
  have hjobs : s.sh.jobQueue = [] := hc.drained (by decide)
  have hpend : s.sh.pending = [] := hc.returned le_rfl
  refine ⟨⟨hrun,hend⟩,hmode,hjobs,hpend,fun c hm => ?_,?_⟩
  · rcases h.unreturned hm with (hh | hh | hh) | hh
    · rw [held_of_ended hend] at hh
      cases hh
    · rw [hjobs] at hh
      cases hh
    · rw [hpend] at hh
      cases hh
    · exact hh
  · rintro (hl | ⟨t,ht⟩)
    · rw [hl] at hend
      cases hend
    · have hm := (hi.readers.listed.mem t).mpr (Thread.isDirectSql_iff.mpr ht)
      rw [hi.readers.none hmode] at hm
      cases hm

theorem closed_forever (hi : ClosingInv s) (hc : Closed s.sh.closing 4) (h : Runs cfg s s') :
    Closed s'.sh.closing 4 ∧ s'.sh.issued = s.sh.issued ∧ s'.sh.handed = s.sh.handed := by
  have hI := h.invariant (I := fun u => ClosingInv u ∧ Closed u.sh.closing 4 ∧ u.sh.issued = s.sh.issued ∧
    u.sh.handed = s.sh.handed) ?_ ⟨hi,hc,rfl,rfl⟩
  · exact hI.2
  · rintro u a u' - hs ⟨hu,hcu,hiss,hhand⟩
    refine ⟨hu.step hs,?_⟩
    rcases step_closing hs with ⟨_,hl⟩ | ⟨t,th,_,hth,_⟩
    · have hend : u.loop.ended = true := hu.ended ▸ hcu.ended (by decide)
      have he := hl.over hend
      refine ⟨he ▸ hcu,?_,?_⟩
      · exact (congrArg Closing.issued he).trans hiss
      · exact (congrArg Closing.handed he).trans hhand
    · obtain ⟨hi',hh'⟩ := hth.taken (hcu.drained (by decide))
      exact ⟨hth.stable hcu,hi'.trans hiss,hh'.trans hhand⟩

theorem released_forever (hi : ClosingInv s) (hm : s.sh.mode = .released) (h : Runs cfg s s') :
    s'.sh.mode = .released := by
  have hI := h.invariant (I := fun u => ClosingInv u ∧ Closed u.sh.closing 1) ?_
    ⟨hi,⟨fun _ => hm,nofun,nofun,nofun⟩⟩
  · exact hI.2.released le_rfl
  · rintro u a u' - hs ⟨hu,hcu⟩
    refine ⟨hu.step hs,?_⟩
    rcases step_closing hs with ⟨_,hl⟩ | ⟨t,th,_,hth,_⟩
    · exact hl.stable hu.ended hcu
    · exact hth.stable hcu

def Thread.ownsRelease : Thread J → Bool
  | .releaseMode | .releaseDelay | .releaseAbortNotify | .releaseStateNotify | .releaseTimer | .releaseWait
  | .releaseCheck _ | .releaseCreated _ | .releaseParked _ | .releaseTimerAgain | .releaseDelayTask
  | .returning .release _ => true
  | _ => false

theorem returnStep_releaseLock {pc : ReturnPc} (h : ReturnStepped sh t who pc i sh' th) :
    Handover t (Thread.returning who pc : Thread J).ownsRelease sh.releaseLock th.ownsRelease sh'.releaseLock := by
  cases h with
  | failRelease | releaseEmitted | releaseReturned => exact .give _
  | failTtl | ttlEmitted | ttlReturned => exact .keep _ _
  | _ => cases who <;> exact .keep _ _

theorem threadStep_releaseLock (h : threadStep sh t th i = some (sh',th')) :
    Handover t th.ownsRelease sh.releaseLock th'.ownsRelease sh'.releaseLock := by
  cases threadStep_cases h with
  | returning _ _ _ _ _ hs => exact returnStep_releaseLock hs
  | releaseStart hl =>
    rw [hl]
    exact .take
  | _ => exact .keep _ _

theorem abandon_releaseLock (h : abandon sh th = some sh') :
    Handover t th.ownsRelease sh.releaseLock (Thread.finished o : Thread J).ownsRelease sh'.releaseLock := by
  cases abandon_cases h with
  | releaseLock | releaseEmitting | releaseReturning | releaseMode | releaseParked => exact .give _
  | _ => exact .keep _ _

theorem loopStep_releaseLock (h : loopStep cfg sh pc i = some (sh',pc')) : sh'.releaseLock = sh.releaseLock := by
  cases loopStep_cases h with
  | _ => rfl

theorem Runs.releaseOwned (h : Runs cfg initial s) : Owned Thread.ownsRelease s.thr s.sh.releaseLock :=
  h.owned (l := Shared.releaseLock) rfl ⟨rfl,rfl,rfl,fun c => by cases c <;> rfl⟩
    (fun _ _ _ _ _ => loopStep_releaseLock) (fun _ _ _ _ _ _ => threadStep_releaseLock)
    fun _ _ _ _ _ => abandon_releaseLock

/-- Once a release has returned `Ok` the queue has shut down for good. A failed or cancelled one leaves its
locks free and every claim in the cache, pending or in a running fetch, and a release whose return
succeeds completes the shutdown. -/
theorem release_complete_and_terminal (h : Runs cfg initial s) :
    (∀ t, s.thr t = .finished (.released true) → ∀ s', Runs cfg s s' →
      Shut s' ∧ s'.sh.issued = s.sh.issued ∧ s'.sh.handed = s.sh.handed) ∧
    (∀ t, s.thr t = .finished (.released false) → ∀ c ∈ s.sh.issued, (∀ u, (u,c) ∉ s.sh.handed) →
      c ∉ s.sh.acked → c ∈ s.sh.jobQueue ∨ c ∈ s.sh.pending) ∧
    (∀ t, s.thr t = .finished .cancelled → ∀ c ∈ s.sh.issued, (∀ u, (u,c) ∉ s.sh.handed) →
      c ∉ s.sh.acked → c ∈ s.loop.held ∨ c ∈ s.sh.jobQueue ∨ c ∈ s.sh.pending) ∧
    (∀ t o, s.thr t = .finished o → s.sh.releaseLock ≠ some t ∧ s.sh.pendingLock ≠ some t) ∧
    (∀ t pc, s.thr t = .returning .release pc → pc = .emitting ∨ pc = .returned →
      ∃ s', step cfg s (.thread t .tick) = some s' ∧ s'.thr t = .finished (.released true) ∧ Shut s') ∧
    (s.sh.mode = .released → ∀ s', Runs cfg s s' → s'.sh.mode = .released) := by
  have hi := h.closingInv
  have hrest : ∀ c ∈ s.sh.issued, (∀ u, (u,c) ∉ s.sh.handed) → c ∉ s.sh.acked →
      c ∈ s.loop.held ∨ c ∈ s.sh.jobQueue ∨ c ∈ s.sh.pending := by
    intro c hc hh ha
    rcases h.unreturned hc with hc | ⟨t,ht⟩ | hc
    · exact hc
    · exact absurd ht (hh t)
    · exact absurd hc ha
  refine ⟨?_,?_,fun t _ => hrest,?_,?_,fun hm s' hs' => released_forever hi hm hs'⟩
  · intro t ht s' hs'
    have hc : Closed s.sh.closing 4 := by simpa [ht,Thread.phase] using hi.thread t
    obtain ⟨hc',hiss,hhand⟩ := closed_forever hi hc hs'
    exact ⟨Runs.shut (h.trans hs') hc',hiss,hhand⟩
  · intro t ht c hc hh ha
    have hc2 : Closed s.sh.closing 2 := by simpa [ht,Thread.phase] using hi.thread t
    have hend : s.loop.ended = true := hi.ended ▸ hc2.ended le_rfl
    rcases hrest c hc hh ha with hl | hl
    · rw [held_of_ended hend] at hl
      cases hl
    · exact hl
  · intro t o ht
    refine ⟨fun hl => ?_,fun hl => ?_⟩
    · have ho := (h.releaseOwned t).mpr hl
      rw [ht] at ho
      cases ho
    · have ho := (h.pendingInv.owned t).mpr hl
      rw [ht] at ho
      cases ho
  · intro t pc ht hpc
    have hc : Closed s.sh.closing 4 := by
      rcases hpc with rfl | rfl <;> simpa [ht,Thread.phase] using hi.thread t
    have hs : step cfg s (.thread t .tick) = some (s.put t (returnOk s.sh .release)) :=
      step_returning ht (by rcases hpc with rfl | rfl <;> rfl)
    refine ⟨_,hs,by simp [State.put,returnOk],?_⟩
    exact Runs.shut (h.step trivial hs) (closed_forever hi hc (Reaches.refl.step trivial hs)).1

def Thread.outcome : Thread J → Option (Outcome J)
  | .finished o => some o
  | _ => none

theorem Thread.outcome_eq (h : th.outcome = some o) : th = .finished o := by
  cases th with
  | finished => exact congrArg Thread.finished (Option.some.inj h)
  | _ => cases h

theorem returned_run_terminal : ∃ s : State ℕ, Runs {} initial s ∧
    s.thr 3 = .finished (.released true) ∧ ∀ s', Runs {} s s' →
      Shut s' ∧ s'.sh.issued = s.sh.issued ∧ s'.sh.handed = s.sh.handed := by
  obtain ⟨s,hr,hf⟩ : ∃ s, Runs {} initial s ∧ (s.thr 3).outcome = some (.released true) :=
    exists_reaches_of_exec returnedRun (by decide)
  have ht := Thread.outcome_eq hf
  exact ⟨s,hr,ht,(release_complete_and_terminal hr).1 3 ht⟩

/-- Release 3 is cancelled while the fetch has its result and has not appended it. -/
def cancelledRelease : List (Action ℕ) :=
  firstFetch [7] ++ [Action.start 3 .release] ++ threadTicks 3 9 ++ [Action.cancel 3]

/-- Consumer 2 takes the last cached job; release 3 completes before the consumer's
`set_mode`. -/
def overtakenConsumer : List (Action ℕ) :=
  firstFetch [7] ++ loopTicks 6 ++ [Action.spawnTimer 1] ++ loopTicks 1 ++
  [Action.start 2 (.getJob false)] ++ threadTicks 2 5 ++
  [Action.start 3 .release] ++ threadTicks 3 6 ++ loopTicks 4 ++ threadTicks 3 8

/-- A cancelled release can leave a claim that is neither cached nor pending, and `get_job` can still return
a job after a release has returned `Ok`. -/
theorem release_not_last_word :
    (∃ s : State ℕ, Runs {} initial s ∧ s.thr 3 = .finished .cancelled ∧
      s.sh.issued = [⟨0,7⟩] ∧ s.sh.handed = [] ∧ s.sh.acked = [] ∧ s.sh.jobQueue = [] ∧ s.sh.pending = []) ∧
    ∃ s s' : State ℕ, Runs {} initial s ∧ s.thr 3 = .finished (.released true) ∧
      step {} s (.thread 2 .tick) = some s' ∧ (s.thr 2).outcome = none ∧
      s'.thr 2 = .finished (.job (some ⟨0,7⟩)) := by
  constructor
  · obtain ⟨s,hr,ho,hf⟩ : ∃ s : State ℕ, Runs {} initial s ∧ (s.thr 3).outcome = some .cancelled ∧
        s.sh.issued = [⟨0,7⟩] ∧ s.sh.handed = [] ∧ s.sh.acked = [] ∧ s.sh.jobQueue = [] ∧ s.sh.pending = [] :=
      exists_reaches_of_exec cancelledRelease (by decide)
    exact ⟨s,hr,Thread.outcome_eq ho,hf⟩
  · obtain ⟨s,hr,h3,h2,hf⟩ : ∃ s : State ℕ, Runs {} initial s ∧ (s.thr 3).outcome = some (.released true) ∧
        (s.thr 2).outcome = none ∧
        (step {} s (.thread 2 .tick)).map (fun s' => (s'.thr 2).outcome) = some (some (.job (some ⟨0,7⟩))) :=
      exists_reaches_of_exec overtakenConsumer (by decide)
    obtain ⟨s',hs',hf'⟩ := Option.map_eq_some_iff.mp hf
    exact ⟨s,s',hr,Thread.outcome_eq h3,hs',h2,Thread.outcome_eq hf'⟩

end GraphileWorker.LocalQueue
