import GraphileWorker.LocalQueue.Conservation

/-! # Who aborts a refetch delay

A pulse that finds the counter at the threshold signals the delay through `abort_notify`,
which keeps a notification that nobody takes. Runs here have no release.
-/
namespace GraphileWorker.LocalQueue
open Foundation GraphileWorker.Runtime
variable {J : Type}

/-- The counter that a pulse has compared with the threshold. -/
structure Comparison where
  after : ℕ
  count : ℕ
  deriving DecidableEq

structure Ledger where
  thresholds : List ℕ := []
  /-- The number of the delay that a task waits for. -/
  delayOf : Tid → ℕ := fun _ => 0
  compared : List Comparison := []

def Ledger.note (s : State J) (l : Ledger) : Action J → Ledger
  | .loop (.threshold n) => { l with thresholds := l.thresholds ++ [n] }
  | .spawnDelay t => { l with delayOf := Function.update l.delayOf t l.thresholds.length }
  | .thread t _ => match s.thr t with
    | .pulseCompare count => { l with compared := l.compared ++ [⟨l.thresholds.length,count⟩] }
    | _ => l
  | _ => l

/-- The queue with the ledger beside it. -/
def ledgerStep (cfg : Config) (p : State J × Ledger) (a : Action J) : Option (State J × Ledger) :=
  (step cfg p.1 a).map fun s => (s,p.2.note p.1 a)

def unreleased (_ : State J × Ledger) (a : Action J) : Prop := a.releases = false

instance (p : State J × Ledger) (a : Action J) : Decidable (unreleased p a) := inferInstanceAs (Decidable (_ = _))

def Thread.aborts : Thread J → Bool
  | .delayClear aborted _ => aborted
  | _ => false

structure Unsignalled (s : State J) : Prop where
  empty : s.sh.abortNotify.Empty
  idle : ∀ t, s.thr t ≠ .pulseAbortNotify

/-- Counters of a delay task that has not cleared the flag yet. -/
def Thread.delaying : Thread J → Bool
  | .delayStart | .delayCreated _ | .delayParked _ | .delayClear _ _ => true
  | _ => false

def Thread.delaySnapshot : Thread J → Option ℕ
  | .delayCreated b | .delayParked b => some b
  | _ => none

/-- Counters of the loop between its look at the flag and the spawn of a delay task. -/
def LoopPc.preparing : LoopPc J → Bool
  | .fetchClear | .fetchReset | .fetchSql | .fetchDropGuard _ | .fetchEnd _ | .fetchNotify _ | .delayThreshold _
  | .delayActivate _ | .delayForget _ | .delaySpawn _ => true
  | _ => false

/-- The loop has set the flag, and the task is not spawned yet. -/
def LoopPc.activated : LoopPc J → Bool
  | .delayForget _ | .delaySpawn _ => true
  | _ => false

variable {cfg : Config} {sh sh' : Shared J} {s s' : State J} {t : Tid} {th th' : Thread J} {pc pc' : LoopPc J}
  {i : Input J}

theorem loopStep_delay (h : loopStep cfg sh pc i = some (sh',pc')) :
    sh'.abortNotify = sh.abortNotify ∧ (sh.delayActive = true → sh'.delayActive = true) ∧
      (pc'.preparing = true → pc.preparing = true ∨ sh.delayActive = false) ∧
      (pc'.activated = true → pc.activated = true ∨ sh'.delayActive = true) := by
  cases loopStep_cases h with
  | fetchUndelayed hd => exact ⟨rfl,id,fun _ => .inr hd,nofun⟩
  | fetchNotify r =>
    have ha : (afterResult cfg r).activated = false := afterResult_not (fun _ => rfl) rfl rfl (.inr fun _ => rfl)
    exact ⟨rfl,id,fun _ => .inl rfl,fun h => absurd (ha.symm.trans h) Bool.false_ne_true⟩
  | delayActivate jobs => exact ⟨rfl,fun _ => rfl,fun _ => .inl rfl,fun _ => .inr rfl⟩
  | delayForget jobs => exact ⟨rfl,id,fun _ => .inl rfl,fun _ => .inl rfl⟩
  | delayReplace t jobs =>
    have hp : (afterDelay cfg jobs).preparing = false := afterDelay_not (fun _ => rfl) rfl rfl jobs
    have ha : (afterDelay cfg jobs).activated = false := afterDelay_not (fun _ => rfl) rfl rfl jobs
    exact ⟨rfl,id,fun h => absurd (hp.symm.trans h) Bool.false_ne_true,
      fun h => absurd (ha.symm.trans h) Bool.false_ne_true⟩
  | releasedKept last | releasedNotify last =>
    have hp : (afterReleased last : LoopPc J).preparing = false := afterReleased_not rfl rfl last
    have ha : (afterReleased last : LoopPc J).activated = false := afterReleased_not rfl rfl last
    exact ⟨rfl,id,fun h => absurd (hp.symm.trans h) Bool.false_ne_true,
      fun h => absurd (ha.symm.trans h) Bool.false_ne_true⟩
  | _ => first | exact ⟨rfl,id,fun _ => .inl rfl,nofun⟩ | exact ⟨rfl,id,nofun,nofun⟩

theorem loopStep_threshold (h : loopStep cfg sh pc i = some (sh',pc')) :
    (sh'.abortThreshold = sh.abortThreshold ∧ ∀ n, i ≠ .threshold n) ∨
      ∃ n, i = .threshold n ∧ sh'.abortThreshold = n ∧ pc.preparing = true := by
  cases loopStep_cases h with
  | delayThreshold jobs n hn => exact .inr ⟨n,rfl,rfl,rfl⟩
  | _ => exact .inl ⟨rfl,nofun⟩

theorem threadStep_delay (hn : th.releases = false) (h : threadStep sh t th i = some (sh',th')) :
    sh'.abortThreshold = sh.abortThreshold ∧ sh'.abortNotify.broadcast = sh.abortNotify.broadcast ∧
      (th'.delaying = true → th.delaying = true ∧ sh'.delayActive = sh.delayActive) ∧
      (th.delaying = false → sh'.delayActive = sh.delayActive) ∧
      ∀ b, th'.delaySnapshot = some b → b = sh.abortNotify.broadcast ∨ th.delaySnapshot = some b := by
  cases threadStep_cases h with
  | returning who pc _ _ _ hr =>
    rcases returnStep_thread hr with ⟨pc',rfl⟩ | ⟨o,rfl⟩
    · cases hr <;> exact ⟨rfl,rfl,nofun,fun _ => rfl,nofun⟩
    · cases hr <;> exact ⟨rfl,rfl,nofun,fun _ => rfl,nofun⟩
  | delayStart => exact ⟨rfl,rfl,fun _ => ⟨rfl,rfl⟩,nofun,fun b hb => .inl (Option.some.inj hb).symm⟩
  | delayElapsed b => exact ⟨rfl,rfl,fun _ => ⟨rfl,rfl⟩,nofun,nofun⟩
  | delayReady b hw => exact ⟨rfl,Notify.broadcast_registerWaiter _ b,fun _ => ⟨rfl,rfl⟩,nofun,nofun⟩
  | delayCreated b hw =>
    exact ⟨rfl,Notify.broadcast_registerWaiter _ b,fun _ => ⟨rfl,rfl⟩,nofun,fun b hb => .inr hb⟩
  | parkedElapsed b => exact ⟨rfl,rfl,fun _ => ⟨rfl,rfl⟩,nofun,nofun⟩
  | delayParked b n hc => exact ⟨rfl,Notify.broadcast_of_tryComplete hc,fun _ => ⟨rfl,rfl⟩,nofun,nofun⟩
  | delayClear aborted held => exact ⟨rfl,rfl,nofun,nofun,nofun⟩
  | delayExpired held =>
    cases held with
    | none => exact ⟨rfl,rfl,nofun,fun _ => rfl,nofun⟩
    | some b => exact ⟨rfl,Notify.broadcast_dropWaiter _ b,nofun,fun _ => rfl,nofun⟩
  | pulseAbortNotify => exact ⟨rfl,Notify.broadcast_notifyOne _,nofun,fun _ => rfl,nofun⟩
  | _ => first | exact ⟨rfl,rfl,nofun,fun _ => rfl,nofun⟩ | cases hn

theorem abandon_delay (h : abandon sh th = some sh') :
    sh'.abortThreshold = sh.abortThreshold ∧ sh'.abortNotify.broadcast = sh.abortNotify.broadcast ∧
      sh'.delayActive = sh.delayActive ∧ (sh.abortNotify.Empty → sh'.abortNotify.Empty) := by
  cases abandon_cases h with
  | delayParked b => exact ⟨rfl,Notify.broadcast_dropWaiter _ b,rfl,fun he => he.dropWaiter⟩
  | delayExpired held =>
    cases held with
    | none => exact ⟨rfl,rfl,rfl,id⟩
    | some b => exact ⟨rfl,Notify.broadcast_dropWaiter _ b,rfl,fun he => he.dropWaiter⟩
  | _ => exact ⟨rfl,rfl,rfl,id⟩

theorem threadStep_unsignalled (hn : th.releases = false) (hp : th ≠ .pulseAbortNotify) (he : sh.abortNotify.Empty)
    (hb : ∀ b, th.delaySnapshot = some b → sh.abortNotify.broadcast = b) (h : threadStep sh t th i = some (sh',th')) :
    sh'.abortNotify.Empty ∧ th'.aborts = false ∧
      (th' = .pulseAbortNotify → ∃ count, th = .pulseCompare count ∧ sh.abortThreshold ≤ count) := by
  cases threadStep_cases h with
  | returning who pc _ _ _ hr =>
    rcases returnStep_thread hr with ⟨pc',rfl⟩ | ⟨o,rfl⟩
    · cases hr <;> exact ⟨he,rfl,nofun⟩
    · cases hr <;> exact ⟨he,rfl,nofun⟩
  | delayReady b hw =>
    rw [he.parks (hb b rfl)] at hw
    cases hw
  | delayCreated b hw => exact ⟨he.registerWaiter,rfl,nofun⟩
  | delayParked b n hc =>
    rw [he.waits (hb b rfl)] at hc
    cases hc
  | delayExpired held =>
    cases held with
    | none => exact ⟨he,rfl,nofun⟩
    | some b => exact ⟨he.dropWaiter,rfl,nofun⟩
  | pulseAborts count hc => exact ⟨he,rfl,fun _ => ⟨count,rfl,hc⟩⟩
  | pulseAbortNotify => exact absurd rfl hp
  | _ => first | exact ⟨he,rfl,nofun⟩ | cases hn

/-- What holds of the delays in every run: one task at a time delays, for the delay that was started last. -/
structure DelayInv (p : State J × Ledger) : Prop where
  unreleased : ∀ t, (p.1.thr t).releases = false
  sole : ∀ t u, (p.1.thr t).delaying = true → (p.1.thr u).delaying = true → t = u
  active : ∀ t, (p.1.thr t).delaying = true → p.1.sh.delayActive = true ∧ p.1.loop.preparing = false
  activated : p.1.loop.activated = true → p.1.sh.delayActive = true
  latest : ∀ t, (p.1.thr t).delaying = true → p.2.delayOf t = p.2.thresholds.length
  broadcast : p.1.sh.abortNotify.broadcast = 0
  snapshot : ∀ t b, (p.1.thr t).delaySnapshot = some b → b = 0

/-- Since the draw of this delay: nothing is signalled, or a pulse has seen the counter at its threshold. -/
structure DelaySince (k n : ℕ) (p : State J × Ledger) : Prop where
  later : k ≤ p.2.thresholds.length
  own : p.2.thresholds.length = k → p.1.sh.abortThreshold = n ∧
    (Unsignalled p.1 ∨ ∃ c ∈ p.2.compared, k ≤ c.after ∧ n ≤ c.count)

variable {p p' : State J × Ledger} {l : Ledger} {a : Action J} {k n : ℕ}

theorem delayInv_initial : DelayInv ((initial,{}) : State J × Ledger) where
  unreleased _ := rfl
  sole _ _ := nofun
  active _ := nofun
  activated := nofun
  latest _ := nofun
  broadcast := rfl
  snapshot _ _ := nofun

theorem thresholds_note_thread (s : State J) (l : Ledger) (t : Tid) (i : Input J) :
    (l.note s (.thread t i)).thresholds = l.thresholds ∧ (l.note s (.thread t i)).delayOf = l.delayOf := by
  unfold Ledger.note
  dsimp only
  split <;> exact ⟨rfl,rfl⟩

theorem LoopPc.preparing_of_activated (h : pc.activated = true) : pc.preparing = true := by
  cases pc with
  | delayForget | delaySpawn => rfl
  | _ => cases h

theorem DelayInv.none_delaying (h : DelayInv (s,l)) (hp : s.loop.preparing = true) (t : Tid) :
    (s.thr t).delaying = false := by
  by_contra ht
  have hn := (h.active t (by simpa using ht)).2
  exact absurd (hn.symm.trans hp) Bool.false_ne_true

theorem DelayInv.put (h : DelayInv (s,l)) {l' : Ledger} (hl : l'.thresholds = l.thresholds ∧ l'.delayOf = l.delayOf)
    (hr : th.releases = false) (hb : sh.abortNotify.broadcast = s.sh.abortNotify.broadcast)
    (hd : th.delaying = true → (s.thr t).delaying = true ∧ sh.delayActive = s.sh.delayActive)
    (hk : (s.thr t).delaying = false → sh.delayActive = s.sh.delayActive)
    (hs : ∀ b, th.delaySnapshot = some b → b = 0) : DelayInv (s.put t (sh,th),l') := by
  have back : ∀ u, (Function.update s.thr t th u).delaying = true →
      (s.thr u).delaying = true ∧ sh.delayActive = s.sh.delayActive := by
    intro u hu
    by_cases he : u = t
    · subst he
      rw [Function.update_self] at hu
      exact hd hu
    · rw [Function.update_of_ne he] at hu
      refine ⟨hu,hk ?_⟩
      by_contra ht
      exact he (h.sole u t hu (by simpa using ht))
  refine ⟨?_,?_,?_,?_,?_,hb.trans h.broadcast,?_⟩
  · exact (Function.forall_update_iff s.thr fun _ th => th.releases = false).mpr ⟨hr,fun u _ => h.unreleased u⟩
  · exact fun u v hu hv => h.sole u v (back u hu).1 (back v hv).1
  · intro u hu
    obtain ⟨hu,hsame⟩ := back u hu
    obtain ⟨ha,hp⟩ := h.active u hu
    exact ⟨hsame.trans ha,hp⟩
  · intro ha
    exact (hk (h.none_delaying (LoopPc.preparing_of_activated ha) t)).trans (h.activated ha)
  · intro u hu
    rw [hl.1,hl.2]
    exact h.latest u (back u hu).1
  · exact (Function.forall_update_iff s.thr fun _ th => ∀ b, th.delaySnapshot = some b → b = 0).mpr
      ⟨hs,fun u _ => h.snapshot u⟩

theorem DelayInv.loop (h : DelayInv (s,l)) (hp : loopStep cfg s.sh s.loop i = some (sh,pc)) :
    DelayInv ({ s with sh := sh, loop := pc },l.note s (.loop i)) := by
  obtain ⟨hab,hact,hprep,hacti⟩ := loopStep_delay hp
  have hnote : (∃ u, (s.thr u).delaying = true) → l.note s (.loop i) = l := by
    rintro ⟨u,hu⟩
    rcases loopStep_threshold hp with ⟨-,hi⟩ | ⟨n,-,-,hpre⟩
    · cases i with
      | threshold n => exact absurd rfl (hi n)
      | _ => rfl
    · exact absurd ((h.active u hu).2.symm.trans hpre) Bool.false_ne_true
  have hbroadcast : sh.abortNotify.broadcast = 0 := (congrArg Notify.broadcast hab).trans h.broadcast
  refine ⟨h.unreleased,h.sole,?_,?_,?_,hbroadcast,h.snapshot⟩
  · intro u hu
    obtain ⟨ha,hn⟩ := h.active u hu
    refine ⟨hact ha,?_⟩
    by_contra hpc
    rcases hprep (by simpa using hpc) with hpre | hoff
    · exact absurd (hn.symm.trans hpre) Bool.false_ne_true
    · exact absurd (hoff.symm.trans ha) Bool.false_ne_true
  · intro ha
    rcases hacti ha with hpre | hon
    · exact hact (h.activated hpre)
    · exact hon
  · intro u hu
    rw [hnote ⟨u,hu⟩]
    exact h.latest u hu

theorem DelayInv.spawnDelay (h : DelayInv (s,l)) {jobs : List (Claim J)} (hl : s.loop = .delaySpawn jobs) (t : Tid) :
    DelayInv ({ s with loop := .delayReplace t jobs, thr := Function.update s.thr t .delayStart },
      l.note s (.spawnDelay t)) := by
  have hnone : ∀ u, (s.thr u).delaying = false := h.none_delaying (by rw [hl]; rfl)
  have only : ∀ u, (Function.update s.thr t .delayStart u).delaying = true → u = t := by
    intro u hu
    by_contra he
    rw [Function.update_of_ne he,hnone u] at hu
    cases hu
  refine ⟨?_,?_,?_,nofun,?_,h.broadcast,?_⟩
  · exact (Function.forall_update_iff s.thr fun _ th => th.releases = false).mpr ⟨rfl,fun u _ => h.unreleased u⟩
  · exact fun u v hu hv => (only u hu).trans (only v hv).symm
  · exact fun u _ => ⟨h.activated (by rw [hl]; rfl),rfl⟩
  · intro u hu
    rw [only u hu]
    exact Function.update_self ..
  · exact (Function.forall_update_iff s.thr fun _ th => ∀ b, th.delaySnapshot = some b → b = 0).mpr
      ⟨nofun,fun u _ => h.snapshot u⟩

theorem ledgerStep_ok (h : ledgerStep cfg p a = some p') :
    ∃ s', Stepped cfg p.1 a s' ∧ p' = (s',p.2.note p.1 a) := by
  obtain ⟨s',hs,rfl⟩ := Option.map_eq_some_iff.mp h
  exact ⟨s',step_cases hs,rfl⟩

theorem DelayInv.step (h : DelayInv p) (ha : a.releases = false) (hs : ledgerStep cfg p a = some p') : DelayInv p' := by
  obtain ⟨s',hstep,rfl⟩ := ledgerStep_ok hs
  obtain ⟨s,l⟩ := p
  cases hstep with
  | loop i sh pc hp => exact h.loop hp
  | spawnTimer t fetchedMax hl ht =>
    have hput : DelayInv (s.put t (s.sh,.timerSleep),l) := h.put ⟨rfl,rfl⟩ rfl rfl nofun (fun _ => rfl) nofun
    exact ⟨hput.unreleased,hput.sole,fun u hu => ⟨(hput.active u hu).1,rfl⟩,nofun,hput.latest,h.broadcast,hput.snapshot⟩
  | spawnDelay t jobs hl ht => exact h.spawnDelay hl t
  | start t c ht =>
    cases c with
    | release => cases ha
    | getJob skip | pulse count => exact h.put ⟨rfl,rfl⟩ rfl rfl nofun (fun _ => rfl) nofun
  | thread t i sh th hp =>
    obtain ⟨-,hb,hd,hk,hsnap⟩ := threadStep_delay (h.unreleased t) hp
    refine h.put (thresholds_note_thread s l t i) (threadStep_releases (h.unreleased t) hp) hb hd hk fun b hth => ?_
    rcases hsnap b hth with rfl | hold
    · exact h.broadcast
    · exact h.snapshot t b hold
  | die t sh ha hp | cancel t sh ha hp =>
    obtain ⟨-,hb,hact,-⟩ := abandon_delay hp
    exact h.put ⟨rfl,rfl⟩ rfl hb nofun (fun _ => hact) nofun

theorem note_compare {count : ℕ} (h : s.thr t = .pulseCompare count) (l : Ledger) (i : Input J) :
    l.note s (.thread t i) = { l with compared := l.compared ++ [⟨l.thresholds.length,count⟩] } := by
  unfold Ledger.note
  dsimp only
  rw [h]

theorem compared_note {s : State J} {l : Ledger} {a : Action J} {c : Comparison} (h : c ∈ l.compared) :
    c ∈ (l.note s a).compared := by
  cases a with
  | loop i => cases i <;> exact h
  | thread t i =>
    unfold Ledger.note
    dsimp only
    split
    · exact List.mem_append_left _ h
    · exact h
  | _ => exact h

theorem thresholds_step (hinv : DelayInv p) (hs : ledgerStep cfg p a = some p') :
    p'.2.thresholds.length = p.2.thresholds.length + 1 ∨
      (p'.2.thresholds.length = p.2.thresholds.length ∧ p'.1.sh.abortThreshold = p.1.sh.abortThreshold) := by
  obtain ⟨s',hstep,rfl⟩ := ledgerStep_ok hs
  cases hstep with
  | loop i sh pc hp =>
    rcases loopStep_threshold hp with ⟨hsame,hi⟩ | ⟨n,rfl,-,-⟩
    · cases i with
      | threshold n => exact absurd rfl (hi n)
      | _ => exact .inr ⟨rfl,hsame⟩
    · exact .inl (List.length_append ..)
  | spawnTimer | spawnDelay | start => exact .inr ⟨rfl,rfl⟩
  | thread t i sh th hp =>
    refine .inr ⟨?_,(threadStep_delay (hinv.unreleased t) hp).1⟩
    rw [(thresholds_note_thread p.1 p.2 t i).1]
  | die t sh _ hp | cancel t sh _ hp => exact .inr ⟨rfl,(abandon_delay hp).1⟩

theorem Unsignalled.put (h : Unsignalled s) (he : sh.abortNotify.Empty) (hp : th ≠ .pulseAbortNotify) :
    Unsignalled (s.put t (sh,th)) :=
  ⟨he,(Function.forall_update_iff s.thr fun _ th => th ≠ .pulseAbortNotify).mpr ⟨hp,fun u _ => h.idle u⟩⟩

theorem Unsignalled.step (h : Unsignalled p.1) (hinv : DelayInv p) (hs : ledgerStep cfg p a = some p') :
    Unsignalled p'.1 ∨ ∃ c ∈ p'.2.compared, p.2.thresholds.length ≤ c.after ∧ p.1.sh.abortThreshold ≤ c.count := by
  obtain ⟨s',hstep,rfl⟩ := ledgerStep_ok hs
  cases hstep with
  | loop i sh pc hp =>
    have he : sh.abortNotify.Empty := by
      rw [(loopStep_delay hp).1]
      exact h.empty
    exact .inl ⟨he,h.idle⟩
  | spawnTimer t | spawnDelay t =>
    refine .inl ⟨h.empty,?_⟩
    exact (Function.forall_update_iff p.1.thr fun _ th => th ≠ .pulseAbortNotify).mpr ⟨nofun,fun u _ => h.idle u⟩
  | start t c ht =>
    refine .inl (h.put h.empty ?_)
    cases c <;> nofun
  | thread t i sh th hp =>
    obtain ⟨he,-,hsignal⟩ := threadStep_unsignalled (hinv.unreleased t) (h.idle t) h.empty
      (fun b hb => hinv.broadcast.trans (hinv.snapshot t b hb).symm) hp
    by_cases hth : th = .pulseAbortNotify
    · obtain ⟨count,hpc,hle⟩ := hsignal hth
      refine .inr ⟨⟨p.2.thresholds.length,count⟩,?_,Nat.le_refl _,hle⟩
      rw [note_compare hpc]
      exact List.mem_append_right _ (List.mem_singleton_self _)
    · exact .inl (h.put he hth)
  | die t sh ha hp | cancel t sh ha hp => exact .inl (h.put ((abandon_delay hp).2.2.2 h.empty) nofun)

theorem DelaySince.step (h : DelaySince k n p) (hinv : DelayInv p) (hs : ledgerStep cfg p a = some p') :
    DelaySince k n p' := by
  have hnote : p'.2 = p.2.note p.1 a := by
    obtain ⟨_,-,rfl⟩ := ledgerStep_ok hs
    rfl
  rcases thresholds_step hinv hs with hnew | ⟨hlen,hthr⟩
  · have hk := h.later
    exact ⟨by omega,fun he => by omega⟩
  · refine ⟨by rw [hlen]; exact h.later,fun he => ?_⟩
    rw [hlen] at he
    obtain ⟨hn,hown⟩ := h.own he
    refine ⟨hthr.trans hn,?_⟩
    rcases hown with hun | ⟨c,hc,hca⟩
    · rcases hun.step hinv hs with hun | ⟨c,hc,hca,hcn⟩
      · exact .inl hun
      · exact .inr ⟨c,hc,by omega,by omega⟩
    · exact .inr ⟨c,by rw [hnote]; exact compared_note hc,hca⟩

theorem delaySince_draw (hq : Unsignalled p.1) (h : ledgerStep cfg p (.loop (.threshold n)) = some p') :
    DelaySince p'.2.thresholds.length n p' := by
  obtain ⟨s',hstep,rfl⟩ := ledgerStep_ok h
  cases hstep with
  | loop i sh pc hp =>
    refine ⟨Nat.le_refl _,fun _ => ⟨?_,.inl ⟨?_,hq.idle⟩⟩⟩
    · rcases loopStep_threshold hp with ⟨-,hi⟩ | ⟨m,hm,hthr,-⟩
      · exact absurd rfl (hi n)
      · cases hm
        exact hthr
    · show sh.abortNotify.Empty
      rw [(loopStep_delay hp).1]
      exact hq.empty

theorem DelayInv.aborts (hinv : DelayInv p) (h : ledgerStep cfg p (.thread t i) = some p')
    (ha : (p'.1.thr t).aborts = true) : (p.1.thr t).delaying = true ∧ ¬Unsignalled p.1 := by
  obtain ⟨s',hstep,rfl⟩ := ledgerStep_ok h
  cases hstep with
  | thread _ _ sh th hp =>
    have hth : th.aborts = true := by
      have hself : (p.1.put t (sh,th)).thr t = th := Function.update_self ..
      rwa [← hself]
    constructor
    · have hd : th.delaying = true := by
        cases th with
        | delayClear aborted held => rfl
        | _ => cases hth
      obtain ⟨-,-,hdel,-⟩ := threadStep_delay (hinv.unreleased t) hp
      exact (hdel hd).1
    · intro hun
      obtain ⟨-,hno,-⟩ := threadStep_unsignalled (hinv.unreleased t) (hun.idle t) hun.empty
        (fun b hb => hinv.broadcast.trans (hinv.snapshot t b hb).symm) hp
      exact absurd (hno.symm.trans hth) Bool.false_ne_true

/-- If a threshold is drawn while no signal is stored and no pulse is about to signal, the delay is aborted
only after a pulse has, since that draw, compared a counter that reached this threshold. -/
theorem abort_by_own_pulse (cfg : Config) (p₀ p₁ p p' : State J × Ledger) (n : ℕ) (t : Tid) (i : Input J)
    (h₀ : Reaches (ledgerStep cfg) unreleased (initial,{}) p₀) (hq : Unsignalled p₀.1)
    (hdraw : ledgerStep cfg p₀ (.loop (.threshold n)) = some p₁)
    (h : Reaches (ledgerStep cfg) unreleased p₁ p) (ht : p.2.delayOf t = p₁.2.thresholds.length)
    (hstep : ledgerStep cfg p (.thread t i) = some p') (ha : (p'.1.thr t).aborts = true) :
    ∃ c ∈ p.2.compared, p₁.2.thresholds.length ≤ c.after ∧ n ≤ c.count := by
  have hinv₀ : DelayInv p₀ := h₀.invariant (fun _ _ _ ha hs hi => hi.step ha hs) delayInv_initial
  have hinv₁ : DelayInv p₁ := hinv₀.step rfl hdraw
  obtain ⟨hinv,hsince⟩ : DelayInv p ∧ DelaySince p₁.2.thresholds.length n p :=
    h.invariant (I := fun p => DelayInv p ∧ DelaySince p₁.2.thresholds.length n p)
      (fun _ _ _ ha hs hi => ⟨hi.1.step ha hs,hi.2.step hi.1 hs⟩) ⟨hinv₁,delaySince_draw hq hdraw⟩
  obtain ⟨hdel,hsig⟩ := hinv.aborts hstep ha
  obtain ⟨-,hown⟩ := hsince.own ((hinv.latest t hdel).symm.trans ht)
  exact hown.resolve_left hsig

def delayConfig : Config := { refetchDelay := some {} }

def emptyFetch : List (Action ℕ) := .loop (.boundary true) :: loopTicks 4 ++ .loop (.batch (some [])) :: loopTicks 3

def startDelay (t : Tid) : List (Action ℕ) := loopTicks 2 ++ [.spawnDelay t] ++ loopTicks 1

def signal (t : Tid) : List (Action ℕ) := .start t (.pulse 1) :: threadTicks t 5

def firstDraw : List (Action ℕ) := loopTicks 4 ++ emptyFetch

/-- The first delay, with its task parked and signalled by the pulses. -/
def signalledDelay (t : Tid) (pulses : List Tid) : List (Action ℕ) := startDelay t ++ threadTicks t 2 ++ pulses.flatMap signal

theorem signalled_delay_aborts : ∃ p₀ p₁ p p' : State ℕ × Ledger,
    exec (ledgerStep delayConfig) unreleased (initial,{}) firstDraw = some p₀ ∧ Unsignalled p₀.1 ∧
    ledgerStep delayConfig p₀ (.loop (.threshold 1)) = some p₁ ∧
    exec (ledgerStep delayConfig) unreleased p₁ (signalledDelay 0 [1]) = some p ∧
    ledgerStep delayConfig p (.thread 0 .tick) = some p' ∧ (p'.1.thr 0).aborts = true ∧
    ∃ c ∈ p.2.compared, p₁.2.thresholds.length ≤ c.after ∧ 1 ≤ c.count := by
  have hrun : ((exec (ledgerStep delayConfig) unreleased (initial,{}) firstDraw).bind fun p₀ =>
      (ledgerStep delayConfig p₀ (.loop (.threshold 1))).bind fun p₁ =>
        (exec (ledgerStep delayConfig) unreleased p₁ (signalledDelay 0 [1])).bind fun p =>
          (ledgerStep delayConfig p (.thread 0 .tick)).map fun p' =>
            ((p'.1.thr 0).aborts,p.2.delayOf 0,p₁.2.thresholds)) = some (true,1,[1]) := by
    decide +kernel
  obtain ⟨p₀,h₀,hrest₀⟩ := Option.bind_eq_some_iff.mp hrun
  obtain ⟨p₁,h₁,hrest₁⟩ := Option.bind_eq_some_iff.mp hrest₀
  obtain ⟨p,hp,hrest⟩ := Option.bind_eq_some_iff.mp hrest₁
  obtain ⟨p',hp',he⟩ := Option.map_eq_some_iff.mp hrest
  simp only [Prod.mk.injEq] at he
  obtain ⟨ha,hd,ht⟩ := he
  have hq : Unsignalled p₀.1 := by
    cases h₀
    exact ⟨⟨rfl,rfl⟩,fun t => nofun⟩
  refine ⟨p₀,p₁,p,p',h₀,hq,h₁,hp,hp',ha,?_⟩
  exact abort_by_own_pulse delayConfig p₀ p₁ p p' 1 0 .tick (reaches_exec h₀) hq h₁ (reaches_exec hp)
    (by rw [hd,ht]; rfl) hp' ha

/-- Two pulses signal the first delay; the second signal stays stored and aborts the second delay. -/
theorem leftover_signal_aborts : ∃ p p' : State ℕ × Ledger,
    exec (ledgerStep delayConfig) unreleased (initial,{}) (firstDraw ++ .loop (.threshold 1) ::
      signalledDelay 0 [1,2] ++ threadTicks 0 4 ++ loopTicks 5 ++ emptyFetch ++ .loop (.threshold 1) :: startDelay 3 ++
      threadTicks 3 1) = some p ∧
    ledgerStep delayConfig p (.thread 3 .tick) = some p' ∧ (p'.1.thr 3).aborts = true ∧
    p.2.delayOf 3 = 2 ∧ p.2.thresholds = [1,1] ∧ ∀ c ∈ p.2.compared, c.after < 2 := by
  have hrun : ((exec (ledgerStep delayConfig) unreleased (initial,{}) (firstDraw ++ .loop (.threshold 1) ::
      signalledDelay 0 [1,2] ++ threadTicks 0 4 ++ loopTicks 5 ++ emptyFetch ++ .loop (.threshold 1) :: startDelay 3 ++
      threadTicks 3 1)).bind fun p => (ledgerStep delayConfig p (.thread 3 .tick)).map fun p' =>
        ((p'.1.thr 3).aborts,p.2.delayOf 3,p.2.thresholds,p.2.compared)) = some (true,2,[1,1],[⟨1,1⟩,⟨1,2⟩]) := by
    decide +kernel
  obtain ⟨p,hp,h⟩ := Option.bind_eq_some_iff.mp hrun
  obtain ⟨p',hp',he⟩ := Option.map_eq_some_iff.mp h
  simp only [Prod.mk.injEq] at he
  obtain ⟨ha,hd,ht,hc⟩ := he
  refine ⟨p,p',hp,hp',ha,hd,ht,?_⟩
  rw [hc]
  decide

end GraphileWorker.LocalQueue
