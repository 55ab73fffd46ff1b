import GraphileWorker.Foundation.Channel
import GraphileWorker.Foundation.Runs
import Mathlib.Data.List.Flatten
import Mathlib.Data.List.Nodup
import Mathlib.Logic.Function.Basic

/-! # The task of a batcher and its callers

`run_batcher_task` cut at its await points, with any number of callers. What a biased
select has looked at may become ready while it looks at the next branch, so any ready branch
can be taken. `accepted`, `flushes`, `finished` and `direct` are ledgers that no branch reads.
-/
namespace GraphileWorker.Batcher
open Foundation

inductive CallPc
  | idle
  | sending
  | accepted
  | rejected
  | persisted (ok : Bool)
  deriving DecidableEq

inductive TaskPc
  /-- `recv_or_shutdown`, with no batch yet. -/
  | receiving
  /-- The inner loop, while the timeout runs. -/
  | collecting
  | draining
  /-- A flush is running; after the last one the task returns. -/
  | flushing (last : Bool)
  | returned
  | aborted (inFlush : Bool)
  deriving DecidableEq

structure BatcherState (C : Type) where
  channel : Channel C := {}
  shutdown : Bool := false
  call : C → CallPc := fun _ => .idle
  task : TaskPc := .receiving
  batch : List C := []
  /-- The calls whose send succeeded, in the order of the channel. -/
  accepted : List C := []
  flushes : List (List C) := []
  finished : List (List C) := []
  /-- The requests that were persisted directly, and whether that succeeded. -/
  direct : List (C × Bool) := []
  woken : ℕ := 0
  observed : List C := []

inductive TaskEvent
  | recv
  | shutdown
  | timeout
  | tryRecv
  | flushed
  deriving DecidableEq

inductive BatcherAction (C : Type)
  | call (c : C)
  | send (c : C)
  | persist (c : C) (ok : Bool)
  | signal
  /-- The channel is closed from outside the task. -/
  | close
  | task (e : TaskEvent)
  | abort

section
variable {C : Type}

def BatcherState.startFlush (s : BatcherState C) (last : Bool) : BatcherState C :=
  { s with flushes := s.flushes ++ [s.batch], task := .flushing last }

def taskStep (s : BatcherState C) : TaskPc → TaskEvent → Option (BatcherState C)
  | .receiving, .shutdown | .collecting, .shutdown =>
    if s.shutdown then some { s with channel := s.channel.close, task := .draining } else none
  | .receiving, .recv | .collecting, .recv =>
    match s.channel.recv with
    | none => none
    | some (ch,some c) => some { s with channel := ch, batch := s.batch ++ [c], task := .collecting }
    | some (_,none) => some (s.startFlush true)
  | .collecting, .timeout => some (s.startFlush false)
  | .draining, .tryRecv =>
    match s.channel.recv with
    | some (ch,some c) => some { s with channel := ch, batch := s.batch ++ [c] }
    | _ => some (s.startFlush true)
  | .flushing true, .flushed =>
    -- the receiver is dropped, which closes the channel
    some { s with finished := s.finished ++ [s.batch], channel := s.channel.close, task := .returned }
  | .flushing false, .flushed => some { s with finished := s.finished ++ [s.batch], batch := [], task := .receiving }
  | _, _ => none

def TaskPc.inFlush : TaskPc → Bool
  | .flushing _ | .aborted true => true
  | _ => false

def TaskPc.ended : TaskPc → Bool
  | .returned | .aborted _ => true
  | _ => false

variable [DecidableEq C] (capacity : ℕ) (hasQueue : C → Bool) (hasHooks : Bool)

def BatcherState.setCall (s : BatcherState C) (c : C) (pc : CallPc) : BatcherState C :=
  { s with call := Function.update s.call c pc }

def batcherStep (s : BatcherState C) : BatcherAction C → Option (BatcherState C)
  | .call c => if s.call c = .idle then some (s.setCall c .sending) else none
  | .send c =>
    if s.call c = .sending then
      match s.channel.send capacity c with
      | none => none
      | some (ch,true) => some ({ s with channel := ch, accepted := s.accepted ++ [c] }.setCall c .accepted)
      | some (_,false) => some (s.setCall c .rejected)
    else none
  | .persist c ok =>
    if s.call c = .rejected then
      some ({ s with
        direct := s.direct ++ [(c,ok)]
        woken := if ok && hasQueue c then s.woken + 1 else s.woken
        observed := if ok && hasHooks then s.observed ++ [c] else s.observed }.setCall c (.persisted ok))
    else none
  | .signal => some { s with shutdown := true }
  | .close => some { s with channel := s.channel.close }
  | .task e => taskStep s s.task e
  | .abort =>
    if s.task.ended then none
    else some { s with channel := s.channel.close, task := .aborted s.task.inFlush }

end

section
variable {C : Type}

def BatcherState.pending (s : BatcherState C) : List C :=
  if s.task.inFlush || s.task = .returned then [] else s.batch

def BatcherState.running (s : BatcherState C) : List (List C) := if s.task.inFlush then [s.batch] else []

/-- What the position of the task says about channel and batch. -/
def Sealed (channel : Channel C) (batch : List C) : TaskPc → Prop
  | .receiving => batch = []
  | .draining => channel.closed = true
  | .flushing true | .returned => channel.closed = true ∧ channel.items = []
  | _ => True

structure Balanced (s : BatcherState C) : Prop where
  accepted : s.accepted = s.flushes.flatten ++ s.pending ++ s.channel.items
  flushes : s.flushes = s.finished ++ s.running
  sealed_ : Sealed s.channel s.batch s.task

structure Answered (s : BatcherState C) : Prop where
  call : ∀ c, s.call c = .accepted ↔ c ∈ s.accepted
  nodup : s.accepted.Nodup
  direct : ∀ c ok, (c,ok) ∈ s.direct ↔ s.call c = .persisted ok
  direct_nodup : (s.direct.map Prod.fst).Nodup

def CallPc.HandedBack (pc : CallPc) : Prop := pc = .rejected ∨ ∃ ok, pc = .persisted ok

variable {s s' : BatcherState C}

def TaskPc.Holding (pc : TaskPc) : Prop := pc = .receiving ∨ pc = .collecting ∨ pc = .draining

inductive TaskMove (s : BatcherState C) : BatcherState C → Prop
  | drain : s.task.Holding → TaskMove s { s with channel := s.channel.close, task := .draining }
  | receive {ch : Channel C} {c : C} {pc : TaskPc} : s.task.Holding → s.channel.recv = some (ch,some c) →
      pc = .collecting ∨ pc = .draining ∧ s.task = .draining →
      TaskMove s { s with channel := ch, batch := s.batch ++ [c], task := pc }
  | flush (last : Bool) : s.task.Holding →
      (last = true → s.channel.items = [] ∧ (s.channel.closed = true ∨ s.task = .draining)) →
      TaskMove s (s.startFlush last)
  | again : s.task = .flushing false →
      TaskMove s { s with finished := s.finished ++ [s.batch], batch := [], task := .receiving }
  | finish : s.task = .flushing true →
      TaskMove s { s with finished := s.finished ++ [s.batch], channel := s.channel.close, task := .returned }

theorem taskStep_move {pc : TaskPc} {e : TaskEvent} (ht : s.task = pc) :
    taskStep s pc e = some s' → TaskMove s s' := by
  fun_cases taskStep s pc e <;> rintro ⟨⟩
  case case1 => exact .drain (.inl ht)
  case case3 => exact .drain (.inr (.inl ht))
  case case6 hr => exact .receive (.inl ht) hr (.inl rfl)
  case case7 hr =>
    obtain ⟨hi,hc,-⟩ := Channel.recv_end hr
    exact .flush true (.inl ht) fun _ => ⟨hi,.inl hc⟩
  case case9 hr => exact .receive (.inr (.inl ht)) hr (.inl rfl)
  case case10 hr =>
    obtain ⟨hi,hc,-⟩ := Channel.recv_end hr
    exact .flush true (.inr (.inl ht)) fun _ => ⟨hi,.inl hc⟩
  case case11 => exact .flush false (.inr (.inl ht)) nofun
  case case12 hr => exact .receive (.inr (.inr ht)) hr (.inr ⟨ht,ht⟩)
  case case13 hr => exact .flush true (.inr (.inr ht)) fun _ => ⟨Channel.items_eq_nil hr,.inr ht⟩
  case case14 => exact .finish ht
  case case15 => exact .again ht

theorem pending_of_holding (h : s.task.Holding) : s.pending = s.batch := by
  obtain h | h | h := h <;> simp [BatcherState.pending,h,TaskPc.inFlush]

theorem running_of_holding (h : s.task.Holding) : s.running = [] := by
  obtain h | h | h := h <;> simp [BatcherState.running,h,TaskPc.inFlush]

section
variable (h : Balanced s)
include h

theorem Balanced.startFlush (ht : s.task.Holding) (last : Bool)
    (hl : Sealed s.channel s.batch (.flushing last)) : Balanced (s.startFlush last) where
  accepted := by
    have ha := h.accepted
    rw [pending_of_holding ht] at ha
    simpa [BatcherState.startFlush,BatcherState.pending,TaskPc.inFlush] using ha
  flushes := by
    have hf := h.flushes
    rw [running_of_holding ht,List.append_nil] at hf
    simp [BatcherState.startFlush,BatcherState.running,TaskPc.inFlush,hf]
  sealed_ := hl

theorem Balanced.receive {ch : Channel C} {c : C} (ht : s.task.Holding)
    (hr : s.channel.recv = some (ch,some c)) {pc : TaskPc} (hpc : pc.Holding) (hs : Sealed ch (s.batch ++ [c]) pc) :
    Balanced { s with channel := ch, batch := s.batch ++ [c], task := pc } where
  accepted := by
    have ha := h.accepted
    rw [pending_of_holding ht,(Channel.recv_item hr).1] at ha
    rw [pending_of_holding hpc,ha]
    simp
  flushes := by
    have hf := h.flushes
    rw [running_of_holding ht] at hf
    rw [running_of_holding hpc]
    exact hf
  sealed_ := hs

theorem Balanced.close : Balanced { s with channel := s.channel.close } where
  accepted := h.accepted
  flushes := h.flushes
  sealed_ := by
    have hs := h.sealed_
    revert hs
    dsimp only
    cases s.task with
    | receiving | collecting => exact id
    | draining => exact fun _ => rfl
    | flushing last =>
      cases last with
      | false => exact id
      | true => exact fun hs => ⟨rfl,hs.2⟩
    | returned => exact fun hs => ⟨rfl,hs.2⟩
    | aborted => exact fun _ => trivial

theorem Balanced.drain (ht : s.task.Holding) :
    Balanced { s with channel := s.channel.close, task := .draining } where
  accepted := by
    have ha := h.accepted
    rw [pending_of_holding ht] at ha
    exact ha
  flushes := by
    have hf := h.flushes
    rw [running_of_holding ht] at hf
    exact hf
  sealed_ := rfl

theorem Balanced.flushed {last : Bool} (ht : s.task = .flushing last) :
    s.accepted = s.flushes.flatten ++ s.channel.items ∧ s.flushes = s.finished ++ [s.batch] := by
  have ha := h.accepted
  have hf := h.flushes
  simp only [BatcherState.pending,BatcherState.running,ht,TaskPc.inFlush,Bool.true_or,if_true,List.append_nil] at ha hf
  exact ⟨ha,hf⟩

theorem Balanced.accept [DecidableEq C] {c : C} (hopen : s.channel.closed = false) :
    Balanced ({ s with
      channel := { s.channel with items := s.channel.items ++ [c] }
      accepted := s.accepted ++ [c] }.setCall c .accepted) where
  accepted := by
    show s.accepted ++ [c] = s.flushes.flatten ++ s.pending ++ (s.channel.items ++ [c])
    rw [h.accepted]
    simp
  flushes := h.flushes
  sealed_ := by
    have hs := h.sealed_
    have hnot : s.channel.closed ≠ true := by simp [hopen]
    revert hs
    simp only [BatcherState.setCall]
    cases s.task with
    | receiving | collecting | aborted => exact id
    | draining => exact fun hc => absurd hc hnot
    | returned => exact fun hc => absurd hc.1 hnot
    | flushing last =>
      cases last with
      | false => exact id
      | true => exact fun hc => absurd hc.1 hnot

theorem Balanced.abort (hend : s.task.ended = false) :
    Balanced { s with channel := s.channel.close, task := .aborted s.task.inFlush } := by
  have ha := h.accepted
  have hf := h.flushes
  have hin : TaskPc.inFlush (.aborted s.task.inFlush) = s.task.inFlush := by cases s.task.inFlush <;> rfl
  have hret : s.task ≠ .returned := by
    intro he
    rw [he] at hend
    cases hend
  refine ⟨?_,?_,trivial⟩
  · simpa [BatcherState.pending,hin,hret] using ha
  · simpa [BatcherState.running,hin] using hf

end

theorem TaskMove.balanced (hm : TaskMove s s') (h : Balanced s) : Balanced s' := by
  cases hm with
  | drain ht => exact h.drain ht
  | receive ht hr hpc =>
    obtain rfl | ⟨rfl,hd⟩ := hpc
    · exact h.receive ht hr (.inr (.inl rfl)) trivial
    · have hs := h.sealed_
      rw [hd] at hs
      exact h.receive ht hr (.inr (.inr rfl)) ((Channel.recv_item hr).2.trans hs)
  | flush last ht hl =>
    refine h.startFlush ht last ?_
    cases last with
    | false => exact trivial
    | true =>
      obtain ⟨hi,hc | hd⟩ := hl rfl
      · exact ⟨hc,hi⟩
      · have hs := h.sealed_
        rw [hd] at hs
        exact ⟨hs,hi⟩
  | again ht =>
    obtain ⟨ha,hf⟩ := h.flushed ht
    exact ⟨by simpa [BatcherState.pending,TaskPc.inFlush] using ha,
      by simpa [BatcherState.running,TaskPc.inFlush] using hf,rfl⟩
  | finish ht =>
    obtain ⟨ha,hf⟩ := h.flushed ht
    have hs := h.sealed_
    rw [ht] at hs
    exact ⟨by simpa [BatcherState.pending,TaskPc.inFlush] using ha,
      by simpa [BatcherState.running,TaskPc.inFlush] using hf,rfl,hs.2⟩

theorem TaskMove.answered (hm : TaskMove s s') (h : Answered s) : Answered s' := by
  cases hm with
  | drain | receive | flush | again | finish => exact ⟨h.call,h.nodup,h.direct,h.direct_nodup⟩

theorem balanced_init : Balanced ({} : BatcherState C) := ⟨rfl,rfl,rfl⟩

theorem answered_init : Answered ({} : BatcherState C) := ⟨by simp,.nil,by simp,.nil⟩

theorem Balanced.of_returned (h : Balanced s) (ht : s.task = .returned) :
    s.flushes.flatten = s.accepted ∧ s.finished = s.flushes ∧ s.channel.closed = true := by
  have ha := h.accepted
  have hf := h.flushes
  have hs := h.sealed_
  rw [ht] at hs
  simp only [BatcherState.pending,BatcherState.running,ht,TaskPc.inFlush,hs.2,List.append_nil] at ha hf
  exact ⟨by simpa using ha.symm,by simpa using hf.symm,hs.1⟩

section Callers
variable [DecidableEq C] {capacity : ℕ} {hasQueue : C → Bool} {hasHooks : Bool} {a : BatcherAction C} {c : C}

theorem Answered.setCall {pc : CallPc} (h : Answered s) (hc : s.call c ≠ .accepted)
    (hp : ∀ ok, s.call c ≠ .persisted ok) (hpc : pc ≠ .accepted) (hpp : ∀ ok, pc ≠ .persisted ok) :
    Answered (s.setCall c pc) where
  call d := by
    by_cases hd : d = c
    · subst hd
      simp only [BatcherState.setCall,Function.update_self,hpc,false_iff]
      exact fun hmem => hc ((h.call d).mpr hmem)
    · simp only [BatcherState.setCall,Function.update_of_ne hd]
      exact h.call d
  nodup := h.nodup
  direct d ok := by
    by_cases hd : d = c
    · subst hd
      simp only [BatcherState.setCall,Function.update_self,hpp ok,iff_false]
      exact fun hmem => hp ok ((h.direct d ok).mp hmem)
    · simp only [BatcherState.setCall,Function.update_of_ne hd]
      exact h.direct d ok
  direct_nodup := h.direct_nodup

theorem Answered.accept {ch : Channel C} (h : Answered s) (hc : s.call c = .sending) :
    Answered ({ s with channel := ch, accepted := s.accepted ++ [c] }.setCall c .accepted) where
  call d := by
    by_cases hd : d = c
    · subst hd
      simp [BatcherState.setCall]
    · simp only [BatcherState.setCall,Function.update_of_ne hd,List.mem_append,List.mem_singleton,hd,or_false]
      exact h.call d
  nodup := by
    refine List.nodup_append.mpr ⟨h.nodup,List.nodup_singleton c,fun d hd e he => ?_⟩
    rw [List.mem_singleton.mp he]
    rintro rfl
    rw [(h.call d).mpr hd] at hc
    cases hc
  direct d ok := by
    by_cases hd : d = c
    · subst hd
      have hno := h.direct d ok
      rw [hc] at hno
      simpa [BatcherState.setCall] using hno
    · simp only [BatcherState.setCall,Function.update_of_ne hd]
      exact h.direct d ok
  direct_nodup := h.direct_nodup

theorem Answered.persist {ok : Bool} {woken : ℕ} {observed : List C} (h : Answered s) (hc : s.call c = .rejected) :
    Answered ({ s with direct := s.direct ++ [(c,ok)], woken := woken, observed := observed }.setCall c
      (.persisted ok)) where
  call d := by
    by_cases hd : d = c
    · subst hd
      have hno := h.call d
      rw [hc] at hno
      simpa [BatcherState.setCall] using hno
    · simp only [BatcherState.setCall,Function.update_of_ne hd]
      exact h.call d
  nodup := h.nodup
  direct d ok' := by
    by_cases hd : d = c
    · subst hd
      have hno := h.direct d ok'
      rw [hc] at hno
      simp [BatcherState.setCall,show (d,ok') ∉ s.direct by simpa using hno,eq_comm]
    · simp only [BatcherState.setCall,Function.update_of_ne hd,List.mem_append,List.mem_singleton,Prod.mk.injEq,hd,
        false_and,or_false]
      exact h.direct d ok'
  direct_nodup := by
    simp only [BatcherState.setCall,List.map_append]
    refine List.nodup_append.mpr ⟨h.direct_nodup,List.nodup_singleton c,fun d hd e he => ?_⟩
    rw [List.mem_singleton.mp he]
    rintro rfl
    obtain ⟨⟨d,b⟩,hp,rfl⟩ := List.mem_map.mp hd
    rw [(h.direct d b).mp hp] at hc
    cases hc

inductive BatcherMove (s : BatcherState C) : BatcherAction C → BatcherState C → Prop
  | call {c : C} : s.call c = .idle → BatcherMove s (.call c) (s.setCall c .sending)
  | accept {c : C} : s.call c = .sending → s.channel.closed = false → BatcherMove s (.send c) ({ s with
      channel := { s.channel with items := s.channel.items ++ [c] }
      accepted := s.accepted ++ [c] }.setCall c .accepted)
  | reject {c : C} : s.call c = .sending → s.channel.closed = true → BatcherMove s (.send c) (s.setCall c .rejected)
  | persist {c : C} {ok : Bool} (woken : ℕ) (observed : List C) : s.call c = .rejected →
      BatcherMove s (.persist c ok) ({ s with
        direct := s.direct ++ [(c,ok)]
        woken := woken
        observed := observed }.setCall c (.persisted ok))
  | signal : BatcherMove s .signal { s with shutdown := true }
  | close : BatcherMove s .close { s with channel := s.channel.close }
  | task {e : TaskEvent} {s' : BatcherState C} : TaskMove s s' → BatcherMove s (.task e) s'
  | abort : s.task.ended = false →
      BatcherMove s .abort { s with channel := s.channel.close, task := .aborted s.task.inFlush }

theorem batcherStep_move (hs : batcherStep capacity hasQueue hasHooks s a = some s') : BatcherMove s a s' := by
  cases a with
  | call c =>
    simp only [batcherStep] at hs
    split at hs
    · next hc =>
      cases hs
      exact .call hc
    · cases hs
  | send c =>
    simp only [batcherStep] at hs
    split at hs
    · next hc =>
      split at hs
      · cases hs
      · next hsend =>
        cases hs
        obtain ⟨hopen,rfl⟩ := Channel.send_accepted hsend
        exact .accept hc hopen
      · next hsend =>
        cases hs
        exact .reject hc (Channel.send_rejected hsend).1
    · cases hs
  | persist c ok =>
    simp only [batcherStep] at hs
    split at hs
    · next hc =>
      cases hs
      exact .persist _ _ hc
    · cases hs
  | signal =>
    cases hs
    exact .signal
  | close =>
    cases hs
    exact .close
  | task e => exact .task (taskStep_move rfl hs)
  | abort =>
    simp only [batcherStep] at hs
    split at hs
    · cases hs
    · next hend =>
      cases hs
      exact .abort (by simpa using hend)

theorem BatcherMove.answered (hm : BatcherMove s a s') (h : Answered s) : Answered s' := by
  cases hm with
  | call hc => exact h.setCall (by simp [hc]) (by simp [hc]) (by simp) (by simp)
  | accept hc => exact h.accept hc
  | reject hc => exact h.setCall (by simp [hc]) (by simp [hc]) (by simp) (by simp)
  | persist woken observed hc => exact h.persist hc
  | signal | close | abort => exact ⟨h.call,h.nodup,h.direct,h.direct_nodup⟩
  | task hm => exact hm.answered h

theorem BatcherMove.balanced (hm : BatcherMove s a s') (h : Balanced s) : Balanced s' := by
  cases hm with
  | call | reject | persist | signal => exact ⟨h.accepted,h.flushes,h.sealed_⟩
  | accept hc hopen => exact h.accept hopen
  | close => exact h.close
  | task hm => exact hm.balanced h
  | abort hend => exact h.abort hend

theorem batcher_invariant {t : BatcherState C}
    (h : Reaches (batcherStep capacity hasQueue hasHooks) (fun _ _ => True) s t) (ha : Balanced s) (hc : Answered s) :
    Balanced t ∧ Answered t :=
  ⟨h.invariant (fun _ _ _ _ hs => (batcherStep_move hs).balanced) ha,
    h.invariant (fun _ _ _ _ hs => (batcherStep_move hs).answered) hc⟩

/-- Flushes contain accepted requests in the order of the channel, none twice and none that was handed
back, and all of them once the task has returned. -/
theorem accepted_requests_flushed_once {t : BatcherState C}
    (h : Reaches (batcherStep capacity hasQueue hasHooks) (fun _ _ => True) {} t) :
    t.flushes.flatten <+: t.accepted ∧ (∀ c, t.call c = .accepted ↔ c ∈ t.accepted) ∧
      (∀ c, t.flushes.flatten.count c ≤ 1) ∧
      (∀ c, (t.call c).HandedBack → c ∉ t.flushes.flatten) ∧
      (∀ c ok, (c,ok) ∈ t.direct ↔ t.call c = .persisted ok) ∧ (t.direct.map Prod.fst).Nodup ∧
      (∀ c ok, t.call c = .rejected → ∃ u, batcherStep capacity hasQueue hasHooks t (.persist c ok) = some u ∧
        (c,ok) ∈ u.direct) ∧
      (t.task = .returned → t.finished = t.flushes ∧
        (∀ c, t.call c = .accepted → t.flushes.flatten.count c = 1) ∧
        ∀ c, t.call c = .sending → ∃ u, batcherStep capacity hasQueue hasHooks t (.send c) = some u ∧
          u.call c = .rejected) := by
  obtain ⟨ha,hc⟩ := batcher_invariant h balanced_init answered_init
  have hinitial : t.flushes.flatten <+: t.accepted := by
    rw [ha.accepted,List.append_assoc]
    exact List.prefix_append ..
  have hnodup : t.flushes.flatten.Nodup := hinitial.sublist.nodup hc.nodup
  refine ⟨hinitial,hc.call,List.nodup_iff_count_le_one.mp hnodup,?_,hc.direct,hc.direct_nodup,?_,?_⟩
  · intro c hback hmem
    have hacc := (hc.call c).mpr (hinitial.subset hmem)
    obtain hr | ⟨ok,hp⟩ := hback
    · rw [hr] at hacc
      cases hacc
    · rw [hp] at hacc
      cases hacc
  · intro c ok hr
    exact ⟨_,by rw [batcherStep,if_pos hr],by simp [BatcherState.setCall]⟩
  · intro ht
    obtain ⟨hflat,hfin,hclosed⟩ := ha.of_returned ht
    refine ⟨hfin,fun c hacc => ?_,fun c hsend => ?_⟩
    · rw [hflat]
      exact List.count_eq_one_of_mem hc.nodup ((hc.call c).mp hacc)
    · refine ⟨t.setCall c .rejected,?_,by simp [BatcherState.setCall]⟩
      simp only [batcherStep,if_pos hsend,Channel.send_closed hclosed]

end Callers

end

/-- Three calls on a channel for one request: the first is flushed after the delay, the
second waits for room and is drained, and the third still waits when the channel is closed. -/
def threeCalls : List (BatcherAction (Fin 3)) :=
  [.call 0,.send 0,.call 1,.call 2,.task .recv,.send 1,.task .timeout,.signal,.task .flushed,.task .shutdown,
    .send 2,.task .tryRecv,.task .tryRecv,.persist 2 true,.task .flushed]

theorem waiting_call_handed_back :
    ∃ t, Reaches (batcherStep 1 (fun _ => false) false) (fun _ _ => True) ({} : BatcherState (Fin 3)) t ∧
      t.task = .returned ∧ t.flushes = [[0],[1]] ∧ t.finished = t.flushes ∧ 2 ∉ t.flushes.flatten ∧
      (2,true) ∈ t.direct := by
  obtain ⟨t,hreach,htask,hflushes,hcall⟩ : ∃ t : BatcherState (Fin 3),
      Reaches (batcherStep 1 (fun _ => false) false) (fun _ _ => True) {} t ∧
      t.task = .returned ∧ t.flushes = [[0],[1]] ∧ t.call 2 = .persisted true :=
    exists_reaches_of_exec threeCalls (by decide +kernel)
  obtain ⟨-,-,-,hback,hdirect,-,-,hret⟩ := accepted_requests_flushed_once hreach
  exact ⟨t,hreach,htask,hflushes,(hret htask).1,hback 2 (.inr ⟨true,hcall⟩),(hdirect 2 true).mpr hcall⟩

end GraphileWorker.Batcher
