import GraphileWorker.Lifecycle.Moves

/-! # Waiting for the job slots

`dispatch_job_signals` cut at its await points and at its call of `notify_one`. The slot tasks
take signals from the source channel and end in any order, each with its own result.
-/
namespace GraphileWorker.Lifecycle
open Foundation

/-- What the join handle of a slot gives: the error of the slot, or that of its task. -/
abbrev SlotResult (P J : Type) := Except J (Except P Unit)

inductive DispatchError (P J : Type)
  | processJob (error : P)
  | workerTask (error : J)
  deriving DecidableEq

def resultError {P J : Type} : SlotResult P J → Option (DispatchError P J)
  | .ok (.ok _) => none
  | .ok (.error error) => some (.processJob error)
  | .error error => some (.workerTask error)

theorem resultError_eq_none {P J : Type} {r : SlotResult P J} : resultError r = none ↔ r = .ok (.ok ()) := by
  rcases r with error | (error | _) <;> simp [resultError]

inductive DispatchPc (P J : Type)
  /-- In the `select_biased!` of the loop. -/
  | selecting
  /-- A slot has failed in the loop; `notify_one` comes next. -/
  | stopping
  /-- After the loop, before `source_tx.close()`. -/
  | closing
  /-- In `worker_handles.next().await` of the second loop. -/
  | draining
  /-- The first failure comes there; `notify_one` comes next. -/
  | failing (error : DispatchError P J)
  | returned (result : Option (DispatchError P J))
  deriving DecidableEq

/-- The dispatcher waits for what happens next. -/
def DispatchPc.Waits {P J : Type} (pc : DispatchPc P J) : Prop := pc = .selecting ∨ pc = .draining

structure DispatchState (n : ℕ) (P J : Type) where
  pc : DispatchPc P J := .selecting
  firstError : Option (DispatchError P J) := none
  handles : List (Fin n) := List.finRange n
  /-- The slot tasks that have ended. -/
  finished : Fin n → Bool := fun _ => false
  sources : Channel Unit

inductive DispatchEvent (n : ℕ)
  | ended (i : Fin n)
  | taken
  | joined (i : Fin n)
  | noHandle
  | source
  | sourceEnd
  | notifyOne
  | closeSources

def DispatchEvent.isSlots {n : ℕ} : DispatchEvent n → Bool
  | .ended _ | .taken => true
  | _ => false

section
variable {n : ℕ} {P J : Type} (result : Fin n → SlotResult P J) (capacity fanout : ℕ)

/-- With the last slot the last receiver is gone. -/
def DispatchState.endSlot (s : DispatchState n P J) (i : Fin n) : DispatchState n P J :=
  let finished := Function.update s.finished i true
  { s with
    finished := finished
    sources := if ∀ j, finished j = true then s.sources.close else s.sources }

def DispatchState.join (s : DispatchState n P J) (i : Fin n) : DispatchState n P J :=
  { s with handles := s.handles.erase i }

/-- The dispatcher's own code, given what its await gives. -/
def dispatchMove (s : DispatchState n P J) : DispatchPc P J → DispatchEvent n → Option (DispatchState n P J)
  | .selecting, .joined i =>
    if s.handles.contains i && s.finished i then
      match resultError (result i) with
      | none => some { s.join i with pc := if (s.join i).handles.isEmpty then .closing else .selecting }
      | some error => some { s.join i with firstError := some error, pc := .stopping }
    else none
  | .selecting, .noHandle => if s.handles.isEmpty then some { s with pc := .closing } else none
  | .selecting, .source =>
    match fanoutJobSignal capacity fanout s.sources with
    | (ch,.opened) => some { s with sources := ch }
    | (ch,.closed) => some { s with sources := ch, pc := .closing }
  | .selecting, .sourceEnd => some { s with pc := .closing }
  | .stopping, .notifyOne => some { s with pc := .closing }
  | .closing, .closeSources => some { s with sources := s.sources.close, pc := .draining }
  | .draining, .joined i =>
    if s.handles.contains i && s.finished i then
      match resultError (result i) with
      | none => some (s.join i)
      | some error => if s.firstError.isSome then some (s.join i) else some { s.join i with pc := .failing error }
    else none
  | .draining, .noHandle => if s.handles.isEmpty then some { s with pc := .returned s.firstError } else none
  | .failing error, .notifyOne => some { s with firstError := some error, pc := .draining }
  | _, _ => none

def dispatchStep (s : DispatchState n P J) : DispatchEvent n → Option (DispatchState n P J)
  | .ended i => if s.finished i then none else some (s.endSlot i)
  | .taken => if s.sources.items.isEmpty then none else some { s with sources.items := s.sources.items.tail }
  | e => dispatchMove result capacity fanout s s.pc e

/-- One step, with everything it changes apart from the source channel. -/
inductive Dispatched (s : DispatchState n P J) : DispatchEvent n → DispatchState n P J → Prop
  | ended {i ch} (h : s.finished i = false) :
    Dispatched s (.ended i) { s with finished := Function.update s.finished i true, sources := ch }
  | taken {ch} : Dispatched s .taken { s with sources := ch }
  | stopped {i pc} (hpc : s.pc.Waits) (hi : i ∈ s.handles) (hf : s.finished i = true)
    (hr : resultError (result i) = none) (hnext : pc = s.pc ∨ pc = .closing) :
    Dispatched s (.joined i) { s.join i with pc := pc }
  | failed {i error} (hpc : s.pc = .selecting) (hi : i ∈ s.handles) (hf : s.finished i = true)
    (hr : resultError (result i) = some error) :
    Dispatched s (.joined i) { s.join i with firstError := some error, pc := .stopping }
  | failedLater {i error} (hpc : s.pc = .draining) (hi : i ∈ s.handles) (hf : s.finished i = true)
    (hr : resultError (result i) = some error) (he : s.firstError.isSome = true) : Dispatched s (.joined i) (s.join i)
  | failedFirst {i error} (hpc : s.pc = .draining) (hi : i ∈ s.handles) (hf : s.finished i = true)
    (hr : resultError (result i) = some error) (he : s.firstError = none) :
    Dispatched s (.joined i) { s.join i with pc := .failing error }
  | left {e} (hpc : s.pc = .selecting) (he : e = .noHandle ∨ e = .source ∨ e = .sourceEnd) {ch} {pc}
    (hnext : pc = .selecting ∨ pc = .closing) : Dispatched s e { s with sources := ch, pc := pc }
  | notified (hpc : s.pc = .stopping) : Dispatched s .notifyOne { s with pc := .closing }
  | closed (hpc : s.pc = .closing) : Dispatched s .closeSources { s with sources := s.sources.close, pc := .draining }
  | notifiedLater {error} (hpc : s.pc = .failing error) :
    Dispatched s .notifyOne { s with firstError := some error, pc := .draining }
  | returned (hpc : s.pc = .draining) (hh : s.handles = []) :
    Dispatched s .noHandle { s with pc := .returned s.firstError }

variable {result capacity fanout} {s t : DispatchState n P J} {e : DispatchEvent n}

theorem joinable {i : Fin n} (h : (s.handles.contains i && s.finished i) = true) :
    i ∈ s.handles ∧ s.finished i = true := by
  obtain ⟨hi,hf⟩ := Bool.and_eq_true_iff.mp h
  exact ⟨List.contains_iff_mem.mp hi,hf⟩

theorem dispatched_of_move {pc : DispatchPc P J} (hpc : s.pc = pc) :
    dispatchMove result capacity fanout s pc e = some t → Dispatched result s e t := by
  fun_cases dispatchMove result capacity fanout s pc e <;> rintro ⟨⟩
  case case1 i hi hr =>
    refine .stopped (.inl hpc) (joinable hi).1 (joinable hi).2 hr ?_
    split
    · exact .inr rfl
    · exact .inl hpc.symm
  case case2 i hi error hr => exact .failed hpc (joinable hi).1 (joinable hi).2 hr
  case case4 => exact .left hpc (.inl rfl) (.inr rfl)
  case case6 ch hch => exact .left hpc (.inr (.inl rfl)) (.inl hpc)
  case case7 ch hch => exact .left hpc (.inr (.inl rfl)) (.inr rfl)
  case case8 => exact .left hpc (.inr (.inr rfl)) (.inr rfl)
  case case9 => exact .notified hpc
  case case10 => exact .closed hpc
  case case11 i hi hr => exact .stopped (.inr hpc) (joinable hi).1 (joinable hi).2 hr (.inl rfl)
  case case12 i hi error hr he => exact .failedLater hpc (joinable hi).1 (joinable hi).2 hr he
  case case13 i hi error hr he => exact .failedFirst hpc (joinable hi).1 (joinable hi).2 hr (by simpa using he)
  case case15 hh => exact .returned hpc (List.isEmpty_iff.mp hh)
  case case17 error => exact .notifiedLater hpc

theorem dispatched_of_step (h : dispatchStep result capacity fanout s e = some t) : Dispatched result s e t := by
  cases e with
  | ended i =>
    obtain ⟨hf,he⟩ := Option.ite_none_left_eq_some.mp h
    cases he
    exact .ended (by simpa using hf)
  | taken =>
    obtain ⟨-,he⟩ := Option.ite_none_left_eq_some.mp h
    cases he
    exact .taken
  | _ => exact dispatched_of_move rfl h

variable (result) in
def failureOf : DispatchEvent n → Option (DispatchError P J)
  | .joined i => resultError (result i)
  | _ => none

variable (result) in
/-- The error of the first slot that the dispatcher saw failing. -/
def firstFailure (past : List (DispatchEvent n)) : Option (DispatchError P J) := past.findSome? (failureOf result)

variable (result) in
/-- The first failure was just seen: only slots have done something since. -/
def Noticed (past : List (DispatchEvent n)) (error : DispatchError P J) : Prop :=
  ∃ before i since, past = before ++ .joined i :: since ∧ firstFailure result before = none ∧
    resultError (result i) = some error ∧ ∀ e ∈ since, e.isSlots = true

variable (result) in
/-- After the first failure was seen the dispatcher called `notify_one` before anything else. -/
def Announced (past : List (DispatchEvent n)) (error : DispatchError P J) : Prop :=
  ∃ before i since rest, past = before ++ .joined i :: (since ++ .notifyOne :: rest) ∧
    firstFailure result before = none ∧ resultError (result i) = some error ∧ ∀ e ∈ since, e.isSlots = true

variable (result) in
/-- Nothing has failed yet, or the first failure is known and announced. -/
def Settled (past : List (DispatchEvent n)) : Option (DispatchError P J) → Prop
  | none => firstFailure result past = none
  | some error => Announced result past error

variable {past : List (DispatchEvent n)} {error : DispatchError P J} {first : Option (DispatchError P J)}

theorem firstFailure_concat :
    firstFailure result (past ++ [e]) = (firstFailure result past).or (failureOf result e) := by
  unfold firstFailure
  rw [List.findSome?_append]
  simp

theorem Noticed.concat (h : Noticed result past error) (he : e.isSlots = true) :
    Noticed result (past ++ [e]) error := by
  obtain ⟨before,i,since,rfl,hb,hr,hs⟩ := h
  refine ⟨before,i,since ++ [e],by simp,hb,hr,?_⟩
  intro a ha
  rcases List.mem_append.mp ha with ha | ha
  · exact hs a ha
  · rwa [List.mem_singleton.mp ha]

theorem Noticed.announced (h : Noticed result past error) : Announced result (past ++ [.notifyOne]) error := by
  obtain ⟨before,i,since,rfl,hb,hr,hs⟩ := h
  exact ⟨before,i,since,[],by simp,hb,hr,hs⟩

theorem Announced.concat (h : Announced result past error) : Announced result (past ++ [e]) error := by
  obtain ⟨before,i,since,rest,rfl,hb,hr,hs⟩ := h
  exact ⟨before,i,since,rest ++ [e],by simp,hb,hr,hs⟩

theorem Announced.firstFailure (h : Announced result past error) : firstFailure result past = some error := by
  obtain ⟨before,i,since,rest,rfl,hb,hr,-⟩ := h
  unfold Lifecycle.firstFailure at hb ⊢
  rw [List.findSome?_append,hb,List.findSome?_cons]
  simp [failureOf,hr]

theorem Settled.firstFailure (h : Settled result past first) : firstFailure result past = first := by
  cases first with
  | none => exact h
  | some error => exact Announced.firstFailure h

theorem Settled.concat (h : Settled result past first) (he : failureOf result e = none ∨ first.isSome = true) :
    Settled result (past ++ [e]) first := by
  cases first with
  | none =>
    have hnone : failureOf result e = none := he.resolve_right (by simp)
    rw [Settled,firstFailure_concat,h,hnone]
    rfl
  | some error => exact Announced.concat h

/-- Where the dispatcher is, and what it knows there. -/
def DispatchState.Knows (past : List (DispatchEvent n)) (s : DispatchState n P J)
    (result : Fin n → SlotResult P J) : Prop :=
  match s.pc with
  | .selecting => s.firstError = none ∧ Settled result past none
  | .stopping => ∃ error, s.firstError = some error ∧ Noticed result past error
  | .closing | .draining => Settled result past s.firstError
  | .failing error => s.firstError = none ∧ Noticed result past error
  | .returned outcome => outcome = s.firstError ∧ s.handles = [] ∧ Settled result past s.firstError

variable (result) in
structure Served (past : List (DispatchEvent n)) (s : DispatchState n P J) : Prop where
  joined : ∀ i, i ∉ s.handles → .joined i ∈ past ∧ s.finished i = true
  nodup : s.handles.Nodup
  knows : s.Knows past result

theorem Served.start (sources : Channel Unit) : Served result [] { sources := sources } where
  joined i hi := absurd (List.mem_finRange i) hi
  nodup := List.nodup_finRange n
  knows := ⟨rfl,rfl⟩

theorem Served.joined_join (h : Served result past s) {i : Fin n} (hf : s.finished i = true) :
    ∀ j, j ∉ (s.join i).handles → DispatchEvent.joined j ∈ past ++ [.joined i] ∧ s.finished j = true := by
  intro j hj
  by_cases hji : j = i
  · subst hji
    exact ⟨by simp,hf⟩
  · have hout : j ∉ s.handles := fun hmem => hj ((List.mem_erase_of_ne hji).mpr hmem)
    obtain ⟨hpast,hfin⟩ := h.joined j hout
    exact ⟨List.mem_append_left _ hpast,hfin⟩

theorem Served.joined_of_eq (h : Served result past s) {handles : List (Fin n)} (hh : handles = s.handles) :
    ∀ j, j ∉ handles → DispatchEvent.joined j ∈ past ++ [e] ∧ s.finished j = true := by
  intro j hj
  obtain ⟨hpast,hfin⟩ := h.joined j (hh ▸ hj)
  exact ⟨List.mem_append_left _ hpast,hfin⟩

theorem failureOf_slots (he : e.isSlots = true) : failureOf result e = none := by
  cases e with
  | ended | taken => rfl
  | joined | noHandle | source | sourceEnd | notifyOne | closeSources => cases he

theorem DispatchState.Knows.slots (h : s.Knows past result) (he : e.isSlots = true) : s.Knows (past ++ [e]) result := by
  have hnone : failureOf result e = none := failureOf_slots he
  unfold DispatchState.Knows at h ⊢
  cases hpc : s.pc with
  | selecting =>
    rw [hpc] at h
    exact ⟨h.1,Settled.concat h.2 (.inl hnone)⟩
  | stopping =>
    rw [hpc] at h
    obtain ⟨error,hfirst,hn⟩ := h
    exact ⟨error,hfirst,hn.concat he⟩
  | closing | draining =>
    rw [hpc] at h
    exact Settled.concat h (.inl hnone)
  | failing error =>
    rw [hpc] at h
    exact ⟨h.1,h.2.concat he⟩
  | returned outcome =>
    rw [hpc] at h
    exact ⟨h.1,h.2.1,Settled.concat h.2.2 (.inl hnone)⟩

theorem DispatchState.Knows.settled (h : s.Knows past result) (hpc : s.pc.Waits ∨ s.pc = .closing) :
    Settled result past s.firstError := by
  unfold DispatchState.Knows at h
  rcases hpc with (hpc | hpc) | hpc
  · rw [hpc] at h
    rw [h.1]
    exact h.2
  · rw [hpc] at h
    exact h
  · rw [hpc] at h
    exact h

theorem DispatchState.Knows.firstError (h : s.Knows past result) (hpc : s.pc = .selecting) : s.firstError = none := by
  unfold DispatchState.Knows at h
  rw [hpc] at h
  exact h.1

theorem DispatchState.knows_of_settled (hpc : s.pc.Waits ∨ s.pc = .closing)
    (hfirst : s.pc = .selecting → s.firstError = none) (h : Settled result past s.firstError) :
    s.Knows past result := by
  unfold DispatchState.Knows
  rcases hpc with (hpc | hpc) | hpc
  · rw [hpc]
    rw [hfirst hpc] at h
    exact ⟨hfirst hpc,h⟩
  · rw [hpc]
    exact h
  · rw [hpc]
    exact h

theorem Served.step (h : Served result past s) (hst : Dispatched result s e t) : Served result (past ++ [e]) t := by
  have hknows := h.knows
  cases hst with
  | @ended i ch hf =>
    refine ⟨?_,h.nodup,hknows.slots rfl⟩
    intro j hj
    obtain ⟨hpast,hfin⟩ := h.joined j hj
    refine ⟨List.mem_append_left _ hpast,?_⟩
    by_cases hji : j = i
    · subst hji
      exact Function.update_self ..
    · exact (Function.update_of_ne hji ..).trans hfin
  | taken => exact ⟨h.joined_of_eq rfl,h.nodup,hknows.slots rfl⟩
  | @stopped i pc hpc hi hf hr hnext =>
    refine ⟨h.joined_join hf,h.nodup.erase i,DispatchState.knows_of_settled ?_ ?_ ?_⟩
    · rcases hnext with rfl | rfl
      · exact .inl hpc
      · exact .inr rfl
    · rintro rfl
      rcases hnext with hpc' | hpc'
      · exact hknows.firstError hpc'.symm
      · cases hpc'
    · exact (hknows.settled (.inl hpc)).concat (.inl hr)
  | @failed i error hpc hi hf hr =>
    refine ⟨h.joined_join hf,h.nodup.erase i,error,rfl,past,i,[],rfl,?_,hr,by simp⟩
    have hsettled := hknows.settled (.inl (.inl hpc))
    rwa [hknows.firstError hpc] at hsettled
  | @failedLater i error hpc hi hf hr he =>
    refine ⟨h.joined_join hf,h.nodup.erase i,DispatchState.knows_of_settled (.inl (.inr hpc)) ?_ ?_⟩
    · intro hsel
      exact absurd (hpc.symm.trans hsel) (by simp)
    · exact (hknows.settled (.inl (.inr hpc))).concat (.inr he)
  | @failedFirst i error hpc hi hf hr he =>
    refine ⟨h.joined_join hf,h.nodup.erase i,he,past,i,[],rfl,?_,hr,by simp⟩
    have hsettled := hknows.settled (.inl (.inr hpc))
    rwa [he] at hsettled
  | left hpc he hnext =>
    refine ⟨h.joined_of_eq rfl,h.nodup,DispatchState.knows_of_settled ?_ (fun _ => hknows.firstError hpc) ?_⟩
    · rcases hnext with rfl | rfl
      · exact .inl (.inl rfl)
      · exact .inr rfl
    · refine (hknows.settled (.inl (.inl hpc))).concat (.inl ?_)
      rcases he with rfl | rfl | rfl <;> rfl
  | notified hpc =>
    refine ⟨h.joined_of_eq rfl,h.nodup,?_⟩
    unfold DispatchState.Knows at hknows
    rw [hpc] at hknows
    obtain ⟨error,hfirst,hn⟩ := hknows
    have hsettled : Settled result (past ++ [.notifyOne]) s.firstError := by
      rw [hfirst]
      exact hn.announced
    exact hsettled
  | closed hpc =>
    refine ⟨h.joined_of_eq rfl,h.nodup,?_⟩
    have hsettled : Settled result (past ++ [.closeSources]) s.firstError :=
      (hknows.settled (.inr hpc)).concat (.inl rfl)
    exact hsettled
  | @notifiedLater error hpc =>
    refine ⟨h.joined_of_eq rfl,h.nodup,?_⟩
    unfold DispatchState.Knows at hknows
    rw [hpc] at hknows
    exact hknows.2.announced
  | returned hpc hh =>
    refine ⟨h.joined_of_eq rfl,h.nodup,rfl,hh,?_⟩
    exact (hknows.settled (.inl (.inr hpc))).concat (.inl rfl)

/-- The events that need neither a slot nor a signal. -/
def DispatchEvent.isOwn : DispatchEvent n → Bool
  | .joined _ | .noHandle | .notifyOne | .closeSources => true
  | _ => false

variable (result capacity fanout s) in
def Returns : Prop :=
  ∃ more t outcome, (∀ e ∈ more, DispatchEvent.isOwn e = true) ∧
    exec (dispatchStep result capacity fanout) (fun _ _ => True) s more = some t ∧ t.pc = .returned outcome

theorem Returns.of_step (he : e.isOwn = true) (h : dispatchStep result capacity fanout s e = some t)
    (ht : Returns result capacity fanout t) : Returns result capacity fanout s := by
  obtain ⟨more,u,outcome,hown,hexec,hu⟩ := ht
  refine ⟨e :: more,u,outcome,?_,?_,hu⟩
  · intro a ha
    rcases List.mem_cons.mp ha with rfl | ha
    · exact he
    · exact hown a ha
  · exact (exec_cons trivial h).trans hexec

theorem exists_handle {k : ℕ} (hk : s.handles.length = k + 1) :
    ∃ i rest, s.handles = i :: rest ∧ (s.join i).handles.length = k := by
  obtain ⟨i,rest,hh⟩ := List.exists_cons_of_length_eq_add_one hk
  exact ⟨i,rest,hh,by simpa [DispatchState.join,hh] using hk⟩

section Finished
variable (hfin : ∀ i, s.finished i = true)
include hfin

theorem returns_draining (hpc : s.pc = .draining) :
    Returns result capacity fanout s := by
  induction hk : s.handles.length generalizing s with
  | zero =>
    have hh : s.handles = [] := List.length_eq_zero_iff.mp hk
    refine ⟨[.noHandle],{ s with pc := .returned s.firstError },s.firstError,by simp [DispatchEvent.isOwn],?_,rfl⟩
    simp [exec,dispatchStep,dispatchMove,hpc,hh]
  | succ k ih =>
    obtain ⟨i,rest,hh,hlen⟩ := exists_handle hk
    cases hr : resultError (result i) with
    | none =>
      refine .of_step (t := s.join i) (e := .joined i) rfl ?_ (ih hfin hpc hlen)
      simp [dispatchStep,dispatchMove,hpc,hh,hfin,hr]
    | some error =>
      cases he : s.firstError with
      | some first =>
        refine .of_step (t := s.join i) (e := .joined i) rfl ?_ (ih hfin hpc hlen)
        simp [dispatchStep,dispatchMove,hpc,hh,hfin,hr,he]
      | none =>
        refine .of_step (t := { s.join i with pc := .failing error }) (e := .joined i) rfl ?_ ?_
        · simp [dispatchStep,dispatchMove,hpc,hh,hfin,hr,he]
        · refine .of_step (t := { s.join i with firstError := some error, pc := .draining }) (e := .notifyOne)
            rfl ?_ ?_
          · rfl
          · exact ih hfin rfl hlen

theorem returns_closing (hpc : s.pc = .closing) :
    Returns result capacity fanout s := by
  refine .of_step (t := { s with sources := s.sources.close, pc := .draining }) (e := .closeSources) rfl ?_ ?_
  · simp [dispatchStep,dispatchMove,hpc]
  · exact returns_draining hfin rfl

theorem returns_stopping (hpc : s.pc = .stopping) :
    Returns result capacity fanout s := by
  refine .of_step (t := { s with pc := .closing }) (e := .notifyOne) rfl ?_ ?_
  · simp [dispatchStep,dispatchMove,hpc]
  · exact returns_closing hfin rfl

theorem returns_selecting (hpc : s.pc = .selecting) :
    Returns result capacity fanout s := by
  induction hk : s.handles.length generalizing s with
  | zero =>
    have hh : s.handles = [] := List.length_eq_zero_iff.mp hk
    refine .of_step (t := { s with pc := .closing }) (e := .noHandle) rfl ?_ (returns_closing hfin rfl)
    simp [dispatchStep,dispatchMove,hpc,hh]
  | succ k ih =>
    obtain ⟨i,rest,hh,hlen⟩ := exists_handle hk
    cases hr : resultError (result i) with
    | none =>
      by_cases hlast : (s.join i).handles.isEmpty = true
      · refine .of_step (t := { s.join i with pc := .closing }) (e := .joined i) rfl ?_ (returns_closing hfin rfl)
        simp [dispatchStep,dispatchMove,hpc,hh,hfin,hr,hlast]
      · refine .of_step (t := { s.join i with pc := .selecting }) (e := .joined i) rfl ?_ (ih hfin rfl hlen)
        simp [dispatchStep,dispatchMove,hpc,hh,hfin,hr,hlast]
    | some error =>
      refine .of_step (t := { s.join i with firstError := some error, pc := .stopping }) (e := .joined i) rfl ?_
        (returns_stopping hfin rfl)
      simp [dispatchStep,dispatchMove,hpc,hh,hfin,hr]

theorem returns_of_finished : Returns result capacity fanout s := by
  cases hpc : s.pc with
  | selecting => exact returns_selecting hfin hpc
  | stopping => exact returns_stopping hfin hpc
  | closing => exact returns_closing hfin hpc
  | draining => exact returns_draining hfin hpc
  | failing error =>
    refine .of_step (t := { s with firstError := some error, pc := .draining }) (e := .notifyOne) rfl ?_ ?_
    · simp [dispatchStep,dispatchMove,hpc]
    · exact returns_draining hfin rfl
  | returned outcome => exact ⟨[],s,outcome,by simp,rfl,hpc⟩

end Finished

/-- The call returns only when every slot was joined, with the error of the first failing slot it joined, for
which it called `notify_one` before it awaited anything else. Once all slots have ended it returns. -/
theorem dispatch_waits_for_slots {result : Fin n → SlotResult P J} {capacity fanout : ℕ} {sources : Channel Unit}
    {past : List (DispatchEvent n)} {s : DispatchState n P J}
    (h : exec (dispatchStep result capacity fanout) (fun _ _ => True) { sources := sources } past = some s) :
    (∀ outcome, s.pc = .returned outcome →
      (∀ i, s.finished i = true ∧ .joined i ∈ past) ∧
      (outcome ≠ none ↔ ∃ i, result i ≠ .ok (.ok ())) ∧
      outcome = firstFailure result past ∧
      ∀ error, outcome = some error → Announced result past error) ∧
    (s.pc.Waits → ∀ error, firstFailure result past = some error → Announced result past error) ∧
    ((∀ i, s.finished i = true) → Returns result capacity fanout s) := by
  have hserved : Served result past s :=
    exec_invariant (fun _ _ _ _ hs he => hs.step (dispatched_of_step he)) (Served.start sources) h
  have hknows := hserved.knows
  refine ⟨?_,?_,returns_of_finished⟩
  · intro outcome hpc
    unfold DispatchState.Knows at hknows
    rw [hpc] at hknows
    obtain ⟨rfl,hh,hsettled⟩ := hknows
    have hall : ∀ i, s.finished i = true ∧ .joined i ∈ past := by
      intro i
      obtain ⟨hpast,hfin⟩ := hserved.joined i (by simp [hh])
      exact ⟨hfin,hpast⟩
    refine ⟨hall,?_,hsettled.firstFailure.symm,?_⟩
    · rw [← hsettled.firstFailure,firstFailure,ne_eq,List.findSome?_eq_none_iff]
      constructor
      · intro hsome
        by_contra hnone
        push Not at hnone
        refine hsome fun e _ => ?_
        cases e with
        | joined i => exact resultError_eq_none.mpr (hnone i)
        | ended | taken | noHandle | source | sourceEnd | notifyOne | closeSources => rfl
      · rintro ⟨i,hi⟩ hnone
        exact hi (resultError_eq_none.mp (hnone _ (hall i).2))
    · intro error he
      rw [he] at hsettled
      exact hsettled
  · intro hpc error he
    have hsettled := hknows.settled (.inl hpc)
    rw [← hsettled.firstFailure,he] at hsettled
    exact hsettled

end

section Worker
variable {n : ℕ} {C : Type} {result : Fin n → SlotResult ProcessJobError Unit} {s s' : RunState n C}
  {d : DispatchState n ProcessJobError Unit} {cfg : RunConfig}

def SlotEnd.toResult : SlotEnd → SlotResult ProcessJobError Unit
  | .ok => .ok (.ok ())
  | .failed error => .ok (.error error)
  | .panicked => .error ()

def DispatchError.toRuntime : DispatchError ProcessJobError Unit → WorkerRuntimeError
  | .processJob error => .processJob error
  | .workerTask _ => .workerTask

theorem slotError_eq (r : SlotEnd) : slotError r = (resultError r.toResult).map DispatchError.toRuntime := by
  cases r <;> rfl

/-- The dispatcher of a run of the worker, at the same place. -/
structure Dispatches (result : Fin n → SlotResult ProcessJobError Unit) (s : RunState n C)
    (d : DispatchState n ProcessJobError Unit) : Prop where
  pc : (s.jobs = .dispatching ∧ d.pc = .selecting) ∨ (s.jobs = .draining ∧ d.pc = .draining) ∨
    (s.jobs = .releasing ∧ d.pc = .returned d.firstError)
  firstError : s.firstError = d.firstError.map DispatchError.toRuntime
  handles : d.handles = s.handles
  finished : ∀ i, d.finished i = (s.slots i).isEnded
  results : ∀ i r, s.slots i = .ended r → result i = r.toResult
  sources : d.sources = s.sources

def DispatchEvent.notifies : DispatchEvent n → Bool
  | .notifyOne => true
  | _ => false

theorem Dispatches.joinSlot {error : Option WorkerRuntimeError} {i : Fin n} (h : Dispatches result s d)
    (hj : s.joinSlot i = some (s',error)) : i ∈ s.handles ∧ d.finished i = true ∧
    (resultError (result i)).map DispatchError.toRuntime = error ∧ s' = { s with handles := s.handles.erase i } := by
  simp only [RunState.joinSlot] at hj
  split at hj
  · next hi =>
    obtain ⟨r,hr,he⟩ := Option.map_eq_some_iff.mp hj
    cases he
    have hended : s.slots i = .ended r := by
      cases hs : s.slots i with
      | ended result =>
        rw [hs] at hr
        exact congrArg _ (Option.some.inj hr)
      | unspawned | waiting | fetching | handling | releasing | calling =>
        rw [hs] at hr
        cases hr
    refine ⟨hi,?_,?_,rfl⟩
    · rw [h.finished,hended]
      rfl
    · rw [h.results i r hended,slotError_eq]
  · cases hj

variable (result) in
/-- A step of the job runner, and a run of the dispatcher that calls `notify_one` if and only if
the step requests the shutdown. -/
def Simulated (s s' : RunState n C) (d : DispatchState n ProcessJobError Unit) : Prop :=
  ∃ events d', exec (dispatchStep result (n * 4) n) (fun _ _ => True) d events = some d' ∧ Dispatches result s' d' ∧
    s'.requested = (s.requested || events.any DispatchEvent.notifies)

theorem Dispatches.join (h : Dispatches result s d) (i : Fin n) :
    Dispatches result { s with handles := s.handles.erase i } (d.join i) :=
  ⟨h.pc,h.firstError,congrArg (·.erase i) h.handles,h.finished,h.results,h.sources⟩

theorem Dispatches.simulated {e : DispatchEvent n} {d' : DispatchState n ProcessJobError Unit}
    (h : Dispatches result s' d') (hstep : dispatchStep result (n * 4) n d e = some d')
    (hreq : s'.requested = (s.requested || e.notifies)) : Simulated result s s' d :=
  ⟨[e],d',exec_cons trivial hstep,h,by simp [hreq]⟩

/-- A step that ends the loop also closes the source channel. -/
theorem Dispatches.simulated_stop {e : DispatchEvent n} {d' : DispatchState n ProcessJobError Unit}
    (h : Dispatches result s' d') (hstep : dispatchStep result (n * 4) n d e = some { d' with pc := .closing })
    (hreq : s'.requested = (s.requested || e.notifies)) : Simulated result s s'.stopDispatch d :=
  ⟨[e,.closeSources],{ d' with sources := d'.sources.close, pc := .draining },(exec_cons trivial hstep).trans rfl,
    ⟨.inr (.inl ⟨rfl,rfl⟩),h.firstError,h.handles,h.finished,h.results,congrArg Channel.close h.sources⟩,
    hreq.trans (by simp [DispatchEvent.notifies])⟩

theorem Dispatches.pc_eq (h : Dispatches result s d) : (s.jobs = .dispatching → d.pc = .selecting) ∧
    (s.jobs = .draining → d.pc = .draining) := by
  rcases h.pc with ⟨hj,hp⟩ | ⟨hj,hp⟩ | ⟨hj,hp⟩ <;> simp [hj,hp]

/-- `jobsStep` does in one step what `dispatchMove` does from one await to the next. -/
theorem jobsStep_dispatches {e : JobsEvent n} (h : Dispatches result s d) (hwaits : d.pc.Waits)
    (hstep : jobsStep cfg s s.jobs e = some s') : Simulated result s s' d := by
  have hquiet : s.requested = (s.requested || false) := (Bool.or_false _).symm
  have hsources : ∀ ch, Dispatches result { s with sources := ch } { d with sources := ch } := fun ch =>
    ⟨h.pc,h.firstError,h.handles,h.finished,h.results,rfl⟩
  have hsome : s.firstError.isSome = d.firstError.isSome := by rw [h.firstError,Option.isSome_map]
  generalize hjobs : s.jobs = pc at hstep
  revert hstep
  fun_cases jobsStep cfg s pc e <;> rintro ⟨⟩
  case case1 | case2 | case18 | case20 =>
    rcases h.pc with ⟨hj,-⟩ | ⟨hj,-⟩ | ⟨hj,hpc⟩
    · cases hjobs.symm.trans hj
    · cases hjobs.symm.trans hj
    · rcases hwaits with hw | hw <;> cases hpc.symm.trans hw
  all_goals first | have hpc := h.pc_eq.1 hjobs | have hpc := h.pc_eq.2 hjobs
  case case4 i _ hj hlast | case5 i hj hlast =>
    obtain ⟨hi,hf,he,rfl⟩ := h.joinSlot hj
    have hjoined : dispatchStep result (n * 4) n d (.joined i) =
        some { d.join i with pc := if (s.handles.erase i).isEmpty then .closing else .selecting } := by
      simp [dispatchStep,dispatchMove,hpc,h.handles,hi,hf,Option.map_eq_none_iff.mp he,DispatchState.join]
    first
    | rw [if_pos hlast] at hjoined
      exact (h.join i).simulated_stop hjoined hquiet
    | rw [if_neg hlast,← hpc] at hjoined
      exact (h.join i).simulated hjoined hquiet
  case case6 i _ error hj =>
    obtain ⟨hi,hf,he,rfl⟩ := h.joinSlot hj
    obtain ⟨first,hr,rfl⟩ := Option.map_eq_some_iff.mp he
    have hjoined : dispatchStep result (n * 4) n d (.joined i) =
        some { d.join i with firstError := some first, pc := .stopping } := by
      simp [dispatchStep,dispatchMove,hpc,h.handles,hi,hf,hr]
    exact ⟨[.joined i,.notifyOne,.closeSources],_,(exec_cons trivial hjoined).trans rfl,
      ⟨.inr (.inl ⟨rfl,rfl⟩),rfl,(h.join i).handles,h.finished,h.results,congrArg Channel.close h.sources⟩,
      (Bool.or_true _).symm⟩
  case case7 hh =>
    refine h.simulated_stop (e := .noHandle) ?_ hquiet
    simp [dispatchStep,dispatchMove,hpc,h.handles,hh]
  case case9 ch hch =>
    refine (hsources ch).simulated (e := .source) ?_ hquiet
    simp [dispatchStep,dispatchMove,hpc,h.sources,hch]
  case case10 ch hch =>
    refine (hsources ch).simulated_stop (e := .source) ?_ hquiet
    simp [dispatchStep,dispatchMove,hpc,h.sources,hch]
  case case11 =>
    refine h.simulated_stop (e := .sourceEnd) ?_ hquiet
    simp [dispatchStep,dispatchMove,hpc]
  case case13 i hj =>
    obtain ⟨hi,hf,he,rfl⟩ := h.joinSlot hj
    refine (h.join i).simulated (e := .joined i) ?_ hquiet
    simp [dispatchStep,dispatchMove,hpc,h.handles,hi,hf,Option.map_eq_none_iff.mp he]
  case case14 i error hj hfirst =>
    obtain ⟨hi,hf,he,rfl⟩ := h.joinSlot hj
    obtain ⟨first,hr,rfl⟩ := Option.map_eq_some_iff.mp he
    refine (h.join i).simulated (e := .joined i) ?_ hquiet
    simp [dispatchStep,dispatchMove,hpc,h.handles,hi,hf,hr,← hsome,hfirst]
  case case15 i _ error hj hfirst =>
    obtain ⟨hi,hf,he,rfl⟩ := h.joinSlot hj
    obtain ⟨first,hr,rfl⟩ := Option.map_eq_some_iff.mp he
    have hjoined : dispatchStep result (n * 4) n d (.joined i) = some { d.join i with pc := .failing first } := by
      simp [dispatchStep,dispatchMove,hpc,h.handles,hi,hf,hr,← hsome,hfirst]
    exact ⟨[.joined i,.notifyOne],_,(exec_cons trivial hjoined).trans rfl,
      ⟨.inr (.inl ⟨hjobs,rfl⟩),rfl,(h.join i).handles,h.finished,h.results,h.sources⟩,(Bool.or_true _).symm⟩
  case case16 hh =>
    have hreturned : Dispatches result { s with jobs := .releasing } { d with pc := .returned d.firstError } :=
      ⟨.inr (.inr ⟨rfl,rfl⟩),h.firstError,h.handles,h.finished,h.results,h.sources⟩
    refine hreturned.simulated (e := .noHandle) ?_ hquiet
    simp [dispatchStep,dispatchMove,hpc,h.handles,hh]

end Worker

/-- Slot `i` takes a signal and fails with it; the stream ends while `j` is still running, and the
dispatcher sees the failure after that. -/
def lateFailure {n : ℕ} (i j : Fin n) : List (DispatchEvent n) :=
  [.source,.taken,.sourceEnd,.ended i,.closeSources,.joined i,.ended j,.notifyOne,.joined j,.noHandle]

def failsIn {n : ℕ} (i : Fin n) (j : Fin n) : SlotResult String String :=
  if j = i then .ok (.error "claim") else .ok (.ok ())

theorem late_failure_announced :
    ∃ s, exec (dispatchStep (failsIn 0) 8 2) (fun _ _ => True) ({ sources := {} } : DispatchState 2 String String)
        (lateFailure 0 1) = some s ∧
      s.pc = .returned (some (.processJob "claim")) ∧ (∀ i, s.finished i = true) ∧
      Announced (failsIn 0) (lateFailure 0 1 : List (DispatchEvent 2)) (.processJob "claim") := by
  have hrun : (exec (dispatchStep (failsIn 0) 8 2) (fun _ _ => True)
      ({ sources := {} } : DispatchState 2 String String) (lateFailure 0 1)).map DispatchState.pc =
      some (.returned (some (.processJob "claim"))) := by decide
  obtain ⟨s,hs,hpc⟩ := Option.map_eq_some_iff.mp hrun
  obtain ⟨hall,-,-,hannounced⟩ := (dispatch_waits_for_slots hs).1 _ hpc
  exact ⟨s,hs,hpc,fun i => (hall i).1,hannounced _ rfl⟩

end GraphileWorker.Lifecycle
