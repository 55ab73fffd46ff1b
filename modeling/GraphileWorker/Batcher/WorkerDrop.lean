import GraphileWorker.Batcher.Batchers

/-! # Dropping a worker after `run_once`

`Worker::drop` gives the shutdown signal; then the last sender of each batcher goes and its
task is aborted. An abort takes effect when the task is polled next.
-/
namespace GraphileWorker.Batcher
open Foundation

section
variable {C : Type} [DecidableEq C] (hasQueue : C → Bool) (hasHooks : Bool)

structure OnceWorker (C : Type) where
  batchers : Batchers C
  /-- The outcomes that slots of `run_once` are reporting. -/
  inFlight : List (Side × C) := []
  returned : Bool := false
  notified : Bool := false
  released : Side → Bool := fun _ => false

inductive OnceAction (C : Type)
  | report (side : Side) (c : C)
  | send (side : Side) (c : C)
  | persist (side : Side) (c : C) (ok : Bool)
  | task (side : Side) (e : TaskEvent)
  | shutdown
  | returnOnce
  | drop
  | release (side : Side)
  /-- The abort that the task slot requested takes effect. -/
  | abort (side : Side)

def CallPc.done : CallPc → Bool
  | .accepted | .persisted _ => true
  | _ => false

def OnceWorker.settle (w : OnceWorker C) (bs : Batchers C) (side : Side) (c : C) : OnceWorker C :=
  { w with
    batchers := bs
    inFlight := if (bs side).any fun b => (b.call c).done then w.inFlight.erase (side,c) else w.inFlight }

def onceStep (w : OnceWorker C) : OnceAction C → Option (OnceWorker C)
  | .report side c =>
    if w.returned then none
    else (w.batchers.step hasQueue hasHooks side (.call c)).map fun bs =>
      { w with batchers := bs, inFlight := w.inFlight ++ [(side,c)] }
  | .send side c => (w.batchers.step hasQueue hasHooks side (.send c)).map fun bs => w.settle bs side c
  | .persist side c ok => (w.batchers.step hasQueue hasHooks side (.persist c ok)).map fun bs => w.settle bs side c
  | .task side e => (w.batchers.step hasQueue hasHooks side (.task e)).map fun bs => { w with batchers := bs }
  | .shutdown => some { w with batchers := w.batchers.signal }
  | .returnOnce => if w.inFlight.isEmpty then some { w with returned := true } else none
  | .drop =>
    if w.returned && !w.notified then some { w with notified := true, batchers := w.batchers.signal } else none
  | .release side =>
    if w.notified && !w.released side then
      (w.batchers.step hasQueue hasHooks side .close).map fun bs =>
        { w with batchers := bs, released := Function.update w.released side true }
    else none
  | .abort side =>
    if w.released side then
      (w.batchers.step hasQueue hasHooks side .abort).map fun bs => { w with batchers := bs }
    else none

end

section
variable {C : Type} {b b' : BatcherState C}

def AtRest (b : BatcherState C) : Prop := b.channel.items = [] ∧ b.pending = [] ∧ b.running.flatten = []

theorem Balanced.finished_initial (h : Balanced b) : b.finished.flatten <+: b.accepted := by
  rw [h.accepted,h.flushes,List.flatten_append,List.append_assoc,List.append_assoc]
  exact List.prefix_append ..

theorem Balanced.atRest_iff (h : Balanced b) : AtRest b ↔ b.finished.flatten = b.accepted := by
  rw [h.accepted,h.flushes,List.flatten_append]
  constructor
  · rintro ⟨hi,hp,hr⟩
    rw [hi,hp,hr]
    simp
  · intro he
    simp only [List.append_assoc] at he
    have hnil := List.self_eq_append_right.mp he
    simp only [List.append_eq_nil_iff] at hnil
    exact ⟨hnil.2.2,hnil.2.1,hnil.1⟩

variable [DecidableEq C] {a : BatcherAction C}

theorem BatcherMove.ledgers (hm : BatcherMove b a b') : b.finished <+: b'.finished ∧ b.accepted <+: b'.accepted ∧
    ((∀ c, b.call c ≠ .sending) → b'.accepted = b.accepted) := by
  cases hm with
  | accept hc => exact ⟨List.prefix_rfl,List.prefix_append ..,fun hn => absurd hc (hn _)⟩
  | call | reject | persist | signal | close | abort => exact ⟨List.prefix_rfl,List.prefix_rfl,fun _ => rfl⟩
  | task hm =>
    cases hm with
    | drain | receive | flush => exact ⟨List.prefix_rfl,List.prefix_rfl,fun _ => rfl⟩
    | again | finish => exact ⟨List.prefix_append ..,List.prefix_rfl,fun _ => rfl⟩

theorem BatcherMove.finished_all (hm : BatcherMove b a b') (h : Balanced b) (hn : ∀ c, b.call c ≠ .sending)
    (hall : b.finished.flatten = b.accepted) : b'.finished.flatten = b'.accepted := by
  obtain ⟨⟨more,hmore⟩,-,hacc⟩ := hm.ledgers
  have hle := (hm.balanced h).finished_initial.length_le
  rw [hacc hn,← hmore,List.flatten_append,hall] at hle ⊢
  have hnil : more.flatten = [] := by
    rw [← List.length_eq_zero_iff]
    rw [List.length_append] at hle
    omega
  rw [hnil,List.append_nil]

theorem BatcherMove.aborted {inFlush : Bool} (hm : BatcherMove b a b') (ht : b.task = .aborted inFlush) :
    b'.task = .aborted inFlush ∧ b'.finished = b.finished := by
  obtain ⟨htask,hfin⟩ := hm.ended (by rw [ht]; rfl)
  exact ⟨htask.trans ht,hfin⟩

def CallPc.Pending (pc : CallPc) : Prop := pc = .sending ∨ pc = .rejected

def BatcherAction.caller : BatcherAction C → Option C
  | .call c | .send c | .persist c _ => some c
  | _ => none

theorem BatcherMove.call_of_ne (hm : BatcherMove b a b') {d : C} (hd : a.caller ≠ some d) : b'.call d = b.call d := by
  cases hm with
  | call | accept | reject | persist =>
    refine Function.update_of_ne ?_ ..
    rintro rfl
    exact hd rfl
  | signal | close | abort => rfl
  | task hm => cases hm <;> rfl

end

section
variable {C : Type} [DecidableEq C] {hasQueue : C → Bool} {hasHooks : Bool} {bs bs' : Batchers C} {side : Side}
  {w w' : OnceWorker C} {x : OnceAction C} {b b' : BatcherState C} {l : List (Side × C)} {a : BatcherAction C}

inductive OnceMove (w : OnceWorker C) : OnceAction C → OnceWorker C → Prop
  | report {side : Side} {c : C} {b b' : BatcherState C} : w.returned = false → w.batchers side = some b →
      BatcherMove b (.call c) b' → OnceMove w (.report side c) { w with
        batchers := Function.update w.batchers side (some b')
        inFlight := w.inFlight ++ [(side,c)] }
  | send {side : Side} {c : C} {b b' : BatcherState C} : w.batchers side = some b → BatcherMove b (.send c) b' →
      OnceMove w (.send side c) (w.settle (Function.update w.batchers side (some b')) side c)
  | persist {side : Side} {c : C} {ok : Bool} {b b' : BatcherState C} : w.batchers side = some b →
      BatcherMove b (.persist c ok) b' →
      OnceMove w (.persist side c ok) (w.settle (Function.update w.batchers side (some b')) side c)
  | task {side : Side} {e : TaskEvent} {b b' : BatcherState C} : w.batchers side = some b →
      BatcherMove b (.task e) b' →
      OnceMove w (.task side e) { w with batchers := Function.update w.batchers side (some b') }
  | shutdown : OnceMove w .shutdown { w with batchers := w.batchers.signal }
  | returnOnce : w.inFlight = [] → OnceMove w .returnOnce { w with returned := true }
  | drop : w.returned = true → OnceMove w .drop { w with notified := true, batchers := w.batchers.signal }
  | release {side : Side} {b b' : BatcherState C} : w.notified = true → w.batchers side = some b →
      BatcherMove b .close b' → OnceMove w (.release side) { w with
        batchers := Function.update w.batchers side (some b')
        released := Function.update w.released side true }
  | abort {side : Side} {b b' : BatcherState C} : w.released side = true → w.batchers side = some b →
      BatcherMove b .abort b' →
      OnceMove w (.abort side) { w with batchers := Function.update w.batchers side (some b') }

theorem onceStep_move : onceStep hasQueue hasHooks w x = some w' → OnceMove w x w' := by
  fun_cases onceStep hasQueue hasHooks w x <;> intro hs <;> try cases hs
  case case6 => exact .shutdown
  case case7 he => exact .returnOnce (List.isEmpty_iff.mp he)
  case case9 hr => exact .drop (Bool.and_eq_true .. ▸ hr).1
  -- the others are a step of one batcher
  all_goals
    obtain ⟨bs',hstep,rfl⟩ := Option.map_eq_some_iff.mp hs
    obtain ⟨b,b',hb,hm,rfl⟩ := Batchers.step_move hstep
  case case2 hr => exact .report (by simpa using hr) hb hm
  case case3 => exact .send hb hm
  case case4 => exact .persist hb hm
  case case5 => exact .task hb hm
  case case11 hr => exact .release (Bool.and_eq_true .. ▸ hr).1 hb hm
  case case13 hr => exact .abort hr hb hm

/-- What a step does to a batcher of the worker is at most one step of that batcher. -/
theorem OnceMove.moved (hm : OnceMove w x w') (side : Side) :
    Option.Rel (Moved fun _ => True) (w.batchers side) (w'.batchers side) := by
  cases hm with
  | report hr hb hm => exact moved_update hb trivial hm side
  | send hb hm | persist hb hm | task hb hm | release hn hb hm | abort hr hb hm => exact moved_update hb trivial hm side
  | shutdown | drop => exact moved_signal trivial side
  | returnOnce => exact moved_refl side

theorem OnceMove.before (hm : OnceMove w x w')
    (hb' : w'.batchers side = some b') : ∃ b, w.batchers side = some b ∧ Moved (fun _ => True) b b' :=
  exists_of_rel_some (hb' ▸ hm.moved side)

theorem OnceMove.after (hm : OnceMove w x w')
    (hb : w.batchers side = some b) : ∃ b', w'.batchers side = some b' ∧ Moved (fun _ => True) b b' := by
  have hrel := hm.moved side
  rw [hb] at hrel
  generalize w'.batchers side = o at hrel
  cases hrel with
  | some h => exact ⟨_,rfl,h⟩

def InFlight (bs : Batchers C) (inFlight : List (Side × C)) : Prop :=
  ∀ side b c, bs side = some b → (b.call c).Pending → (side,c) ∈ inFlight

/-- `run_once` waits for every call, and the worker is dropped only after it. -/
structure Awaited (w : OnceWorker C) : Prop where
  inFlight : InFlight w.batchers w.inFlight
  returned : w.returned = true → w.inFlight = []
  notified : w.notified = true → w.returned = true
  released : ∀ side, w.released side = true → w.notified = true

omit [DecidableEq C] in
theorem InFlight.signal (h : InFlight bs l) : InFlight bs.signal l := by
  intro side b c hb hp
  obtain ⟨b₀,hb₀,rfl⟩ := Option.map_eq_some_iff.mp hb
  exact h side b₀ c hb₀ hp

theorem InFlight.update {l' : List (Side × C)} (h : InFlight bs l)
    (hb : bs side = some b) (hm : BatcherMove b a b') (hl : ∀ p ∈ l, a.caller ≠ some p.2 ∨ p.1 ≠ side → p ∈ l')
    (hc : ∀ c, a.caller = some c → (b'.call c).Pending → (side,c) ∈ l') :
    InFlight (Function.update bs side (some b')) l' := by
  intro other x c hx hp
  by_cases he : other = side
  · subst he
    rw [Function.update_self] at hx
    cases hx
    by_cases hcall : a.caller = some c
    · exact hc c hcall hp
    · rw [hm.call_of_ne hcall] at hp
      exact hl _ (h other b c hb hp) (.inl hcall)
  · rw [Function.update_of_ne he] at hx
    exact hl _ (h other x c hx hp) (.inr he)

theorem InFlight.update_task (h : InFlight bs l)
    (hb : bs side = some b) (hm : BatcherMove b a b') (ha : a.caller = none) :
    InFlight (Function.update bs side (some b')) l :=
  h.update hb hm (fun _ hp _ => hp) fun c hc => by cases ha.symm.trans hc

theorem Awaited.settle {c : C} (h : Awaited w)
    (hb : w.batchers side = some b) (hm : BatcherMove b a b') (ha : a.caller = some c)
    (hp : (b'.call c).Pending → (b.call c).Pending) :
    Awaited (w.settle (Function.update w.batchers side (some b')) side c) := by
  have hdone : (b'.call c).done = true → ¬ (b'.call c).Pending := by
    rintro hd (hpend | hpend) <;> (rw [hpend] at hd; cases hd)
  have hlist : (w.settle (Function.update w.batchers side (some b')) side c).inFlight =
      if (b'.call c).done then w.inFlight.erase (side,c) else w.inFlight := by
    rw [OnceWorker.settle,Function.update_self,Option.any_some]
  refine ⟨h.inFlight.update hb hm (fun p hmem hne => ?_) fun d hd hpend => ?_,fun hr => ?_,h.notified,h.released⟩
  · rw [hlist]
    split
    · refine (List.mem_erase_of_ne ?_).mpr hmem
      rintro rfl
      exact hne.elim (fun hn => hn ha) fun hn => hn rfl
    · exact hmem
  · cases ha.symm.trans hd
    rw [hlist,if_neg fun hd => hdone hd hpend]
    exact h.inFlight side b c hb (hp hpend)
  · rw [hlist,h.returned hr]
    split <;> rfl

theorem OnceMove.awaited (hm : OnceMove w x w') (h : Awaited w) : Awaited w' := by
  cases hm with
  | report hr hb hm =>
    refine ⟨h.inFlight.update hb hm (fun p hp _ => List.mem_append_left _ hp) fun d hd _ => ?_,
      fun hret => absurd hret (by simp [hr]),h.notified,h.released⟩
    cases hd
    exact List.mem_append_right _ (List.mem_singleton_self _)
  | send hb hm =>
    refine h.settle hb hm rfl fun _ => ?_
    cases hm with
    | accept hc | reject hc => exact .inl hc
  | persist hb hm =>
    refine h.settle hb hm rfl fun _ => ?_
    cases hm with
    | persist woken observed hc => exact .inr hc
  | task hb hm => exact ⟨h.inFlight.update_task hb hm rfl,h.returned,h.notified,h.released⟩
  | shutdown => exact ⟨h.inFlight.signal,h.returned,h.notified,h.released⟩
  | returnOnce he => exact ⟨h.inFlight,fun _ => he,fun _ => rfl,h.released⟩
  | drop hr => exact ⟨h.inFlight.signal,h.returned,fun _ => hr,fun _ _ => rfl⟩
  | release hn hb hm => exact ⟨h.inFlight.update_task hb hm rfl,h.returned,h.notified,fun _ _ => hn⟩
  | abort hr hb hm => exact ⟨h.inFlight.update_task hb hm rfl,h.returned,h.notified,h.released⟩

theorem OnceMove.released (hm : OnceMove w x w') (hr : w'.released side = true) :
    w.released side = true ∨ x = .release side ∧ w.notified = true := by
  cases hm with
  | report | send | persist | task | shutdown | returnOnce | drop | abort => exact .inl hr
  | @release other _ _ hn =>
    by_cases he : side = other
    · subst he
      exact .inr ⟨rfl,hn⟩
    · simp only [Function.update_of_ne he] at hr
      exact .inl hr

/-- The worker lets go of a batcher only when the batcher is at rest. -/
def RestAtRelease (w : OnceWorker C) : OnceAction C → Prop
  | .release side => ∀ b ∈ w.batchers side, AtRest b
  | _ => True

instance (b : BatcherState C) : Decidable (AtRest b) :=
  inferInstanceAs (Decidable (b.channel.items = [] ∧ b.pending = [] ∧ b.running.flatten = []))

instance (w : OnceWorker C) (x : OnceAction C) : Decidable (RestAtRelease w x) := by
  cases x <;> unfold RestAtRelease <;> infer_instance

/-- All accounts are in order, and a batcher that was let go has flushed everything. -/
structure DropSafe (w : OnceWorker C) : Prop where
  awaited : Awaited w
  balanced : ∀ side b, w.batchers side = some b → Balanced b ∧ Answered b
  released : ∀ side b, w.batchers side = some b → w.released side = true → b.finished.flatten = b.accepted

theorem OnceMove.balanced (hm : OnceMove w x w')
    (h : ∀ side b, w.batchers side = some b → Balanced b ∧ Answered b) (side : Side) (b' : BatcherState C)
    (hb' : w'.batchers side = some b') : Balanced b' ∧ Answered b' := by
  obtain ⟨b,hb,rfl | ⟨a,-,hm⟩⟩ := hm.before hb'
  · exact h side b' hb
  · exact ⟨hm.balanced (h side b hb).1,hm.answered (h side b hb).2⟩

omit [DecidableEq C] in
theorem Awaited.not_sending (h : Awaited w) (hr : w.returned = true)
    (hb : w.batchers side = some b) (c : C) : b.call c ≠ .sending := by
  intro hc
  have hmem := h.inFlight side b c hb (.inl hc)
  rw [h.returned hr] at hmem
  cases hmem

theorem DropSafe.step (h : DropSafe w) (hx : RestAtRelease w x)
    (hs : onceStep hasQueue hasHooks w x = some w') : DropSafe w' := by
  have hm := onceStep_move hs
  refine ⟨hm.awaited h.awaited,hm.balanced h.balanced,fun side b' hb' hrel => ?_⟩
  obtain ⟨b,hb,hmove⟩ := hm.before hb'
  have hacc := (h.balanced side b hb).1
  -- the batcher had flushed everything before the step, and it gets no new request
  have hbefore : b.finished.flatten = b.accepted ∧ w.returned = true := by
    obtain hold | ⟨rfl,hn⟩ := hm.released hrel
    · exact ⟨h.released side b hb hold,h.awaited.notified (h.awaited.released side hold)⟩
    · exact ⟨hacc.atRest_iff.mp (hx b hb),h.awaited.notified hn⟩
  obtain rfl | ⟨a,-,hm⟩ := hmove
  · exact hbefore.1
  · exact hm.finished_all hacc (h.awaited.not_sending hbefore.2 hb) hbefore.1

/-- The task of the batcher was aborted before a flush with this accepted request had finished. -/
def Lost (side : Side) (c : C) (w : OnceWorker C) : Prop :=
  ∃ b inFlush, w.batchers side = some b ∧ b.task = .aborted inFlush ∧ c ∈ b.accepted ∧ c ∉ b.finished.flatten

theorem Lost.forever {ok : OnceWorker C → OnceAction C → Prop} {c : C} (h : Lost side c w)
    (hr : Reaches (onceStep hasQueue hasHooks) ok w w') : Lost side c w' := by
  refine hr.invariant ?_ h
  rintro v x v' - hs ⟨b,inFlush,hb,ht,hc,hlost⟩
  obtain ⟨b',hb',rfl | ⟨a,-,hm⟩⟩ := (onceStep_move hs).after hb
  · exact ⟨b',inFlush,hb',ht,hc,hlost⟩
  · obtain ⟨ht',hfin⟩ := hm.aborted ht
    rw [← hfin] at hlost
    exact ⟨b',inFlush,hb',ht',hm.ledgers.2.1.subset hc,hlost⟩

omit [DecidableEq C] in
theorem exists_unflushed (ha : Balanced b) (hc : Answered b) (h : ¬ AtRest b) :
    ∃ c ∈ b.accepted, c ∉ b.finished.flatten := by
  obtain ⟨rest,hrest⟩ := ha.finished_initial
  cases rest with
  | nil => exact absurd (ha.atRest_iff.mpr (by simpa using hrest)) h
  | cons c rest =>
    refine ⟨c,by simp [← hrest],fun hmem => ?_⟩
    have hnodup := hc.nodup
    rw [← hrest,List.nodup_append] at hnodup
    exact hnodup.2.2 c hmem c List.mem_cons_self rfl

theorem release_loses (ha : Balanced b) (hc : Answered b) (hn : w.notified = true)
    (hrel : w.released side = false) (hb : w.batchers side = some b) (hend : b.task.ended = false) (h : ¬ AtRest b) :
    ∃ u c, Reaches (onceStep hasQueue hasHooks) (fun _ _ => True) w u ∧ Lost side c u := by
  obtain ⟨c,hacc,hlost⟩ := exists_unflushed ha hc h
  let closed : BatcherState C := { b with channel := b.channel.close }
  let aborted : BatcherState C := { b with channel := closed.channel.close, task := .aborted b.task.inFlush }
  let left : OnceWorker C := { w with
    batchers := Function.update w.batchers side (some closed)
    released := Function.update w.released side true }
  have h1 : onceStep hasQueue hasHooks w (.release side) = some left := by
    simp [onceStep,hn,hrel,Batchers.step,hb,batcherStep,left,closed]
  have h2 : onceStep hasQueue hasHooks left (.abort side) =
      some { left with batchers := Function.update w.batchers side (some aborted) } := by
    simp [onceStep,left,Batchers.step,batcherStep,closed,hend,aborted]
  exact ⟨_,c,(Reaches.refl.step trivial h1).step trivial h2,aborted,b.task.inFlush,by simp,rfl,hacc,hlost⟩

def OnceWorker.start (completion failure : Bool) : OnceWorker C := { batchers := Batchers.start completion failure }

omit [DecidableEq C] in
theorem start_batcher {completion failure : Bool}
    (hb : (OnceWorker.start completion failure).batchers side = some b) : b = {} := by
  cases side with
  | completion | failure =>
    simp only [OnceWorker.start,Batchers.start] at hb
    split at hb
    · exact (Option.some.inj hb).symm
    · cases hb

omit [DecidableEq C] in
theorem dropSafe_start (completion failure : Bool) : DropSafe (OnceWorker.start completion failure : OnceWorker C) where
  awaited := by
    refine ⟨fun side b c hb hp => ?_,fun _ => rfl,fun h => (by cases h),fun _ h => (by cases h)⟩
    rw [start_batcher hb] at hp
    obtain hp | hp := hp <;> cases hp
  balanced side b hb := by
    rw [start_batcher hb]
    exact ⟨balanced_init,answered_init⟩
  released side b hb h := by cases h

/-- A worker that lets go of its batchers at rest loses nothing; otherwise a request can be lost for
good. -/
theorem drop_at_rest_loses_nothing (completion failure : Bool) {w : OnceWorker C} :
    (Reaches (onceStep hasQueue hasHooks) RestAtRelease (.start completion failure) w →
      ∀ side b, w.batchers side = some b → w.released side = true →
        ∀ c, b.call c = .accepted → b.finished.flatten.count c = 1) ∧
    (Reaches (onceStep hasQueue hasHooks) (fun _ _ => True) (.start completion failure) w →
      ∀ side b, w.batchers side = some b → w.notified = true → w.released side = false → b.task.ended = false →
        ¬ AtRest b → ∃ u c, Reaches (onceStep hasQueue hasHooks) (fun _ _ => True) w u ∧
          ∀ v, Reaches (onceStep hasQueue hasHooks) (fun _ _ => True) u v → Lost side c v) := by
  constructor
  · intro h side b hb hrel c hc
    have hsafe := h.invariant (fun _ _ _ hx hs hi => hi.step hx hs) (dropSafe_start completion failure)
    have hans := (hsafe.balanced side b hb).2
    rw [hsafe.released side b hb hrel]
    exact List.count_eq_one_of_mem hans.nodup ((hans.call c).mp hc)
  · intro h side b hb hn hrel hend hrest
    have hacc := h.invariant (fun _ _ _ _ hs => (onceStep_move hs).balanced)
      (dropSafe_start completion failure).balanced
    obtain ⟨u,c,hu,hlost⟩ := release_loses (hacc side b hb).1 (hacc side b hb).2 hn hrel hb hend hrest
    exact ⟨u,c,hu,fun v hv => hlost.forever hv⟩

end

def dropAfterFlush : List (OnceAction (Fin 1)) :=
  [.report .completion 0,.send .completion 0,.task .completion .recv,.task .completion .timeout,
    .task .completion .flushed,.returnOnce,.drop,.release .completion,.abort .completion]

theorem drop_after_flush :
    ∃ w, Reaches (onceStep (fun _ => false) false) RestAtRelease (.start true false : OnceWorker (Fin 1)) w ∧
      ∃ b, w.batchers .completion = some b ∧ b.task = .aborted false ∧ b.finished.flatten.count 0 = 1 := by
  have hrun : (exec (onceStep (fun _ => false) false) RestAtRelease (.start true false) dropAfterFlush).map
      (fun w => (w.released .completion,(w.batchers .completion).map fun b => (b.task,b.call 0))) =
        some (true,some (.aborted false,.accepted)) := by decide +kernel
  obtain ⟨w,hw,hval⟩ := Option.map_eq_some_iff.mp hrun
  rw [Prod.mk.injEq] at hval
  obtain ⟨hrel,hb⟩ := hval
  obtain ⟨b,hb,hval⟩ := Option.map_eq_some_iff.mp hb
  rw [Prod.mk.injEq] at hval
  have hreach := reaches_exec hw
  exact ⟨w,hreach,b,hb,hval.1,(drop_at_rest_loses_nothing true false).1 hreach .completion b hb hrel 0 hval.2⟩

def dropWithinDelay : List (OnceAction (Fin 1)) :=
  [.report .completion 0,.send .completion 0,.returnOnce,.drop,.release .completion,.abort .completion]

theorem drop_within_delay_loses_outcome :
    ∃ w, Reaches (onceStep (fun _ => false) false) (fun _ _ => True) (.start true false : OnceWorker (Fin 1)) w ∧
      w.returned = true ∧
      ∀ v, Reaches (onceStep (fun _ => false) false) (fun _ _ => True) w v → Lost .completion 0 v := by
  have hrun : (exec (onceStep (fun _ => false) false) (fun _ _ => True) (.start true false) dropWithinDelay).map
      (fun w => (w.returned,(w.batchers .completion).map fun b => (b.task,b.accepted,b.finished.flatten))) =
        some (true,some (.aborted false,[0],[])) := by decide +kernel
  obtain ⟨w,hw,hval⟩ := Option.map_eq_some_iff.mp hrun
  rw [Prod.mk.injEq] at hval
  obtain ⟨b,hb,hval'⟩ := Option.map_eq_some_iff.mp hval.2
  simp only [Prod.mk.injEq] at hval'
  obtain ⟨htask,hacc,hfin⟩ := hval'
  have hlost : Lost .completion 0 w := ⟨b,false,hb,htask,by simp [hacc],by simp [hfin]⟩
  exact ⟨w,reaches_exec hw,hval.1,fun v hv => hlost.forever hv⟩

end GraphileWorker.Batcher
