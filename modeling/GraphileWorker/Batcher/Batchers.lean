import GraphileWorker.Batcher.Task

/-! # The two batchers of a worker

A worker has either batcher, both or none; they share the shutdown signal only.
-/
namespace GraphileWorker.Batcher
open Foundation

inductive Side
  | completion
  | failure
  deriving DecidableEq

def batcherChannelCapacity : ℕ := 4096

abbrev Batchers (C : Type) := Side → Option (BatcherState C)

section
variable {C : Type}

def Batchers.start (completion failure : Bool) : Batchers C
  | .completion => if completion then some {} else none
  | .failure => if failure then some {} else none

def Batchers.signal (bs : Batchers C) : Batchers C := fun side => (bs side).map fun b => { b with shutdown := true }

variable [DecidableEq C] (hasQueue : C → Bool) (hasHooks : Bool)

def Batchers.step (bs : Batchers C) (side : Side) (a : BatcherAction C) : Option (Batchers C) := do
  let b ← bs side
  let b' ← batcherStep batcherChannelCapacity hasQueue hasHooks b a
  some (Function.update bs side (some b'))

end

section
variable {C : Type} [DecidableEq C] {hasQueue : C → Bool} {hasHooks : Bool} {bs bs' : Batchers C} {side : Side}
  {P : BatcherAction C → Prop} {a : BatcherAction C}

theorem Batchers.step_move (hs : bs.step hasQueue hasHooks side a = some bs') :
    ∃ b b', bs side = some b ∧ BatcherMove b a b' ∧ bs' = Function.update bs side (some b') := by
  simp only [Batchers.step,Option.bind_eq_bind,Option.bind_eq_some_iff] at hs
  obtain ⟨b,hb,b',hb',he⟩ := hs
  cases he
  exact ⟨b,b',hb,batcherStep_move hb',rfl⟩

theorem exists_of_rel_some {α β : Type*} {r : α → β → Prop} {o : Option α} {y : β} (h : Option.Rel r o (some y)) :
    ∃ x, o = some x ∧ r x y := by
  cases h with
  | some h => exact ⟨_,rfl,h⟩

def Moved (P : BatcherAction C → Prop) (b b' : BatcherState C) : Prop := b' = b ∨ ∃ a, P a ∧ BatcherMove b a b'

theorem moved_refl (side : Side) : Option.Rel (Moved P) (bs side) (bs side) := by
  cases bs side with
  | none => exact .none
  | some x => exact .some (.inl rfl)

theorem moved_update {b b' : BatcherState C} {other : Side} (hb : bs other = some b) (ha : P a)
    (hm : BatcherMove b a b') (side : Side) :
    Option.Rel (Moved P) (bs side) (Function.update bs other (some b') side) := by
  by_cases he : side = other
  · subst he
    rw [Function.update_self,hb]
    exact .some (.inr ⟨a,ha,hm⟩)
  · rw [Function.update_of_ne he]
    exact moved_refl side

theorem moved_signal (ha : P .signal) (side : Side) : Option.Rel (Moved P) (bs side) (bs.signal side) := by
  unfold Batchers.signal
  cases bs side with
  | none => exact .none
  | some x => exact .some (.inr ⟨.signal,ha,.signal⟩)

end

section
variable {C : Type} {b b' : BatcherState C} {bs bs' : Batchers C} {held : Side → Bool} {side : Side}
  {hasQueue : C → Bool} {hasHooks : Bool}

/-- The accounts of the batcher are in order, and its task ends only by returning. -/
structure Sound (b : BatcherState C) : Prop where
  balanced : Balanced b
  answered : Answered b
  unaborted : ∀ inFlush, b.task ≠ .aborted inFlush

theorem Sound.returned_of_ended (h : Sound b) (he : b.task.ended = true) : b.task = .returned := by
  cases ht : b.task with
  | returned => rfl
  | aborted inFlush => exact absurd ht (h.unaborted inFlush)
  | receiving | collecting | draining | flushing =>
    rw [ht] at he
    cases he

theorem Sound.flushed [DecidableEq C] (h : Sound b) (ht : b.task = .returned) {c : C} (hc : b.call c = .accepted) :
    b.finished.flatten.count c = 1 := by
  obtain ⟨hflat,hfin,-⟩ := h.balanced.of_returned ht
  rw [hfin,hflat]
  exact List.count_eq_one_of_mem h.answered.nodup ((h.answered.call c).mp hc)

def Returned (bs : Batchers C) (side : Side) : Prop := ∀ b, bs side = some b → b.task = .returned

/-- A task slot is empty only after its task has returned. -/
def BatchersOk (bs : Batchers C) (held : Side → Bool) : Prop :=
  ∀ side b, bs side = some b → Sound b ∧ (held side = false → b.task = .returned)

variable [DecidableEq C] {a : BatcherAction C}

theorem BatcherMove.ended (hm : BatcherMove b a b') (he : b.task.ended = true) :
    b'.task = b.task ∧ b'.finished = b.finished := by
  cases hm with
  | call | accept | reject | persist | signal | close => exact ⟨rfl,rfl⟩
  | task hm =>
    cases hm with
    | drain hh | receive hh | flush last hh => obtain hh | hh | hh := hh <;> (rw [hh] at he; cases he)
    | again hh | finish hh =>
      rw [hh] at he
      cases he
  | abort hend => cases hend.symm.trans he

theorem BatcherMove.returned (hm : BatcherMove b a b') (ht : b.task = .returned) : b'.task = .returned :=
  (hm.ended (by rw [ht]; rfl)).1.trans ht

theorem Sound.move (h : Sound b) (ha : a ≠ .abort) (hm : BatcherMove b a b') : Sound b' := by
  refine ⟨hm.balanced h.balanced,hm.answered h.answered,fun inFlush => ?_⟩
  cases hm with
  | call | accept | reject | persist | signal | close => exact h.unaborted inFlush
  | abort => exact absurd rfl ha
  | task hm =>
    cases hm with
    | drain | flush | again | finish => exact nofun
    | receive hh hr hpc => obtain rfl | ⟨rfl,-⟩ := hpc <;> exact nofun

theorem sound_of_reaches {capacity : ℕ}
    (h : Reaches (batcherStep capacity hasQueue hasHooks) (fun _ a => a ≠ .abort) {} b) : Sound b :=
  h.invariant (fun _ _ _ ha hs hi => hi.move ha (batcherStep_move hs))
    ⟨balanced_init,answered_init,nofun⟩

def Kept (bs bs' : Batchers C) : Prop := ∀ side, Option.Rel (Moved (· ≠ .abort)) (bs side) (bs' side)

theorem Kept.before (h : Kept bs bs') (hb' : bs' side = some b') :
    ∃ b, bs side = some b ∧ Moved (· ≠ .abort) b b' := exists_of_rel_some (hb' ▸ h side)

theorem Kept.refl : Kept bs bs := fun side => moved_refl side

theorem kept_of_step (ha : a ≠ .abort) (hs : bs.step hasQueue hasHooks side a = some bs') : Kept bs bs' := by
  obtain ⟨b,b',hb,hm,rfl⟩ := Batchers.step_move hs
  exact fun other => moved_update (P := (· ≠ .abort)) hb ha hm other

theorem Returned.kept (h : Returned bs side) (hk : Kept bs bs') : Returned bs' side := by
  intro b' hb'
  obtain ⟨b,hb,rfl | ⟨a,-,hm⟩⟩ := hk.before hb'
  · exact h b' hb
  · exact hm.returned (h b hb)

theorem BatchersOk.kept (h : BatchersOk bs held) (hk : Kept bs bs') : BatchersOk bs' held := by
  intro side b' hb'
  obtain ⟨b,hb,rfl | ⟨a,ha,hm⟩⟩ := hk.before hb'
  · exact h side b' hb
  · exact ⟨(h side b hb).1.move ha hm,fun hh => hm.returned ((h side b hb).2 hh)⟩

end

end GraphileWorker.Batcher
