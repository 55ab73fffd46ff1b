import Mathlib.Algebra.Group.Nat.Defs
import Mathlib.Tactic.Common

/-! # The notification primitive of the runtime

The four fields of the packed state word; every method is one compare-exchange. A waiter carries
the broadcast count it saw when its future was created.
-/
namespace GraphileWorker.Runtime

/-- The broadcast counter has `NOTIFY_COUNTER_BITS` bits. -/
def counterModulus : ℕ := 2 ^ 21

structure Notify where
  permit : Bool := false
  waiters : ℕ := 0
  pending : ℕ := 0
  broadcast : ℕ := 0
  deriving DecidableEq

namespace Notify

def notifyOne (n : Notify) : Notify :=
  if n.pending < n.waiters then { n with pending := n.pending + 1 } else { n with permit := true }

def notifyWaiters (n : Notify) : Notify :=
  { n with broadcast := (n.broadcast + 1) % counterModulus, waiters := 0, pending := 0 }

/-- The first poll: the new word, and whether the future is ready at once. -/
def registerWaiter (n : Notify) (b : ℕ) : Notify × Bool :=
  if n.broadcast ≠ b then (n,true)
  else if n.permit then ({ n with permit := false },true)
  else ({ n with waiters := n.waiters + 1 },false)

/-- A later poll of a registered waiter: `none` while it has to wait on. -/
def tryComplete (n : Notify) (b : ℕ) : Option Notify :=
  if n.broadcast ≠ b then some n
  else if n.pending = 0 then none
  else if n.waiters = 0 then some n
  else some { n with waiters := n.waiters - 1, pending := min (n.pending - 1) (n.waiters - 1) }

/-- A registered waiter that is dropped before it completes. -/
def dropWaiter (n : Notify) (b : ℕ) : Notify :=
  if n.broadcast ≠ b then n
  else if n.waiters = 0 then n
  else { n with waiters := n.waiters - 1, pending := min n.pending (n.waiters - 1) }

/-- A waiter with this snapshot would complete now. -/
def wakes (n : Notify) (b : ℕ) : Prop := n.permit = true ∨ 0 < n.pending ∨ n.broadcast ≠ b

theorem wakes_notifyWaiters {n : Notify} {b : ℕ} (h : (n.broadcast + 1) % counterModulus ≠ b) :
    n.notifyWaiters.wakes b := Or.inr (Or.inr h)

theorem wakes_notifyOne (n : Notify) (b : ℕ) : n.notifyOne.wakes b := by
  unfold notifyOne
  split
  · exact Or.inr (Or.inl (Nat.succ_pos _))
  · exact Or.inl rfl

theorem registerWaiter_parks {n m : Notify} {b : ℕ} (h : n.registerWaiter b = (m,false)) :
    n.broadcast = b ∧ n.permit = false ∧ m = { n with waiters := n.waiters + 1 } := by
  unfold registerWaiter at h
  split at h
  · cases h
  · next hb =>
    split at h
    · cases h
    · next hp =>
      have hm := (Prod.mk.inj h).1
      exact ⟨not_not.mp hb,by simpa using hp,hm.symm⟩

section Broadcast
variable (n : Notify) (b : ℕ)

@[simp] theorem broadcast_notifyOne : n.notifyOne.broadcast = n.broadcast := by
  unfold notifyOne
  split <;> rfl

@[simp] theorem broadcast_registerWaiter : (n.registerWaiter b).1.broadcast = n.broadcast := by
  unfold registerWaiter
  split
  · rfl
  · split <;> rfl

@[simp] theorem broadcast_dropWaiter : (n.dropWaiter b).broadcast = n.broadcast := by
  unfold dropWaiter
  split
  · rfl
  · split <;> rfl

variable {n b}

theorem broadcast_of_tryComplete {m : Notify} (h : n.tryComplete b = some m) : m.broadcast = n.broadcast := by
  unfold tryComplete at h
  split at h
  · cases h
    rfl
  · split at h
    · cases h
    · split at h <;> cases h <;> rfl

end Broadcast

/-- Nothing is stored for a waiter to take. -/
structure Empty (n : Notify) : Prop where
  permit : n.permit = false
  pending : n.pending = 0

section Empty
variable {n m : Notify} {b : ℕ}

theorem Empty.registerWaiter (h : n.Empty) : (n.registerWaiter b).1.Empty := by
  unfold Notify.registerWaiter
  split
  · exact h
  · split
    · exact ⟨rfl,h.pending⟩
    · exact ⟨h.permit,h.pending⟩

theorem Empty.dropWaiter (h : n.Empty) : (n.dropWaiter b).Empty := by
  unfold Notify.dropWaiter
  split
  · exact h
  · split
    · exact h
    · exact ⟨h.permit,by simp [h.pending]⟩

theorem Empty.parks (h : n.Empty) (hb : n.broadcast = b) : (n.registerWaiter b).2 = false := by
  unfold Notify.registerWaiter
  rw [if_neg (not_not.mpr hb),h.permit]
  rfl

theorem Empty.waits (h : n.Empty) (hb : n.broadcast = b) : n.tryComplete b = none := by
  unfold Notify.tryComplete
  rw [if_neg (not_not.mpr hb),if_pos h.pending]

end Empty

/-- Nobody is registered except, for `some b`, one waiter with that snapshot. -/
def Sole (n : Notify) (w : Option ℕ) : Prop :=
  n.pending ≤ n.waiters ∧ (n.waiters = 0 ∨ n.waiters = 1 ∧ w = some n.broadcast)

variable {n m : Notify} {w : Option ℕ} {b : ℕ}

theorem Sole.waiters_zero (h : n.Sole none) : n.waiters = 0 := by
  rcases h.2 with h | ⟨_,h⟩
  · exact h
  · cases h

theorem sole_of_zero (hw : n.waiters = 0) (hp : n.pending = 0) : n.Sole w := ⟨by omega,Or.inl hw⟩

theorem Sole.any (h : n.Sole none) : n.Sole w :=
  sole_of_zero h.waiters_zero (by have := h.1; have := h.waiters_zero; omega)

theorem sole_notifyWaiters : n.notifyWaiters.Sole w := sole_of_zero rfl rfl

theorem Sole.notifyOne (h : n.Sole w) : n.notifyOne.Sole w := by
  unfold Notify.notifyOne
  split
  · next hp => exact ⟨hp,h.2⟩
  · exact h

theorem Sole.permit (h : n.Sole none) : n.notifyOne.permit = true := by
  have hp : ¬n.pending < n.waiters := by rw [h.waiters_zero]; omega
  simp [Notify.notifyOne,hp]

theorem Sole.registerWaiter (h : n.Sole none) :
    (n.registerWaiter b).1.Sole (if (n.registerWaiter b).2 then none else some b) := by
  have hw := h.waiters_zero
  unfold Notify.registerWaiter
  split
  · exact h
  · next hb =>
    split
    · exact ⟨h.1,Or.inl hw⟩
    · refine ⟨Nat.le_succ_of_le h.1,Or.inr ⟨by simp [hw],?_⟩⟩
      simp [not_not.mp hb]

theorem Sole.tryComplete (h : n.Sole (some b)) (hm : n.tryComplete b = some m) : m.Sole w := by
  unfold Notify.tryComplete at hm
  obtain ⟨hp,hw⟩ := h
  split at hm
  · next hb =>
    cases hm
    rcases hw with hw | ⟨_,hw⟩
    · exact sole_of_zero hw (by omega)
    · exact absurd (Option.some.inj hw).symm hb
  · split at hm
    · cases hm
    · split at hm
      · next hz =>
        cases hm
        exact sole_of_zero hz (by omega)
      · cases hm
        exact sole_of_zero (by dsimp only; omega) (by dsimp only; omega)

theorem Sole.dropWaiter (h : n.Sole (some b)) : (n.dropWaiter b).Sole w := by
  unfold Notify.dropWaiter
  obtain ⟨hp,hw⟩ := h
  split
  · next hb =>
    rcases hw with hw | ⟨_,hw⟩
    · exact sole_of_zero hw (by omega)
    · exact absurd (Option.some.inj hw).symm hb
  · split
    · next hz => exact sole_of_zero hz (by omega)
    · exact sole_of_zero (by dsimp only; omega) (by dsimp only; omega)

end Notify
end GraphileWorker.Runtime
