import Mathlib.Tactic.Common

/-! # A bounded channel

A send to a full channel waits; once the channel is closed, every send that was not accepted
yet fails. What is in the channel then can still be received.
-/
namespace GraphileWorker.Foundation

structure Channel (α : Type*) where
  items : List α := []
  closed : Bool := false

namespace Channel
variable {α : Type*} {ch ch' : Channel α} {capacity : ℕ} {x : α}

def close (ch : Channel α) : Channel α := { ch with closed := true }

/-- Whether the item was accepted; `none` while the send has to wait. -/
def send (capacity : ℕ) (ch : Channel α) (x : α) : Option (Channel α × Bool) :=
  if ch.closed then some (ch,false)
  else if ch.items.length < capacity then some ({ ch with items := ch.items ++ [x] },true)
  else none

/-- The next item, or no item from a closed channel; `none` while the receiver has to wait. -/
def recv (ch : Channel α) : Option (Channel α × Option α) :=
  match ch.items with
  | x :: rest => some ({ ch with items := rest },some x)
  | [] => if ch.closed then some (ch,none) else none

theorem send_accepted (h : ch.send capacity x = some (ch',true)) :
    ch.closed = false ∧ ch' = { ch with items := ch.items ++ [x] } := by
  unfold send at h
  split at h
  · cases h
  · next hc =>
    split at h
    · cases h
      exact ⟨by simpa using hc,rfl⟩
    · cases h

theorem send_rejected (h : ch.send capacity x = some (ch',false)) : ch.closed = true ∧ ch' = ch := by
  unfold send at h
  split at h
  · next hc =>
    cases h
    exact ⟨hc,rfl⟩
  · split at h <;> cases h

theorem send_closed (h : ch.closed = true) : ch.send capacity x = some (ch,false) := by rw [send,if_pos h]

theorem recv_item (h : ch.recv = some (ch',some x)) :
    ch.items = x :: ch'.items ∧ ch'.closed = ch.closed := by
  unfold recv at h
  split at h
  · next y rest hi =>
    cases h
    exact ⟨hi,rfl⟩
  · split at h <;> cases h

theorem recv_end (h : ch.recv = some (ch',none)) : ch.items = [] ∧ ch.closed = true ∧ ch' = ch := by
  unfold recv at h
  split at h
  · cases h
  · next hi =>
    split at h
    · next hc =>
      cases h
      exact ⟨hi,hc,rfl⟩
    · cases h

theorem items_eq_nil (h : ∀ ch' x, ch.recv ≠ some (ch',some x)) : ch.items = [] := by
  cases hi : ch.items with
  | nil => rfl
  | cons x rest => exact absurd (by rw [recv,hi]) (h { ch with items := rest } x)

@[simp] theorem close_items : ch.close.items = ch.items := rfl

@[simp] theorem close_closed : ch.close.closed = true := rfl

end Channel

end GraphileWorker.Foundation
