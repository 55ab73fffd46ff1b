import GraphileWorker.Foundation.BitFields
import GraphileWorker.Runtime.Notify

/-! # The packed word of the notification primitive

The word of `notify/state.rs` on a machine word of any size. A loop over it ends with one
compare-exchange or a load, so it is a function of the word it saw then.
-/
namespace GraphileWorker.Runtime
open Foundation

namespace Word

section
variable (w : ℕ)

/-- `NOTIFY_COUNTER_BITS`. -/
def counterBits : ℕ := (w - 1) / 3

/-- `NOTIFY_COUNTER_MASK`. -/
def counterMask : BitVec w := lowMask w (counterBits w)

def permitBit : BitVec w := 1#w

def waitersShift : ℕ := 1

def pendingShift : ℕ := waitersShift + counterBits w

def broadcastShift : ℕ := pendingShift w + counterBits w

def oneWaiter : BitVec w := 1#w <<< waitersShift

def onePending : BitVec w := 1#w <<< pendingShift w

end

variable {w : ℕ}

def notifyHasPermit (state : BitVec w) : Bool := state &&& permitBit w != 0#w

def notifyWaiters (state : BitVec w) : BitVec w := bitField waitersShift (counterBits w) state

def notifyPending (state : BitVec w) : BitVec w := bitField (pendingShift w) (counterBits w) state

def notifyBroadcast (state : BitVec w) : BitVec w := bitField (broadcastShift w) (counterBits w) state

def notifyWithPending (state pending : BitVec w) : BitVec w :=
  withBitField (pendingShift w) (counterBits w) state pending

def notifyWithWaiters (state waiters : BitVec w) : BitVec w :=
  withBitField waitersShift (counterBits w) state waiters

def notifyWithBroadcast (state broadcast : BitVec w) : BitVec w :=
  withBitField (broadcastShift w) (counterBits w) state broadcast

def minWord (a b : BitVec w) : BitVec w := if a ≤ b then a else b

/-- The new word, and whether a listener is notified. -/
def markOneNotified (state : BitVec w) : BitVec w × Bool :=
  if notifyPending state < notifyWaiters state then (state + onePending w,true)
  else (state ||| permitBit w,false)

def markAllNotified (state : BitVec w) : BitVec w :=
  let newBroadcast := (notifyBroadcast state + 1#w) &&& counterMask w
  notifyWithWaiters (notifyWithPending (notifyWithBroadcast state newBroadcast) 0#w) 0#w

inductive Registration (w : ℕ)
  | ready (state : BitVec w)
  | waiting (state : BitVec w)
  /-- The assertion on the number of waiters fails. -/
  | tooMany

def registerWaiter (state broadcast : BitVec w) : Registration w :=
  if notifyBroadcast state ≠ broadcast then .ready state
  else if notifyHasPermit state then .ready (state &&& ~~~permitBit w)
  else if notifyWaiters state < counterMask w then .waiting (state + oneWaiter w)
  else .tooMany

/-- The new word of a waiter that completes, `none` for one that does not. -/
def tryComplete (state broadcast : BitVec w) : Option (BitVec w) :=
  if notifyBroadcast state ≠ broadcast then some state
  else if notifyPending state = 0#w then none
  else if notifyWaiters state = 0#w then some state
  else some (notifyWithPending (state - oneWaiter w)
    (minWord (notifyPending state - 1#w) (notifyWaiters state - 1#w)))

/-- The new word, and whether another listener is notified. -/
def dropWaiter (state broadcast : BitVec w) : BitVec w × Bool :=
  if notifyBroadcast state ≠ broadcast then (state,false)
  else if notifyWaiters state = 0#w then (state,false)
  else
    let newWaiters := notifyWaiters state - 1#w
    (notifyWithPending (state - oneWaiter w) (minWord (notifyPending state) newWaiters),
      notifyPending state != 0#w && newWaiters != 0#w)

def fields (state : BitVec w) : Notify where
  permit := notifyHasPermit state
  waiters := (notifyWaiters state).toNat
  pending := (notifyPending state).toNat
  broadcast := (notifyBroadcast state).toNat

def maxCounter (w : ℕ) : ℕ := 2 ^ counterBits w - 1

section
variable (hb : 0 < w) {state state' b x : BitVec w}
include hb

theorem shifts_fit : 1 + counterBits w + counterBits w + counterBits w ≤ w ∧ counterBits w < w := by
  unfold counterBits
  omega

theorem toNat_notifyWaiters : (notifyWaiters state).toNat = fieldOfNat 1 (counterBits w) state.toNat :=
  toNat_bitField (shifts_fit hb).2 state

theorem toNat_notifyPending :
    (notifyPending state).toNat = fieldOfNat (1 + counterBits w) (counterBits w) state.toNat :=
  toNat_bitField (shifts_fit hb).2 state

theorem toNat_notifyBroadcast : (notifyBroadcast state).toNat =
    fieldOfNat (1 + counterBits w + counterBits w) (counterBits w) state.toNat :=
  toNat_bitField (shifts_fit hb).2 state

theorem toNat_counterMask : (counterMask w).toNat = maxCounter w := toNat_lowMask (shifts_fit hb).2

theorem notifyHasPermit_iff : notifyHasPermit state = true ↔ fieldOfNat 0 1 state.toNat = 1 := by
  rw [notifyHasPermit,bne_iff_ne]
  exact and_one_ne_zero_iff hb state

theorem fields_eq : fields state = ⟨decide (fieldOfNat 0 1 state.toNat = 1),
    fieldOfNat 1 (counterBits w) state.toNat,fieldOfNat (1 + counterBits w) (counterBits w) state.toNat,
    fieldOfNat (1 + counterBits w + counterBits w) (counterBits w) state.toNat⟩ := by
  have hp : notifyHasPermit state = decide (fieldOfNat 0 1 state.toNat = 1) :=
    Bool.eq_iff_iff.mpr ((notifyHasPermit_iff hb).trans decide_eq_true_iff.symm)
  rw [fields,hp,toNat_notifyWaiters hb,toNat_notifyPending hb,toNat_notifyBroadcast hb]

theorem fields_permit {v : ℕ} (h : Replaces 0 1 state state' v) :
    fields state' = { fields state with permit := decide (v = 1) } := by
  rw [fields_eq hb,fields_eq hb,h.value,h.above (by omega),h.above (by omega),h.above (by omega)]

theorem fields_waiters {v : ℕ} (h : Replaces 1 (counterBits w) state state' v) :
    fields state' = { fields state with waiters := v } := by
  rw [fields_eq hb,fields_eq hb,h.value,h.below (by omega),h.above (by omega),h.above (by omega)]

theorem fields_pending {v : ℕ} (h : Replaces (1 + counterBits w) (counterBits w) state state' v) :
    fields state' = { fields state with pending := v } := by
  rw [fields_eq hb,fields_eq hb,h.value,h.below (by omega),h.below (by omega),h.above (by omega)]

theorem fields_broadcast {v : ℕ} (h : Replaces (1 + counterBits w + counterBits w) (counterBits w) state state' v) :
    fields state' = { fields state with broadcast := v } := by
  rw [fields_eq hb,fields_eq hb,h.value,h.below (by omega),h.below (by omega),h.below (by omega)]

theorem waiters_lt : (fields state).waiters < 2 ^ counterBits w := by
  rw [fields,toNat_notifyWaiters hb]
  exact fieldOfNat_lt _ _ _

theorem fields_addWaiter (h : (fields state).waiters < maxCounter w) :
    fields (state + oneWaiter w) = { fields state with waiters := (fields state).waiters + 1 } := by
  have hw : (fields state).waiters = fieldOfNat 1 (counterBits w) state.toNat := toNat_notifyWaiters hb
  have hfit := (shifts_fit hb).1
  rw [hw]
  refine fields_waiters hb (replaces_add (by omega) ?_)
  unfold maxCounter at h
  omega

theorem fields_subWaiter (h : 0 < (fields state).waiters) :
    fields (state - oneWaiter w) = { fields state with waiters := (fields state).waiters - 1 } := by
  have hw : (fields state).waiters = fieldOfNat 1 (counterBits w) state.toNat := toNat_notifyWaiters hb
  have hfit := (shifts_fit hb).1
  rw [hw] at h ⊢
  exact fields_waiters hb (replaces_sub (by omega) h)

theorem fields_withPending {v : BitVec w} (h : v.toNat < 2 ^ counterBits w) :
    fields (notifyWithPending state v) = { fields state with pending := v.toNat } :=
  fields_pending hb (replaces_withBitField (by have := (shifts_fit hb).1; omega) (shifts_fit hb).2 h)

theorem fields_withWaiters {v : BitVec w} (h : v.toNat < 2 ^ counterBits w) :
    fields (notifyWithWaiters state v) = { fields state with waiters := v.toNat } :=
  fields_waiters hb (replaces_withBitField (by have := (shifts_fit hb).1; omega) (shifts_fit hb).2 h)

theorem fields_withBroadcast {v : BitVec w} (h : v.toNat < 2 ^ counterBits w) :
    fields (notifyWithBroadcast state v) = { fields state with broadcast := v.toNat } :=
  fields_broadcast hb (replaces_withBitField (by have := (shifts_fit hb).1; omega) (shifts_fit hb).2 h)

theorem fields_markOneNotified : fields (markOneNotified state).1 = (fields state).notifyOne := by
  have hp : (fields state).pending = fieldOfNat (1 + counterBits w) (counterBits w) state.toNat :=
    toNat_notifyPending hb
  have hfit := (shifts_fit hb).1
  have hlt : (fields state).waiters < 2 ^ counterBits w := waiters_lt hb
  unfold markOneNotified Notify.notifyOne
  by_cases h : notifyPending state < notifyWaiters state
  · have hn : (fields state).pending < (fields state).waiters := BitVec.lt_def.mp h
    rw [if_pos h,if_pos hn,hp]
    exact fields_pending hb (replaces_add (by omega) (by omega))
  · have hn : ¬(fields state).pending < (fields state).waiters := fun hn => h (BitVec.lt_def.mpr hn)
    rw [if_neg h,if_neg hn]
    exact fields_permit hb (replaces_setLowest hb state)

theorem fields_markAllNotified : fields (markAllNotified state) = { fields state with
    broadcast := ((fields state).broadcast + 1) % 2 ^ counterBits w
    waiters := 0
    pending := 0 } := by
  have hz : (0#w).toNat < 2 ^ counterBits w := by
    rw [BitVec.toNat_ofNat,Nat.zero_mod]
    exact Nat.two_pow_pos _
  have hnew : ((notifyBroadcast state + 1#w) &&& counterMask w).toNat =
      ((fields state).broadcast + 1) % 2 ^ counterBits w := by
    have hone : (1#w).toNat = 1 % 2 ^ w := BitVec.toNat_ofNat ..
    rw [BitVec.toNat_and,toNat_counterMask hb,maxCounter,Nat.and_two_pow_sub_one_eq_mod,BitVec.toNat_add,hone,
      Nat.add_mod_mod,Nat.mod_mod_of_dvd _ (Nat.pow_dvd_pow 2 (shifts_fit hb).2.le)]
    rfl
  have hlt : ((notifyBroadcast state + 1#w) &&& counterMask w).toNat < 2 ^ counterBits w := by
    rw [hnew]
    exact Nat.mod_lt _ (Nat.two_pow_pos _)
  unfold markAllNotified
  rw [fields_withWaiters hb hz,fields_withPending hb hz,fields_withBroadcast hb hlt,hnew]
  simp

omit hb in
theorem broadcast_ne_iff : notifyBroadcast state ≠ b ↔ (fields state).broadcast ≠ b.toNat :=
  not_congr BitVec.toNat_inj.symm

omit hb in
theorem toNat_minWord (a b : BitVec w) : (minWord a b).toNat = min a.toNat b.toNat := by
  unfold minWord
  by_cases h : a ≤ b
  · rw [if_pos h,Nat.min_eq_left (BitVec.le_def.mp h)]
  · rw [if_neg h,Nat.min_eq_right]
    have := mt BitVec.le_def.mpr h
    omega

theorem toNat_pred (h : x ≠ 0#w) : (x - 1#w).toNat = x.toNat - 1 := by
  have hone : (1#w).toNat = 1 := by
    rw [BitVec.toNat_ofNat]
    exact Nat.mod_eq_of_lt (Nat.one_lt_two_pow (by omega))
  have hpos : x.toNat ≠ 0 := fun hz => h (BitVec.eq_of_toNat_eq (by simpa using hz))
  rw [BitVec.toNat_sub_of_le,hone]
  rw [BitVec.le_def,hone]
  omega

omit hb in
theorem eq_zero_iff : x = 0#w ↔ x.toNat = 0 := by
  rw [← BitVec.toNat_inj,BitVec.toNat_ofNat,Nat.zero_mod]

theorem fields_registerWaiter : match registerWaiter state b with
    | .ready state' => (fields state).registerWaiter b.toNat = (fields state',true)
    | .waiting state' => (fields state).registerWaiter b.toNat = (fields state',false) ∧
      (fields state).waiters < maxCounter w
    | .tooMany => (fields state).waiters = maxCounter w ∧ (fields state).broadcast = b.toNat := by
  have hmask := toNat_counterMask hb
  have hlt : (fields state).waiters < 2 ^ counterBits w := waiters_lt hb
  unfold registerWaiter Notify.registerWaiter
  by_cases h₁ : notifyBroadcast state ≠ b
  · rw [if_pos h₁,if_pos (broadcast_ne_iff.mp h₁)]
  · rw [if_neg h₁,if_neg (mt broadcast_ne_iff.mpr h₁)]
    by_cases h₂ : notifyHasPermit state = true
    · have hp : (fields state).permit = true := h₂
      rw [if_pos h₂,if_pos hp,permitBit]
      dsimp only
      rw [fields_permit hb (replaces_clearLowest hb state)]
      rfl
    · have hp : ¬(fields state).permit = true := h₂
      rw [if_neg h₂,if_neg hp]
      by_cases h₃ : notifyWaiters state < counterMask w
      · have hw : (fields state).waiters < maxCounter w := hmask ▸ BitVec.lt_def.mp h₃
        rw [if_pos h₃]
        dsimp only
        rw [fields_addWaiter hb hw]
        exact ⟨rfl,hw⟩
      · have hw : ¬(fields state).waiters < maxCounter w := fun h => h₃ (BitVec.lt_def.mpr (hmask ▸ h))
        rw [if_neg h₃]
        refine ⟨?_,not_not.mp (mt broadcast_ne_iff.mpr h₁)⟩
        unfold maxCounter at hw ⊢
        omega

theorem fields_tryComplete : (tryComplete state b).map fields = (fields state).tryComplete b.toNat := by
  unfold tryComplete Notify.tryComplete
  by_cases h₁ : notifyBroadcast state ≠ b
  · rw [if_pos h₁,if_pos (broadcast_ne_iff.mp h₁)]
    rfl
  · rw [if_neg h₁,if_neg (mt broadcast_ne_iff.mpr h₁)]
    by_cases h₂ : notifyPending state = 0#w
    · have hp : (fields state).pending = 0 := eq_zero_iff.mp h₂
      rw [if_pos h₂,if_pos hp]
      rfl
    · have hp : ¬(fields state).pending = 0 := mt eq_zero_iff.mpr h₂
      rw [if_neg h₂,if_neg hp]
      by_cases h₃ : notifyWaiters state = 0#w
      · have hw : (fields state).waiters = 0 := eq_zero_iff.mp h₃
        rw [if_pos h₃,if_pos hw]
        rfl
      · have hw : ¬(fields state).waiters = 0 := mt eq_zero_iff.mpr h₃
        have hmin : (minWord (notifyPending state - 1#w) (notifyWaiters state - 1#w)).toNat =
            min ((fields state).pending - 1) ((fields state).waiters - 1) := by
          rw [toNat_minWord,toNat_pred hb h₂,toNat_pred hb h₃]
          rfl
        have hlt : (fields state).waiters < 2 ^ counterBits w := waiters_lt hb
        rw [if_neg h₃,if_neg hw,Option.map_some,fields_withPending hb (by rw [hmin]; omega),
          fields_subWaiter hb (Nat.pos_of_ne_zero hw),hmin]

theorem fields_dropWaiter : fields (dropWaiter state b).1 = (fields state).dropWaiter b.toNat := by
  unfold dropWaiter Notify.dropWaiter
  by_cases h₁ : notifyBroadcast state ≠ b
  · rw [if_pos h₁,if_pos (broadcast_ne_iff.mp h₁)]
  · rw [if_neg h₁,if_neg (mt broadcast_ne_iff.mpr h₁)]
    by_cases h₂ : notifyWaiters state = 0#w
    · have hw : (fields state).waiters = 0 := eq_zero_iff.mp h₂
      rw [if_pos h₂,if_pos hw]
    · have hw : ¬(fields state).waiters = 0 := mt eq_zero_iff.mpr h₂
      have hmin : (minWord (notifyPending state) (notifyWaiters state - 1#w)).toNat =
          min (fields state).pending ((fields state).waiters - 1) := by
        rw [toNat_minWord,toNat_pred hb h₂]
        rfl
      have hlt : (fields state).waiters < 2 ^ counterBits w := waiters_lt hb
      rw [if_neg h₂,if_neg hw]
      dsimp only
      rw [fields_withPending hb (by rw [hmin]; omega),fields_subWaiter hb (Nat.pos_of_ne_zero hw),hmin]

end

end Word
end GraphileWorker.Runtime
