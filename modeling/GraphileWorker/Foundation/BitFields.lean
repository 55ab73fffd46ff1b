import Mathlib.Data.Nat.Bitwise
import Mathlib.Tactic.Common

/-! # Counters packed into a machine word

A field of a word is a run of bits. It is written by clearing it and inserting the new bits,
or counted up and down in place by adding and subtracting its lowest bit.
-/
namespace GraphileWorker.Foundation
variable {w s k : ℕ} {x y v : BitVec w}

/-- `(1 << k) - 1`. -/
def lowMask (w k : ℕ) : BitVec w := (1#w <<< k) - 1#w

/-- `(x >> s) & MASK`. -/
def bitField (s k : ℕ) (x : BitVec w) : BitVec w := (x >>> s) &&& lowMask w k

/-- `(x & !(MASK << s)) | (v << s)`. -/
def withBitField (s k : ℕ) (x v : BitVec w) : BitVec w := (x &&& ~~~(lowMask w k <<< s)) ||| (v <<< s)

/-- The value of `k` bits from the bit `s` on. -/
def fieldOfNat (s k x : ℕ) : ℕ := x / 2 ^ s % 2 ^ k

theorem fieldOfNat_lt (s k x : ℕ) : fieldOfNat s k x < 2 ^ k := Nat.mod_lt _ (Nat.two_pow_pos k)

theorem toNat_oneShift (h : s < w) : (1#w <<< s).toNat = 2 ^ s := by
  have h1 : (1#w).toNat = 1 := by
    rw [BitVec.toNat_ofNat]
    exact Nat.mod_eq_of_lt (Nat.one_lt_two_pow (by omega))
  rw [BitVec.toNat_shiftLeft,h1,Nat.one_shiftLeft]
  exact Nat.mod_eq_of_lt (Nat.pow_lt_pow_right (by decide) h)

theorem toNat_lowMask (h : k < w) : (lowMask w k).toNat = 2 ^ k - 1 := by
  have h1 : (1#w).toNat = 1 := by
    rw [BitVec.toNat_ofNat]
    exact Nat.mod_eq_of_lt (Nat.one_lt_two_pow (by omega))
  have hp := Nat.two_pow_pos k
  have hle : 1#w ≤ 1#w <<< k := by
    rw [BitVec.le_def,toNat_oneShift h,h1]
    exact hp
  rw [lowMask,BitVec.toNat_sub_of_le hle,toNat_oneShift h,h1]

theorem toNat_bitField (h : k < w) (x : BitVec w) : (bitField s k x).toNat = fieldOfNat s k x.toNat := by
  rw [bitField,BitVec.toNat_and,toNat_lowMask h,BitVec.toNat_ushiftRight,Nat.and_two_pow_sub_one_eq_mod,
    Nat.shiftRight_eq_div_pow]
  rfl

/-- `y` is `x` with the value `v` in the field; the bits below and above it are the same. -/
structure Replaces (s k : ℕ) (x y : BitVec w) (v : ℕ) : Prop where
  low : y.toNat % 2 ^ s = x.toNat % 2 ^ s
  value : fieldOfNat s k y.toNat = v
  high : y.toNat / 2 ^ (s + k) = x.toNat / 2 ^ (s + k)

theorem Replaces.below {v t j : ℕ} (h : Replaces s k x y v) (ht : t + j ≤ s) :
    fieldOfNat t j y.toNat = fieldOfNat t j x.toNat := by
  have cut : ∀ n : ℕ, fieldOfNat t j n = n % 2 ^ s % (2 ^ t * 2 ^ j) / 2 ^ t := by
    intro n
    rw [← Nat.pow_add,Nat.mod_mod_of_dvd n (Nat.pow_dvd_pow 2 ht),Nat.pow_add,Nat.mod_mul_right_div_self]
    rfl
  rw [cut,cut,h.low]

theorem Replaces.above {v t j : ℕ} (h : Replaces s k x y v) (ht : s + k ≤ t) :
    fieldOfNat t j y.toNat = fieldOfNat t j x.toNat := by
  have cut : ∀ n : ℕ, fieldOfNat t j n = n / 2 ^ (s + k) / 2 ^ (t - (s + k)) % 2 ^ j := by
    intro n
    rw [Nat.div_div_eq_div_mul,← Nat.pow_add,Nat.add_sub_cancel' ht]
    rfl
  rw [cut,cut,h.high]

theorem split_field (s k n : ℕ) : n = n % 2 ^ s + 2 ^ s * (fieldOfNat s k n + 2 ^ k * (n / 2 ^ (s + k))) := by
  have h₁ := Nat.mod_add_div n (2 ^ s)
  have h₂ := Nat.mod_add_div (n / 2 ^ s) (2 ^ k)
  rw [Nat.div_div_eq_div_mul,← Nat.pow_add] at h₂
  unfold fieldOfNat
  rw [h₂,h₁]

theorem parts_of_split {lo v : ℕ} (hi : ℕ) (hl : lo < 2 ^ s) (hv : v < 2 ^ k) :
    (lo + 2 ^ s * (v + 2 ^ k * hi)) % 2 ^ s = lo ∧ fieldOfNat s k (lo + 2 ^ s * (v + 2 ^ k * hi)) = v ∧
      (lo + 2 ^ s * (v + 2 ^ k * hi)) / 2 ^ (s + k) = hi := by
  have hdiv : (lo + 2 ^ s * (v + 2 ^ k * hi)) / 2 ^ s = v + 2 ^ k * hi := by
    rw [Nat.add_mul_div_left _ _ (Nat.two_pow_pos s),Nat.div_eq_of_lt hl,Nat.zero_add]
  refine ⟨?_,?_,?_⟩
  · rw [Nat.add_mul_mod_self_left,Nat.mod_eq_of_lt hl]
  · rw [fieldOfNat,hdiv,Nat.add_mul_mod_self_left,Nat.mod_eq_of_lt hv]
  · rw [Nat.pow_add,← Nat.div_div_eq_div_mul,hdiv,Nat.add_mul_div_left _ _ (Nat.two_pow_pos k),Nat.div_eq_of_lt hv,
      Nat.zero_add]

theorem replaces_of_toNat {v : ℕ} (hv : v < 2 ^ k)
    (h : y.toNat = x.toNat % 2 ^ s + 2 ^ s * (v + 2 ^ k * (x.toNat / 2 ^ (s + k)))) : Replaces s k x y v := by
  obtain ⟨hl,hf,hh⟩ := parts_of_split (x.toNat / 2 ^ (s + k)) (Nat.mod_lt x.toNat (Nat.two_pow_pos s)) hv
  exact ⟨by rw [h,hl],by rw [h,hf],by rw [h,hh]⟩

theorem replaces_add (hs : s + k ≤ w) (hx : fieldOfNat s k x.toNat + 1 < 2 ^ k) :
    Replaces s k x (x + (1#w <<< s)) (fieldOfNat s k x.toNat + 1) := by
  have hk : 0 < k := by
    by_contra h
    have : k = 0 := by omega
    subst this
    simp at hx
  refine replaces_of_toNat hx ?_
  have hsplit := split_field s k x.toNat
  have hsum : x.toNat + 2 ^ s =
      x.toNat % 2 ^ s + 2 ^ s * (fieldOfNat s k x.toNat + 1 + 2 ^ k * (x.toNat / 2 ^ (s + k))) := by
    conv_lhs => rw [hsplit]
    rw [Nat.add_assoc,← Nat.mul_succ]
    congr 2
    omega
  -- the sum still fits into the word, because the bits above the field stay
  have hfit : x.toNat + 2 ^ s < 2 ^ w := by
    have hhigh : (x.toNat + 2 ^ s) / 2 ^ (s + k) = x.toNat / 2 ^ (s + k) := by
      rw [hsum]
      exact (parts_of_split _ (Nat.mod_lt x.toNat (Nat.two_pow_pos s)) hx).2.2
    have hlt : x.toNat / 2 ^ (s + k) < 2 ^ (w - (s + k)) := by
      rw [Nat.div_lt_iff_lt_mul (Nat.two_pow_pos _),← Nat.pow_add,Nat.sub_add_cancel hs]
      exact x.isLt
    rw [← hhigh,Nat.div_lt_iff_lt_mul (Nat.two_pow_pos _),← Nat.pow_add,Nat.sub_add_cancel hs] at hlt
    exact hlt
  rw [BitVec.toNat_add,toNat_oneShift (by omega),Nat.mod_eq_of_lt hfit,hsum]

theorem replaces_sub (hs : s + k ≤ w) (hx : 0 < fieldOfNat s k x.toNat) :
    Replaces s k x (x - (1#w <<< s)) (fieldOfNat s k x.toNat - 1) := by
  have hlt := fieldOfNat_lt s k x.toNat
  have hk : 0 < k := by
    by_contra h
    have : k = 0 := by omega
    subst this
    simp at hlt
    omega
  refine replaces_of_toNat (by omega) ?_
  have hsplit := split_field s k x.toNat
  have hsum : x.toNat =
      x.toNat % 2 ^ s + 2 ^ s * (fieldOfNat s k x.toNat - 1 + 2 ^ k * (x.toNat / 2 ^ (s + k))) + 2 ^ s := by
    conv_lhs => rw [hsplit]
    rw [Nat.add_assoc,← Nat.mul_succ]
    congr 2
    omega
  have hle : 1#w <<< s ≤ x := by
    rw [BitVec.le_def,toNat_oneShift (by omega),hsum]
    exact Nat.le_add_left _ _
  rw [BitVec.toNat_sub_of_le hle,toNat_oneShift (by omega)]
  exact Nat.sub_eq_of_eq_add hsum

theorem getLsbD_withBitField (hs : s + k ≤ w) (hk : k < w) (hv : v.toNat < 2 ^ k) (i : ℕ) :
    (withBitField s k x v).getLsbD i =
      if i < s then x.getLsbD i else if i < s + k then v.getLsbD (i - s) else x.getLsbD i := by
  have hmask : ∀ j, (lowMask w k).getLsbD j = decide (j < k) := by
    intro j
    rw [← BitVec.testBit_toNat,toNat_lowMask hk,Nat.testBit_two_pow_sub_one]
  have hvbit : ∀ j, k ≤ j → v.getLsbD j = false := by
    intro j hj
    rw [← BitVec.testBit_toNat]
    exact Nat.testBit_lt_two_pow (Nat.lt_of_lt_of_le hv (Nat.pow_le_pow_right (by decide) hj))
  simp only [withBitField,BitVec.getLsbD_or,BitVec.getLsbD_and,BitVec.getLsbD_not,BitVec.getLsbD_shiftLeft,hmask]
  by_cases hw : i < w
  · by_cases hi : i < s
    · simp [hw,hi]
    · by_cases hj : i < s + k
      · simp [hw,hi,hj,show i - s < k by omega]
      · simp [hw,hi,hj,show ¬i - s < k by omega,hvbit (i - s) (by omega)]
  · have hx : x.getLsbD i = false := BitVec.getLsbD_of_ge x i (by omega)
    simp [hw,hx,show ¬i < s by omega,show ¬i < s + k by omega]

theorem replaces_withBitField (hs : s + k ≤ w) (hk : k < w) (hv : v.toNat < 2 ^ k) :
    Replaces s k x (withBitField s k x v) v.toNat where
  low := by
    refine Nat.eq_of_testBit_eq fun i => ?_
    rw [Nat.testBit_mod_two_pow,Nat.testBit_mod_two_pow,BitVec.testBit_toNat,BitVec.testBit_toNat,
      getLsbD_withBitField hs hk hv]
    by_cases hi : i < s <;> simp [hi]
  value := by
    refine Nat.eq_of_testBit_eq fun i => ?_
    rw [fieldOfNat,Nat.testBit_mod_two_pow,Nat.testBit_div_two_pow,BitVec.testBit_toNat,BitVec.testBit_toNat,
      getLsbD_withBitField hs hk hv]
    by_cases hi : i < k
    · simp [hi,show i + s < s + k by omega]
    · have hbit : v.getLsbD i = false := by
        rw [← BitVec.testBit_toNat]
        exact Nat.testBit_lt_two_pow (Nat.lt_of_lt_of_le hv (Nat.pow_le_pow_right (by decide) (by omega)))
      simp [hi,hbit]
  high := by
    refine Nat.eq_of_testBit_eq fun i => ?_
    rw [Nat.testBit_div_two_pow,Nat.testBit_div_two_pow,BitVec.testBit_toNat,BitVec.testBit_toNat,
      getLsbD_withBitField hs hk hv]
    simp [show ¬i + (s + k) < s by omega]

theorem getLsbD_one_iff (hw : 0 < w) (i : ℕ) : (1#w).getLsbD i = decide (i = 0) := by
  rw [BitVec.getLsbD_one]
  simp [hw]

theorem and_one_ne_zero_iff (hw : 0 < w) (x : BitVec w) : x &&& 1#w ≠ 0#w ↔ fieldOfNat 0 1 x.toNat = 1 := by
  have hone : (1#w).toNat = 2 ^ 1 - 1 := by
    rw [BitVec.toNat_ofNat]
    exact Nat.mod_eq_of_lt (Nat.one_lt_two_pow (by omega))
  rw [ne_eq,← BitVec.toNat_inj,BitVec.toNat_and,hone,Nat.and_two_pow_sub_one_eq_mod]
  simp [fieldOfNat]

theorem replaces_setLowest (hw : 0 < w) (x : BitVec w) : Replaces 0 1 x (x ||| 1#w) 1 where
  low := by simp [Nat.mod_one]
  value := by
    refine Nat.eq_of_testBit_eq fun i => ?_
    rw [fieldOfNat,Nat.testBit_mod_two_pow,Nat.testBit_div_two_pow,BitVec.testBit_toNat,BitVec.getLsbD_or,
      getLsbD_one_iff hw]
    by_cases hi : i = 0
    · simp [hi]
    · simp [show ¬i < 1 by omega,Nat.testBit_lt_two_pow (Nat.one_lt_two_pow hi)]
  high := by
    refine Nat.eq_of_testBit_eq fun i => ?_
    rw [Nat.testBit_div_two_pow,Nat.testBit_div_two_pow,BitVec.testBit_toNat,BitVec.testBit_toNat,BitVec.getLsbD_or,
      getLsbD_one_iff hw]
    simp

theorem replaces_clearLowest (hw : 0 < w) (x : BitVec w) : Replaces 0 1 x (x &&& ~~~1#w) 0 where
  low := by simp [Nat.mod_one]
  value := by
    refine Nat.eq_of_testBit_eq fun i => ?_
    rw [fieldOfNat,Nat.testBit_mod_two_pow,Nat.testBit_div_two_pow,BitVec.testBit_toNat,BitVec.getLsbD_and,
      BitVec.getLsbD_not,getLsbD_one_iff hw,Nat.zero_testBit]
    by_cases hi : i = 0 <;> simp [hi]
  high := by
    refine Nat.eq_of_testBit_eq fun i => ?_
    rw [Nat.testBit_div_two_pow,Nat.testBit_div_two_pow,BitVec.testBit_toNat,BitVec.testBit_toNat,BitVec.getLsbD_and,
      BitVec.getLsbD_not,getLsbD_one_iff hw]
    by_cases hi : i + (0 + 1) < w
    · simp [hi]
    · simp [BitVec.getLsbD_of_ge x (i + (0 + 1)) (by omega)]

end GraphileWorker.Foundation
