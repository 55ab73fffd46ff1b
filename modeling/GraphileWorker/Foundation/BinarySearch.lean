import Mathlib.Order.Lattice
import Mathlib.Data.List.Basic

/-! # Binary search

The window keeps its lower half when the key is below the middle and its upper half
otherwise; only the last element is compared for equality.
-/
namespace GraphileWorker.Foundation

variable {α : Type*} [LinearOrder α]

def narrow (xs : List α) (key : α) (base size : ℕ) : ℕ :=
  if 1 < size then
    if xs[base + size / 2]?.any (key < ·) then narrow xs key base (size - size / 2)
    else narrow xs key (base + size / 2) (size - size / 2)
  else base
termination_by size

/-- The place of the key, or the place where it would have to be inserted. -/
def binarySearch (xs : List α) (key : α) : Except ℕ ℕ :=
  match xs[narrow xs key 0 xs.length]? with
  | none => .error 0
  | some x =>
    if x = key then .ok (narrow xs key 0 xs.length)
    else .error (narrow xs key 0 xs.length + if x < key then 1 else 0)

variable {xs : List α} {key : α}

structure InWindow (xs : List α) (key : α) (base size : ℕ) : Prop where
  nonempty : 0 < size
  inside : base + size ≤ xs.length
  covers : ∀ i : ℕ, xs[i]? = some key → base ≤ i ∧ i < base + size

theorem getElem?_lt_getElem? (hs : xs.Pairwise (· < ·)) {i j : ℕ} {a b : α} (hij : i < j) (ha : xs[i]? = some a)
    (hb : xs[j]? = some b) : a < b := by
  obtain ⟨hi,rfl⟩ := List.getElem?_eq_some_iff.mp ha
  obtain ⟨hj,rfl⟩ := List.getElem?_eq_some_iff.mp hb
  exact List.pairwise_iff_getElem.mp hs i j hi hj hij

theorem InWindow.lower {base size : ℕ} (hw : InWindow xs key base size) (hs : xs.Pairwise (· < ·)) (h1 : 1 < size)
    (hlt : xs[base + size / 2]?.any (key < ·) = true) : InWindow xs key base (size - size / 2) := by
  obtain ⟨m,hm,hkey⟩ := (Option.any_eq_true _ _).mp hlt
  have hkey : key < m := of_decide_eq_true hkey
  have hin := hw.inside
  refine ⟨by omega,by omega,fun i hi => ?_⟩
  have hlow := (hw.covers i hi).1
  have hbefore : i < base + size / 2 := by
    by_contra hge
    obtain heq | hlt := Nat.eq_or_lt_of_le (Nat.le_of_not_lt hge)
    · rw [heq,hi] at hm
      exact lt_irrefl key (hkey.trans_eq (Option.some.inj hm).symm)
    · exact lt_asymm hkey (getElem?_lt_getElem? hs hlt hm hi)
  omega

theorem InWindow.upper {base size : ℕ} (hw : InWindow xs key base size) (hs : xs.Pairwise (· < ·)) (h1 : 1 < size)
    (hge : ¬xs[base + size / 2]?.any (key < ·) = true) :
    InWindow xs key (base + size / 2) (size - size / 2) := by
  have hin := hw.inside
  refine ⟨by omega,by omega,fun i hi => ?_⟩
  have hhigh := (hw.covers i hi).2
  have hfrom : base + size / 2 ≤ i := by
    by_contra hlt
    have hmid : base + size / 2 < xs.length := by omega
    have hm : xs[base + size / 2]? = some xs[base + size / 2] := List.getElem?_eq_getElem hmid
    apply hge
    rw [hm,Option.any_some]
    exact decide_eq_true (getElem?_lt_getElem? hs (Nat.lt_of_not_le hlt) hi hm)
  omega

theorem InWindow.narrow {base size : ℕ} (hw : InWindow xs key base size) (hs : xs.Pairwise (· < ·)) :
    InWindow xs key (narrow xs key base size) 1 := by
  induction base,size using narrow.induct xs key with
  | case1 base size h1 hlt ih =>
    rw [Foundation.narrow,if_pos h1,if_pos hlt]
    exact ih (hw.lower hs h1 hlt)
  | case2 base size h1 hge ih =>
    rw [Foundation.narrow,if_pos h1,if_neg hge]
    exact ih (hw.upper hs h1 hge)
  | case3 base size h1 =>
    have hone : size = 1 := by
      have hpos := hw.nonempty
      omega
    rw [Foundation.narrow,if_neg h1]
    exact hone ▸ hw

theorem binarySearch_eq_ok_iff (hs : xs.Pairwise (· < ·)) {i : ℕ} :
    binarySearch xs key = .ok i ↔ xs[i]? = some key := by
  constructor
  · intro h
    rw [binarySearch] at h
    split at h
    · cases h
    · rename_i x hx
      split at h
      · rename_i hkey
        cases h
        rw [hx,hkey]
      · cases h
  · intro hi
    obtain ⟨hlt,-⟩ := List.getElem?_eq_some_iff.mp hi
    have hall : InWindow xs key 0 xs.length := by
      refine ⟨by omega,by omega,fun j hj => ?_⟩
      obtain ⟨hj,-⟩ := List.getElem?_eq_some_iff.mp hj
      omega
    have hplace : i = narrow xs key 0 xs.length := by
      have hcovers := (hall.narrow hs).covers i hi
      omega
    rw [binarySearch,← hplace,hi]
    exact if_pos rfl

theorem binarySearch_isOk_iff (hs : xs.Pairwise (· < ·)) : (binarySearch xs key).isOk = true ↔ key ∈ xs := by
  rw [List.mem_iff_getElem?]
  constructor
  · intro h
    cases hr : binarySearch xs key with
    | ok i => exact ⟨i,(binarySearch_eq_ok_iff hs).mp hr⟩
    | error i =>
      rw [hr] at h
      cases h
  · rintro ⟨i,hi⟩
    rw [(binarySearch_eq_ok_iff hs).mpr hi]
    rfl

end GraphileWorker.Foundation
