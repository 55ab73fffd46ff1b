import Mathlib.Algebra.BigOperators.Group.Finset.Piecewise
import Mathlib.Data.Fintype.Card
import Mathlib.Data.List.Nodup

/-! # Locks, guards and permits, and who owns them

A lock names its owner or lists its readers, a counter tells how many permits are out. Each
can also be read off the owners themselves.
-/
namespace GraphileWorker.Foundation
variable {T X : Type*} [DecidableEq T]

/-- The lock names exactly the threads that own it. -/
def Owned (own : X → Bool) (thr : T → X) (lock : Option T) : Prop := ∀ t, own (thr t) = true ↔ lock = some t

/-- What one step of thread `t` may do to a lock. -/
inductive Handover (t : T) : Bool → Option T → Bool → Option T → Prop
  | keep (o : Bool) (l : Option T) : Handover t o l o l
  | take : Handover t false none true (some t)
  | give (l : Option T) : Handover t true l false none

theorem Owned.handover {own : X → Bool} {thr : T → X} {lock lock' : Option T} {t : T} {x : X}
    (h : Owned own thr lock) (hm : Handover t (own (thr t)) lock (own x) lock') :
    Owned own (Function.update thr t x) lock' := by
  intro u
  by_cases hu : u = t
  · subst hu
    have ht := h u
    rw [Function.update_self]
    generalize own (thr u) = o at hm ht
    generalize own x = o' at hm
    cases hm with
    | keep => exact ht
    | take => simp
    | give => simp
  · have ht := h t
    have hu' := h u
    rw [Function.update_of_ne hu]
    generalize own (thr t) = o at hm ht
    generalize own x = o' at hm
    cases hm with
    | keep => exact hu'
    | take => simp [hu',Ne.symm hu]
    | give => simp [hu',ht.mp rfl,Ne.symm hu]

section Somewhere
variable {p : X → Bool} {thr : T → X} {t : T} {x : X}

theorem exists_update_self (hx : p x = true) : ∃ u, p (Function.update thr t x u) = true :=
  ⟨t,by rw [Function.update_self]; exact hx⟩

theorem exists_update_of_not (ht : p (thr t) = false) (h : ∃ u, p (thr u) = true) :
    ∃ u, p (Function.update thr t x u) = true := by
  obtain ⟨u,hu⟩ := h
  have hne : u ≠ t := by
    rintro rfl
    rw [hu] at ht
    cases ht
  exact ⟨u,by rw [Function.update_of_ne hne]; exact hu⟩

theorem apply_update_of_eq (hx : p x = p (thr t)) (u : T) : p (Function.update thr t x u) = p (thr u) := by
  by_cases hu : u = t
  · subst hu
    rw [Function.update_self,hx]
  · rw [Function.update_of_ne hu]

end Somewhere

section Readers
variable {K : Type*} [DecidableEq K] {reads : X → Bool} {thr : K → X}

/-- The list names exactly the readers, each once. -/
structure Listed (reads : X → Bool) (thr : K → X) (l : List K) : Prop where
  nodup : l.Nodup
  mem : ∀ k, k ∈ l ↔ reads (thr k) = true

/-- The list after `k` went from `before` to `after`. -/
def enroll (before after : Bool) (k : K) (l : List K) : List K :=
  match before, after with
  | false, true => k :: l
  | true, false => l.erase k
  | _, _ => l

theorem Listed.enroll {l : List K} (h : Listed reads thr l) (k : K) (x : X) :
    Listed reads (Function.update thr k x) (enroll (reads (thr k)) (reads x) k l) := by
  have hk := h.mem k
  have hmem : ∀ j, j ∈ Foundation.enroll (reads (thr k)) (reads x) k l ↔
      reads (Function.update thr k x j) = true := by
    intro j
    by_cases hj : j = k
    · subst hj
      rw [Function.update_self]
      generalize reads (thr j) = r at hk
      cases r <;> cases reads x <;> simp [Foundation.enroll,hk,h.nodup.mem_erase_iff]
    · rw [Function.update_of_ne hj,← h.mem j]
      cases reads (thr k) <;> cases reads x <;> simp [Foundation.enroll,hj,List.mem_erase_of_ne hj]
  refine ⟨?_,hmem⟩
  generalize reads (thr k) = r at hk
  cases r <;> cases reads x <;> simp [Foundation.enroll,h.nodup,hk,h.nodup.erase]

theorem Listed.update {l : List K} (h : Listed reads thr l) (k : K) (x : X) :
    ∃ l', Listed reads (Function.update thr k x) l' ∧
      l'.length + (reads (thr k)).toNat = l.length + (reads x).toNat := by
  have hk := h.mem k
  refine ⟨_,h.enroll k x,?_⟩
  generalize reads (thr k) = r at hk
  cases r with
  | false => cases reads x <;> simp [Foundation.enroll]
  | true =>
    have hpos := List.length_pos_of_mem (hk.mpr rfl)
    cases reads x with
    | true => simp [Foundation.enroll]
    | false =>
      simp only [Foundation.enroll,List.length_erase_of_mem (hk.mpr rfl),Bool.toNat_true,Bool.toNat_false]
      omega

end Readers

section Permits
variable {ι : Type*} [Fintype ι]

def holders (has : ι → Bool) : ℕ := (Finset.univ.filter fun i => has i = true).card

theorem holders_pos {has : ι → Bool} : 0 < holders has ↔ ∃ i, has i = true := by
  simp [holders,Finset.card_pos,Finset.filter_nonempty_iff]

variable [DecidableEq ι]

theorem holders_erase (has : ι → Bool) (i : ι) :
    holders has = (has i).toNat + ∑ j ∈ Finset.univ.erase i, (has j).toNat := by
  rw [Finset.add_sum_erase _ (fun j => (has j).toNat) (Finset.mem_univ i),holders,Finset.card_filter]
  exact Finset.sum_congr rfl fun j _ => by cases has j <;> rfl

theorem holders_update (has : ι → Bool) (i : ι) (b : Bool) :
    holders (Function.update has i b) + (has i).toNat = holders has + b.toNat := by
  have hrest : ∑ j ∈ Finset.univ.erase i, (Function.update has i b j).toNat =
      ∑ j ∈ Finset.univ.erase i, (has j).toNat :=
    Finset.sum_congr rfl fun j hj => by rw [Function.update_of_ne (Finset.ne_of_mem_erase hj)]
  rw [holders_erase has i,holders_erase (Function.update has i b) i,hrest,Function.update_self]
  omega

/-- The counter, of `modulus` many values, after one owner went from `before` to `after`. -/
def tally (modulus : ℕ) (before after : Bool) (n : ℕ) : ℕ :=
  match before, after with
  | false, true => (n + 1) % modulus
  | true, false => (n + (modulus - 1)) % modulus
  | _, _ => n

theorem tally_holders {modulus : ℕ} (hm : Fintype.card ι < modulus) (has : ι → Bool) (i : ι) (b : Bool) :
    tally modulus (has i) b (holders has) = holders (Function.update has i b) := by
  have hu := holders_update has i b
  have hle : holders (Function.update has i b) ≤ Fintype.card ι := Finset.card_le_univ _
  generalize has i = a at hu
  cases a <;> cases b <;> simp only [tally,Bool.toNat_true,Bool.toNat_false] at hu ⊢
  · omega
  · rw [← hu]
    exact Nat.mod_eq_of_lt (by omega)
  · have he : holders has + (modulus - 1) = holders (Function.update has i false) + modulus := by omega
    rw [he,Nat.add_mod_right]
    exact Nat.mod_eq_of_lt (by omega)
  · omega

end Permits

end GraphileWorker.Foundation
