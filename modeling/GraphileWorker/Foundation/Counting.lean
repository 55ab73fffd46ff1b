import Mathlib.Data.List.Nodup
import Mathlib.Tactic.Common

/-! # Comparing two counts over one list

The count of a predicate grows by at least one if it gains an element and loses none, and by
at most one if what it gains has one given key.
-/
namespace GraphileWorker.Foundation
variable {α κ : Type*} {l : List α} {p q : α → Bool} {key : α → κ}

theorem countP_lt_countP (h : ∀ a ∈ l, p a = true → q a = true)
    (hx : ∃ a ∈ l, p a = false ∧ q a = true) : l.countP p < l.countP q := by
  induction l with
  | nil => simp at hx
  | cons b rest ih =>
    have hrest : ∀ a ∈ rest, p a = true → q a = true := fun a ha => h a (List.mem_cons_of_mem b ha)
    have hmono : rest.countP p ≤ rest.countP q := List.countP_mono_left hrest
    have hb := h b List.mem_cons_self
    obtain ⟨a,ha,hpa,hqa⟩ := hx
    rcases List.mem_cons.mp ha with rfl | ha
    · rw [List.countP_cons_of_neg (by simp [hpa]),List.countP_cons_of_pos hqa]
      omega
    · have hlt := ih hrest ⟨a,ha,hpa,hqa⟩
      rw [List.countP_cons,List.countP_cons]
      cases hp : p b with
      | false =>
        rw [if_neg Bool.false_ne_true]
        split <;> omega
      | true =>
        rw [hb hp]
        simpa using hlt

theorem countP_le_add {r : α → Bool} (h : ∀ a ∈ l, p a = true → q a = true ∨ r a = true) :
    l.countP p ≤ l.countP q + l.countP r := by
  induction l with
  | nil => simp
  | cons b rest ih =>
    have hrest := ih fun a ha => h a (List.mem_cons_of_mem b ha)
    have hb := h b List.mem_cons_self
    rw [List.countP_cons,List.countP_cons,List.countP_cons]
    cases hp : p b with
    | false =>
      simp only [Bool.false_eq_true,if_false]
      omega
    | true =>
      rcases hb hp with hq | hr
      · simp only [hq,if_true]
        omega
      · simp only [hr,if_true]
        omega

theorem countP_key_le_one [DecidableEq κ] (h : (l.map key).Nodup) (k : κ) : l.countP (fun a => key a == k) ≤ 1 := by
  have hc : (l.map key).count k ≤ 1 := List.nodup_iff_count_le_one.mp h k
  rwa [List.count_eq_countP,List.countP_map] at hc

theorem countP_le_succ [DecidableEq κ] (hn : (l.map key).Nodup) {k : κ}
    (h : ∀ a ∈ l, p a = true → q a = true ∨ key a = k) : l.countP p ≤ l.countP q + 1 := by
  have hadd : l.countP p ≤ l.countP q + l.countP fun a => key a == k :=
    countP_le_add fun a ha hp => (h a ha hp).imp_right fun hk => by simp [hk]
  have hone := countP_key_le_one hn k
  omega

end GraphileWorker.Foundation
