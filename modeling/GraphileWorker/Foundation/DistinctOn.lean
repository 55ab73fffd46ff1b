import Mathlib.Data.List.Nodup
import Mathlib.Data.List.Sort
import Mathlib.Tactic.Common

/-! # `SELECT DISTINCT ON`

Of all rows with one key the first in the given order is kept.
-/
namespace GraphileWorker.Foundation
variable {α κ : Type*} [DecidableEq κ] (key : α → κ) {l : List α}

def distinctOn : List α → List α
  | [] => []
  | a :: rest => a :: (distinctOn rest).filter fun b => key b ≠ key a

theorem distinctOn_cons (a : α) (rest : List α) :
    distinctOn key (a :: rest) = a :: (distinctOn key rest).filter fun b => key b ≠ key a := rfl

theorem distinctOn_sublist (l : List α) : (distinctOn key l).Sublist l := by
  induction l with
  | nil => exact .slnil
  | cons a rest ih => exact (List.filter_sublist.trans ih).cons_cons a

theorem mem_of_mem_distinctOn {a : α} (h : a ∈ distinctOn key l) : a ∈ l :=
  (distinctOn_sublist key l).subset h

theorem nodup_distinctOn (l : List α) : ((distinctOn key l).map key).Nodup := by
  induction l with
  | nil => exact List.nodup_nil
  | cons a rest ih =>
    rw [distinctOn_cons,List.map_cons]
    refine List.nodup_cons.mpr ⟨?_,ih.sublist (List.filter_sublist.map _)⟩
    intro h
    obtain ⟨b,hb,he⟩ := List.mem_map.mp h
    have := (List.mem_filter.mp hb).2
    simp [he] at this

theorem eq_of_mem_distinctOn {a b : α} (ha : a ∈ distinctOn key l)
    (hb : b ∈ distinctOn key l) (h : key a = key b) : a = b :=
  List.inj_on_of_nodup_map (nodup_distinctOn key l) ha hb h

theorem exists_mem_distinctOn {le : α → α → Prop} (hl : l.Pairwise le) {b : α} (hb : b ∈ l) :
    ∃ a ∈ distinctOn key l, key a = key b ∧ (a = b ∨ le a b) := by
  induction l with
  | nil => exact absurd hb List.not_mem_nil
  | cons x rest ih =>
    obtain ⟨hx,hrest⟩ := List.pairwise_cons.mp hl
    rw [distinctOn_cons]
    rcases List.mem_cons.mp hb with rfl | hb
    · exact ⟨b,List.mem_cons_self ..,rfl,.inl rfl⟩
    · obtain ⟨a,ha,hk,hle⟩ := ih hrest hb
      by_cases he : key a = key x
      · exact ⟨x,List.mem_cons_self ..,he.symm.trans hk,.inr (hx b hb)⟩
      · exact ⟨a,List.mem_cons_of_mem x (List.mem_filter.mpr ⟨ha,by simpa using he⟩),hk,hle⟩

end GraphileWorker.Foundation
