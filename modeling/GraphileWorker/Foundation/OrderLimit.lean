import Mathlib.Data.List.Sort
import Mathlib.Data.List.Perm.Basic
import Mathlib.Tactic.Common

/-! # `ORDER BY ... LIMIT`

A database is free in how it puts rows that the order does not separate. So a result is any
initial part of any sorted arrangement of the rows.
-/
namespace GraphileWorker.Foundation
variable {α : Type*} {le : α → α → Prop} {n : ℕ} {rows result : List α}

def OrderLimit (le : α → α → Prop) (n : ℕ) (rows result : List α) : Prop :=
  ∃ sorted : List α, sorted.Perm rows ∧ sorted.Pairwise le ∧ result = sorted.take n

theorem orderLimit_insertionSort [DecidableRel le] [Std.Total le] [IsTrans α le] (n : ℕ) (rows : List α) :
    OrderLimit le n rows ((rows.insertionSort le).take n) :=
  ⟨rows.insertionSort le,List.perm_insertionSort le rows,List.pairwise_insertionSort le rows,rfl⟩

theorem orderLimit_one [Std.Total le] [IsTrans α le] {a : α} (ha : a ∈ rows) (hle : ∀ b ∈ rows, le a b) :
    OrderLimit le 1 rows [a] := by
  classical
  obtain ⟨s,t,rfl⟩ := List.append_of_mem ha
  have hperm := List.perm_insertionSort le (s ++ t)
  refine ⟨a :: (s ++ t).insertionSort le,(hperm.cons a).trans List.perm_middle.symm,?_,rfl⟩
  refine List.pairwise_cons.mpr ⟨fun b hb => hle b ?_,List.pairwise_insertionSort le _⟩
  exact List.perm_middle.mem_iff.mpr (List.mem_cons_of_mem a (hperm.mem_iff.mp hb))

namespace OrderLimit

variable (h : OrderLimit le n rows result)
include h

theorem mem {a : α} (ha : a ∈ result) : a ∈ rows := by
  obtain ⟨sorted,hp,-,rfl⟩ := h
  exact hp.mem_iff.mp (List.mem_of_mem_take ha)

theorem nodup (hn : rows.Nodup) : result.Nodup := by
  obtain ⟨sorted,hp,-,rfl⟩ := h
  exact (hp.nodup_iff.mpr hn).sublist (List.take_sublist n sorted)

theorem length_eq : result.length = min n rows.length := by
  obtain ⟨sorted,hp,-,rfl⟩ := h
  rw [List.length_take,hp.length_eq]

theorem le_of_not_mem {a b : α} (ha : a ∈ result) (hb : b ∈ rows)
    (hn : b ∉ result) : le a b := by
  obtain ⟨sorted,hp,hs,rfl⟩ := h
  have hcut : sorted.take n ++ sorted.drop n = sorted := List.take_append_drop n sorted
  have hmem : b ∈ sorted.take n ++ sorted.drop n := by
    rw [hcut]
    exact hp.mem_iff.mpr hb
  have hdrop : b ∈ sorted.drop n := (List.mem_append.mp hmem).resolve_left hn
  rw [← hcut] at hs
  exact (List.pairwise_append.mp hs).2.2 a ha b hdrop

theorem room [DecidableRel le] [Std.Total le] (hn : rows.Nodup) {a : α}
    (ha : a ∈ result) : (rows.filter fun b => ¬le a b).length < n := by
  have haa : le a a := (Std.Total.total a a).elim id id
  have hnodup : (a :: rows.filter fun b => ¬le a b).Nodup :=
    List.nodup_cons.mpr ⟨by simp [haa],hn.sublist List.filter_sublist⟩
  -- the rows strictly before a row of the result are in the result
  have hsub : a :: (rows.filter fun b => ¬le a b) ⊆ result := by
    intro b hb
    rcases List.mem_cons.mp hb with rfl | hb
    · exact ha
    · obtain ⟨hb,hlt⟩ := List.mem_filter.mp hb
      exact by_contra fun hnot => of_decide_eq_true hlt (h.le_of_not_mem ha hb hnot)
  have hlen := (List.subperm_of_subset hnodup hsub).length_le
  rw [List.length_cons,h.length_eq] at hlen
  omega

end OrderLimit

theorem exists_orderLimit_mem [DecidableRel le] [Std.Total le] [IsTrans α le] {a : α} (ha : a ∈ rows)
    (hn : (rows.filter fun b => ¬le a b).length < n) : ∃ result, OrderLimit le n rows result ∧ a ∈ result := by
  have haa : le a a := (Std.Total.total a a).elim id id
  obtain ⟨later,hperm,hsorted,htake⟩ : OrderLimit le 1 (rows.filter fun b => le a b) [a] :=
    orderLimit_one (List.mem_filter.mpr ⟨ha,decide_eq_true haa⟩) fun b hb => of_decide_eq_true (List.mem_filter.mp hb).2
  obtain ⟨tail,rfl⟩ : ∃ tail, later = a :: tail := by
    cases later with
    | nil => cases htake
    | cons x tail => exact ⟨tail,by rw [List.head_eq_of_cons_eq htake]⟩
  have hbefore := List.perm_insertionSort le (rows.filter fun b => ¬le a b)
  refine ⟨_,⟨(rows.filter fun b => ¬le a b).insertionSort le ++ a :: tail,?_,?_,rfl⟩,?_⟩
  · refine (hbefore.append hperm).trans (List.perm_append_comm.trans ?_)
    simpa using List.filter_append_perm (fun b => decide (le a b)) rows
  · refine List.pairwise_append.mpr ⟨List.pairwise_insertionSort le _,hsorted,fun x hx y hy => ?_⟩
    have hxa : ¬le a x := of_decide_eq_true (List.mem_filter.mp (hbefore.mem_iff.mp hx)).2
    have hay : le a y := of_decide_eq_true (List.mem_filter.mp (hperm.mem_iff.mp hy)).2
    exact IsTrans.trans x a y ((Std.Total.total x a).resolve_right hxa) hay
  · rw [List.take_append,List.mem_append]
    right
    rw [List.length_insertionSort,List.take_cons (by omega)]
    exact List.mem_cons_self

end GraphileWorker.Foundation
