import Mathlib.Data.List.Nodup
import Mathlib.Data.List.Find
import Mathlib.Tactic.Common

/-! # Tables with a generated primary key

A list of rows with pairwise distinct identities below the next value of the sequence. The
two facts are fields. Row order is the physical order and carries no meaning.
-/
namespace GraphileWorker.Foundation

class RowId (α : Type*) where
  rowId : α → ℕ

export RowId (rowId)

structure IdTable (α : Type*) [RowId α] where
  rows : List α
  next : ℕ
  nodup : (rows.map rowId).Nodup
  lt_next : ∀ r ∈ rows, rowId r < next

namespace IdTable
variable {α : Type*} [RowId α]

@[ext] theorem ext {s t : IdTable α} (hr : s.rows = t.rows) (hn : s.next = t.next) : s = t := by
  cases s
  cases t
  cases hr
  cases hn
  rfl

instance [DecidableEq α] : DecidableEq (IdTable α) := fun s t =>
  decidable_of_iff (s.rows = t.rows ∧ s.next = t.next)
    ⟨fun h => ext h.1 h.2,fun h => h ▸ ⟨rfl,rfl⟩⟩

/-- An identity column starts counting at one. -/
def empty : IdTable α where
  rows := []
  next := 1
  nodup := List.nodup_nil
  lt_next := by simp

def find (t : IdTable α) (i : ℕ) : Option α := t.rows.find? (fun r => rowId r = i)

theorem eq_of_rowId {t : IdTable α} {r s : α} (hr : r ∈ t.rows) (hs : s ∈ t.rows)
    (h : rowId r = rowId s) : r = s := List.inj_on_of_nodup_map t.nodup hr hs h

theorem find_eq_some {t : IdTable α} {i : ℕ} {r : α} :
    t.find i = some r ↔ r ∈ t.rows ∧ rowId r = i := by
  constructor
  · intro h
    exact ⟨List.mem_of_find?_eq_some h,by simpa using List.find?_some h⟩
  · rintro ⟨hr,rfl⟩
    have hs : (t.find (rowId r)).isSome := List.find?_isSome.mpr ⟨r,hr,by simp⟩
    obtain ⟨s,hs⟩ := Option.isSome_iff_exists.mp hs
    have he : rowId s = rowId r := by simpa using List.find?_some hs
    rw [hs,eq_of_rowId (List.mem_of_find?_eq_some hs) hr he]

theorem find_next (t : IdTable α) {i : ℕ} (h : t.next ≤ i) : t.find i = none := by
  cases hf : t.find i with
  | none => rfl
  | some r =>
    obtain ⟨hr,rfl⟩ := find_eq_some.mp hf
    exact absurd (t.lt_next r hr) (by omega)

/-- `UPDATE ... SET ... WHERE`; the assignment may not touch the key. -/
def updateWhere (t : IdTable α) (p : α → Bool) (f : α → α)
    (hf : ∀ r, rowId (f r) = rowId r) : IdTable α where
  rows := t.rows.map fun r => if p r then f r else r
  next := t.next
  nodup := by
    have h : (fun r => rowId (if p r then f r else r)) = (rowId : α → ℕ) := by
      funext r
      split <;> simp [hf]
    simpa only [List.map_map,Function.comp_def,h] using t.nodup
  lt_next := by
    intro r hr
    obtain ⟨s,hs,rfl⟩ := List.mem_map.mp hr
    have := t.lt_next s hs
    split <;> simpa [hf] using this

def deleteWhere (t : IdTable α) (p : α → Bool) : IdTable α where
  rows := t.rows.filter fun r => !p r
  next := t.next
  nodup := t.nodup.sublist (List.filter_sublist.map _)
  lt_next := fun r hr => t.lt_next r (List.mem_filter.mp hr).1

/-- `INSERT` of one row, which takes the next value of the sequence. -/
def insert (t : IdTable α) (mk : ℕ → α) (hmk : ∀ n, rowId (mk n) = n) : IdTable α where
  rows := t.rows ++ [mk t.next]
  next := t.next + 1
  nodup := by
    simp only [List.map_append,List.map_singleton,hmk]
    refine List.nodup_append.mpr ⟨t.nodup,List.nodup_singleton _,?_⟩
    intro i hi j hj
    obtain ⟨r,hr,rfl⟩ := List.mem_map.mp hi
    have := t.lt_next r hr
    have := List.mem_singleton.mp hj
    omega
  lt_next := by
    intro r hr
    rcases List.mem_append.mp hr with hr | hr
    · exact (t.lt_next r hr).trans (Nat.lt_succ_self _)
    · rw [List.mem_singleton.mp hr,hmk]
      exact Nat.lt_succ_self _

/-- A value of the sequence that no row keeps. -/
def skip (t : IdTable α) : IdTable α where
  rows := t.rows
  next := t.next + 1
  nodup := t.nodup
  lt_next := fun r hr => (t.lt_next r hr).trans (Nat.lt_succ_self _)

variable (t : IdTable α) (p : α → Bool) (f : α → α) (hf : ∀ r, rowId (f r) = rowId r)

@[simp] theorem find_updateWhere (i : ℕ) :
    (t.updateWhere p f hf).find i = (t.find i).map fun r => if p r then f r else r := by
  unfold find updateWhere
  dsimp only
  rw [List.find?_map]
  congr 2
  funext r
  dsimp only [Function.comp_apply]
  split <;> simp [hf]

theorem updateWhere_none (h : ∀ r ∈ t.rows, p r = false) : t.updateWhere p f hf = t := by
  ext1
  · exact (List.map_congr_left fun r hr => by simp [h r hr]).trans (List.map_id _)
  · rfl

theorem updateWhere_updateWhere {q r : α → Bool} {g k : α → α} (hg : ∀ a, rowId (g a) = rowId a)
    (hk : ∀ a, rowId (k a) = rowId a)
    (h : ∀ a ∈ t.rows, (let b := if p a then f a else a; if q b then g b else b) = if r a then k a else a) :
    (t.updateWhere p f hf).updateWhere q g hg = t.updateWhere r k hk := by
  ext1
  · refine (List.map_map ..).trans (List.map_congr_left ?_)
    exact h
  · rfl

@[simp] theorem find_deleteWhere (i : ℕ) :
    (t.deleteWhere p).find i = (t.find i).filter fun r => !p r := by
  cases h : t.find i with
  | none =>
    cases h' : (t.deleteWhere p).find i with
    | none => rfl
    | some s =>
      obtain ⟨hs,hi⟩ := find_eq_some.mp h'
      have := find_eq_some.mpr ⟨(List.mem_filter.mp hs).1,hi⟩
      exact absurd (h.symm.trans this) (by simp)
  | some r =>
    obtain ⟨hr,hi⟩ := find_eq_some.mp h
    cases hp : p r with
    | false =>
      have hm : r ∈ (t.deleteWhere p).rows := List.mem_filter.mpr ⟨hr,by simp [hp]⟩
      simpa [Option.filter,hp] using find_eq_some.mpr ⟨hm,hi⟩
    | true =>
      cases h' : (t.deleteWhere p).find i with
      | none => simp [Option.filter,hp]
      | some s =>
        obtain ⟨hs,hsi⟩ := find_eq_some.mp h'
        obtain ⟨hs,hps⟩ := List.mem_filter.mp hs
        rw [eq_of_rowId hs hr (hsi.trans hi.symm)] at hps
        simp [hp] at hps

@[simp] theorem find_insert (mk : ℕ → α) (hmk : ∀ n, rowId (mk n) = n) (i : ℕ) :
    (t.insert mk hmk).find i = if i = t.next then some (mk t.next) else t.find i := by
  by_cases h : i = t.next
  · subst h
    rw [if_pos rfl]
    exact find_eq_some.mpr ⟨List.mem_append_right _ (List.mem_singleton_self _),hmk _⟩
  · rw [if_neg h]
    have hn : ¬ rowId (mk t.next) = i := by rw [hmk]; exact fun h' => h h'.symm
    simp [find,insert,List.find?_append,hn]

end IdTable
end GraphileWorker.Foundation
