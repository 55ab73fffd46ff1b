import GraphileWorker.Foundation.IdTable
import Mathlib.Data.List.Perm.Basic
import Mathlib.Logic.Equiv.Defs

/-! # Tables with a column of names

A missing name gets a new row under the next identity. Adding names in two orders gives the
same table up to a permutation of the identities handed out.
-/
namespace GraphileWorker.Foundation

/-- How rows are named, and the row that a missing name gets. -/
structure NameColumn (α β : Type*) [RowId α] where
  name : α → β
  newRow : β → ℕ → α
  rowId_newRow : ∀ x n, rowId (newRow x n) = n
  name_newRow : ∀ x n, name (newRow x n) = x

section Exchange
variable {β : Type*} [BEq β] [LawfulBEq β] {xs ys : List β} {n : ℕ}

theorem map_zipIdx {γ : Type*} (hx : xs.Nodup) (g : β → ℕ → γ) :
    (xs.zipIdx n).map (fun p => g p.1 p.2) = xs.map fun x => g x (n + xs.idxOf x) := by
  apply List.ext_getElem
  · simp
  · intro i h₁ h₂
    have hi : i < xs.length := by simpa using h₂
    simp [hx.idxOf_getElem i hi]

end Exchange

namespace NameColumn
variable {α β : Type*} [RowId α] [BEq β] [LawfulBEq β] (c : NameColumn α β)

def idOf (t : IdTable α) (x : β) : Option ℕ := (t.rows.find? fun r => c.name r == x).map rowId

/-- `INSERT ... ON CONFLICT DO NOTHING` of one name. -/
def register (t : IdTable α) (x : β) : IdTable α :=
  if (c.idOf t x).isSome then t else t.insert (c.newRow x) (c.rowId_newRow x)

def registerAll (t : IdTable α) (xs : List β) : IdTable α := xs.foldl c.register t

def newRows (n : ℕ) (xs : List β) : List α := (xs.zipIdx n).map fun p => c.newRow p.1 p.2

/-- The second table is the first one with a new row for each of the names. -/
structure Grown (t t' : IdTable α) (fresh : List β) : Prop where
  rows : t'.rows = t.rows ++ c.newRows t.next fresh
  next : t'.next = t.next + fresh.length
  nodup : fresh.Nodup
  missing : ∀ x ∈ fresh, c.idOf t x = none

variable {c} {t t' a b : IdTable α} {fresh xs ys : List β} {x : β}

theorem find_newRows {n : ℕ} (hx : x ∈ xs) :
    ((c.newRows n xs).find? fun r => c.name r == x).map rowId = some (n + xs.idxOf x) := by
  induction xs generalizing n with
  | nil => cases hx
  | cons y rest ih =>
    rw [newRows,List.zipIdx_cons,List.map_cons,List.find?_cons,c.name_newRow,List.idxOf_cons]
    by_cases hy : y = x
    · simp [hy,c.rowId_newRow]
    · have hyx : (y == x) = false := by simpa using hy
      have hrest := ih (n := n + 1) ((List.mem_cons.mp hx).resolve_left (Ne.symm hy))
      rw [hyx]
      simp only [cond_false]
      rw [newRows] at hrest
      rw [hrest]
      congr 1
      omega

theorem find_newRows_none {n : ℕ} (hx : x ∉ xs) : ((c.newRows n xs).find? fun r => c.name r == x) = none := by
  rw [List.find?_eq_none]
  intro r hr
  obtain ⟨p,hp,rfl⟩ := List.mem_map.mp hr
  have hmem : p.1 ∈ xs := List.fst_mem_of_mem_zipIdx hp
  rw [c.name_newRow]
  intro he
  exact hx (eq_of_beq he ▸ hmem)

namespace Grown

omit [LawfulBEq β] in
theorem refl (t : IdTable α) : c.Grown t t [] where
  rows := by simp [newRows]
  next := rfl
  nodup := List.nodup_nil
  missing := nofun

section Growth
variable (h : c.Grown t t' fresh)
include h

omit [LawfulBEq β] in
theorem idOf_eq (x : β) : c.idOf t' x =
    (c.idOf t x).or (((c.newRows t.next fresh).find? fun r => c.name r == x).map rowId) := by
  rw [idOf,h.rows,List.find?_append,idOf]
  cases t.rows.find? fun r => c.name r == x with
  | none => rfl
  | some r => rfl

omit [LawfulBEq β] in
theorem idOf_old {i : ℕ} (hx : c.idOf t x = some i) : c.idOf t' x = some i := by
  rw [h.idOf_eq,hx,Option.some_or]

theorem idOf_fresh (hx : x ∈ fresh) : c.idOf t' x = some (t.next + fresh.idxOf x) := by
  rw [h.idOf_eq,h.missing x hx,Option.none_or,find_newRows hx]

theorem idOf_none (hx : x ∉ fresh) (hn : c.idOf t x = none) : c.idOf t' x = none := by
  rw [h.idOf_eq,hn,Option.none_or,find_newRows_none hx,Option.map_none]

theorem register (x : β) : ∃ fresh', c.Grown t (c.register t' x) fresh' ∧
    ∀ y, y ∈ fresh' ↔ y ∈ fresh ∨ (y = x ∧ c.idOf t x = none) := by
  cases hx : c.idOf t' x with
  | some i =>
    have hstay : c.register t' x = t' := by rw [NameColumn.register,hx,Option.isSome_some,if_pos rfl]
    refine ⟨fresh,by rwa [hstay],fun y => ⟨.inl,?_⟩⟩
    rintro (hy | ⟨rfl,hn⟩)
    · exact hy
    · by_contra hy
      rw [h.idOf_none hy hn] at hx
      cases hx
  | none =>
    have hadd : c.register t' x = t'.insert (c.newRow x) (c.rowId_newRow x) := by
      rw [NameColumn.register,hx,Option.isSome_none,if_neg Bool.false_ne_true]
    have hold : c.idOf t x = none := by
      cases hi : c.idOf t x with
      | none => rfl
      | some i =>
        rw [h.idOf_old hi] at hx
        cases hx
    have hnew : x ∉ fresh := by
      intro hmem
      rw [h.idOf_fresh hmem] at hx
      cases hx
    refine ⟨fresh ++ [x],?_,fun y => by simp [hold]⟩
    rw [hadd]
    constructor
    · have hrows : (t'.insert (c.newRow x) (c.rowId_newRow x)).rows = t'.rows ++ [c.newRow x t'.next] := rfl
      rw [hrows,h.rows,h.next]
      simp [newRows,List.zipIdx_append]
    · simp [IdTable.insert,h.next,Nat.add_assoc]
    · rw [List.nodup_append]
      refine ⟨h.nodup,List.nodup_singleton x,?_⟩
      intro y hy z hz
      rw [List.mem_singleton.mp hz]
      rintro rfl
      exact hnew hy
    · intro y hy
      rcases List.mem_append.mp hy with hy | hy
      · exact h.missing y hy
      · rw [List.mem_singleton.mp hy]
        exact hold

theorem registerAll (xs : List β) : ∃ fresh', c.Grown t (c.registerAll t' xs) fresh' ∧
    ∀ y, y ∈ fresh' ↔ y ∈ fresh ∨ (y ∈ xs ∧ c.idOf t y = none) := by
  induction xs generalizing t' fresh with
  | nil => exact ⟨fresh,h,by simp⟩
  | cons x rest ih =>
    obtain ⟨fresh₁,h₁,hmem₁⟩ := h.register x
    obtain ⟨fresh₂,h₂,hmem₂⟩ := ih h₁
    refine ⟨fresh₂,h₂,fun y => ?_⟩
    rw [hmem₂,hmem₁,List.mem_cons,or_assoc,or_and_right]
    constructor
    · rintro (hy | ⟨rfl,hn⟩ | hy)
      · exact .inl hy
      · exact .inr (.inl ⟨rfl,hn⟩)
      · exact .inr (.inr hy)
    · rintro (hy | ⟨rfl,hn⟩ | hy)
      · exact .inl hy
      · exact .inr (.inl ⟨rfl,hn⟩)
      · exact .inr (.inr hy)

theorem mem_rows {r : α} :
    r ∈ t'.rows ↔ r ∈ t.rows ∨ ∃ x ∈ fresh, r = c.newRow x (t.next + fresh.idxOf x) := by
  have hnew : c.newRows t.next fresh = fresh.map fun x => c.newRow x (t.next + fresh.idxOf x) :=
    map_zipIdx h.nodup c.newRow
  rw [h.rows,hnew,List.mem_append,List.mem_map]
  refine or_congr_right (exists_congr fun x => and_congr_right fun _ => ?_)
  exact eq_comm

theorem eq_of_name {r s : α} (hr : r ∈ t'.rows) (hn : t.next ≤ rowId r) (hs : s ∈ t'.rows)
    (he : c.name s = c.name r) : s = r := by
  rcases h.mem_rows.mp hr with hold | ⟨x,hx,rfl⟩
  · exact absurd (t.lt_next r hold) (by omega)
  · rw [c.name_newRow] at he
    rcases h.mem_rows.mp hs with hold | ⟨y,hy,rfl⟩
    · have hmissing := h.missing x hx
      rw [idOf,Option.map_eq_none_iff,List.find?_eq_none] at hmissing
      exact absurd (beq_of_eq he) (hmissing s hold)
    · rw [c.name_newRow] at he
      rw [he]

end Growth

end Grown

theorem exists_grown (t : IdTable α) (xs : List β) : ∃ fresh, c.Grown t (c.registerAll t xs) fresh ∧
    ∀ x, x ∈ fresh ↔ x ∈ xs ∧ c.idOf t x = none := by
  obtain ⟨fresh,h,hmem⟩ := (Grown.refl (c := c) t).registerAll xs
  exact ⟨fresh,h,fun x => by simpa using hmem x⟩

theorem isSome_idOf_registerAll : (c.idOf (c.registerAll t xs) x).isSome = true ↔
    (c.idOf t x).isSome = true ∨ x ∈ xs := by
  obtain ⟨fresh,hg,hmem⟩ := exists_grown (c := c) t xs
  cases hx : c.idOf t x with
  | some i => simp [hg.idOf_old hx]
  | none =>
    by_cases hf : x ∈ fresh
    · simp [hg.idOf_fresh hf,((hmem x).mp hf).1]
    · have hnot : x ∉ xs := fun hxs => hf ((hmem x).mpr ⟨hxs,hx⟩)
      simp [hg.idOf_none hf hx,hnot]

end NameColumn

end GraphileWorker.Foundation
