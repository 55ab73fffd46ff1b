import GraphileWorker.Foundation.IdTable
import Mathlib.Logic.Function.Basic

/-! # Locks and private versions of open transactions

Any number of transactions write a table at a time; one that excludes writers has it for
itself. What a transaction has written is laid over the committed rows until it ends.
-/
namespace GraphileWorker.Foundation

/-- ROW EXCLUSIVE locks do not conflict with each other; a SHARE ROW EXCLUSIVE lock
conflicts with both modes. -/
structure TableLocks (K T : Type*) where
  rowExclusive : K → List T := fun _ => []
  shareRowExclusive : K → Option T := fun _ => none

namespace TableLocks
variable {K T : Type*} [DecidableEq T] (l : TableLocks K T) (t : T) (k : K)

def admitsRow : Bool := (l.shareRowExclusive k).all (· == t)

def admitsShare : Bool := (l.rowExclusive k).all (· == t) && (l.shareRowExclusive k).all (· == t)

def takeRow [DecidableEq K] : TableLocks K T :=
  { l with rowExclusive := Function.update l.rowExclusive k (t :: l.rowExclusive k) }

def takeShare [DecidableEq K] : TableLocks K T :=
  { l with shareRowExclusive := Function.update l.shareRowExclusive k (some t) }

def release : TableLocks K T where
  rowExclusive k := (l.rowExclusive k).filter (· != t)
  shareRowExclusive k := (l.shareRowExclusive k).filter (· != t)

omit [DecidableEq T] in
/-- No other transaction writes a table that one has for itself. -/
def Exclusive : Prop := ∀ k t, l.shareRowExclusive k = some t → ∀ u ∈ l.rowExclusive k, u = t

variable {l t k} {u : T} {k' : K}

section Take
variable [DecidableEq K]

omit [DecidableEq T] in
theorem mem_takeRow : u ∈ (l.takeRow t k).rowExclusive k' ↔ (k' = k ∧ u = t) ∨ u ∈ l.rowExclusive k' := by
  unfold takeRow
  by_cases hk : k' = k
  · subst hk
    simp
  · simp [hk]

theorem exclusive_takeRow (h : l.Exclusive) (ha : l.admitsRow t k = true) : (l.takeRow t k).Exclusive := by
  intro k' v hv u hu
  rcases mem_takeRow.mp hu with ⟨rfl,rfl⟩ | hu
  · have hone : (some v : Option T).all (· == u) = true := hv ▸ ha
    have hvu : v = u := by simpa using hone
    exact hvu.symm
  · exact h k' v hv u hu

theorem exclusive_takeShare (h : l.Exclusive) (ha : l.admitsShare t k = true) : (l.takeShare t k).Exclusive := by
  intro k' v hv u hu
  by_cases hk : k' = k
  · subst hk
    have hvt : v = t := by simpa [takeShare] using hv.symm
    have hrows := List.all_eq_true.mp (Bool.and_eq_true_iff.mp ha).1 u hu
    rw [hvt]
    exact eq_of_beq hrows
  · have hv' : l.shareRowExclusive k' = some v := by simpa [takeShare,hk] using hv
    exact h k' v hv' u hu

theorem share_takeShare (ha : l.admitsShare t k = true) (h : l.shareRowExclusive k' = some u) :
    (l.takeShare t k).shareRowExclusive k' = some u := by
  by_cases hk : k' = k
  · subst hk
    have hall := (Bool.and_eq_true_iff.mp ha).2
    rw [h] at hall
    have hut : u = t := by simpa using hall
    simp [takeShare,hut]
  · simpa [takeShare,hk] using h

end Take

theorem mem_release (h : u ≠ t) : u ∈ (l.release t).rowExclusive k ↔ u ∈ l.rowExclusive k := by
  simp [release,h]

theorem share_release (h : u ≠ t) (hu : l.shareRowExclusive k = some u) :
    (l.release t).shareRowExclusive k = some u := by
  simp [release,hu,h]

theorem exclusive_release (h : l.Exclusive) : (l.release t).Exclusive := by
  intro k v hv u hu
  have hv' : l.shareRowExclusive k = some v := (Option.filter_eq_some_iff.mp hv).1
  exact h k v hv' u (List.mem_filter.mp hu).1

end TableLocks

section Holders
variable {K T : Type*} [DecidableEq K] [DecidableEq T]

def freeFor (h : K → Option T) (t : T) (ks : List K) : Bool := ks.all fun k => (h k).all (· == t)

def seize (h : K → Option T) (t : T) (ks : List K) (k : K) : Option T := if ks.contains k then some t else h k

def vacate (h : K → Option T) (t : T) (k : K) : Option T := (h k).filter (· != t)

variable {h : K → Option T} {t u : T} {ks : List K} {k : K}

omit [DecidableEq T] in
theorem seize_of_mem (hk : k ∈ ks) : seize h t ks k = some t := by simp [seize,hk]

theorem seize_of_held (hf : freeFor h t ks = true) (hk : h k = some u) : seize h t ks k = some u := by
  unfold seize
  split
  · next hc =>
    have hall := List.all_eq_true.mp hf k (List.contains_iff_mem.mp hc)
    rw [hk] at hall
    have hut : u = t := by simpa using hall
    rw [hut]
  · exact hk

omit [DecidableEq K] in
theorem vacate_of_held (hu : u ≠ t) (hk : h k = some u) : vacate h t k = some u := by simp [vacate,hk,hu]

end Holders

namespace IdTable
variable {α : Type*} [RowId α]

theorem map_rowId_filterMap_sublist {f : α → Option α} (hf : ∀ r s, f r = some s → rowId s = rowId r) (l : List α) :
    ((l.filterMap f).map rowId).Sublist (l.map rowId) := by
  induction l with
  | nil => exact .slnil
  | cons r rest ih =>
    rw [List.filterMap_cons]
    cases h : f r with
    | none => exact ih.cons _
    | some s =>
      rw [List.map_cons,List.map_cons,hf r s h]
      exact ih.cons_cons _

def version (u : IdTable α) (written : List ℕ) (r : α) : Option α :=
  if written.contains (rowId r) then u.find (rowId r) else some r

theorem version_eq_some {u : IdTable α} {written : List ℕ} {r s : α} : version u written r = some s ↔
    (rowId r ∉ written ∧ r = s) ∨ (rowId r ∈ written ∧ s ∈ u.rows ∧ rowId s = rowId r) := by
  unfold version
  by_cases h : rowId r ∈ written
  · simp [h,find_eq_some]
  · simp [h]

theorem rowId_version {u : IdTable α} {written : List ℕ} (r s : α) (h : version u written r = some s) :
    rowId s = rowId r := by
  rcases version_eq_some.mp h with ⟨-,rfl⟩ | ⟨-,-,he⟩
  · rfl
  · exact he

/-- The rows of `t`, those with one of the identities taken from `u` instead. -/
def overlay (t u : IdTable α) (written : List ℕ) : IdTable α where
  rows := t.rows.filterMap (version u written) ++
    u.rows.filter fun r => written.contains (rowId r) && (t.find (rowId r)).isNone
  next := max t.next u.next
  nodup := by
    rw [List.map_append,List.nodup_append]
    refine ⟨t.nodup.sublist (map_rowId_filterMap_sublist rowId_version _),
      u.nodup.sublist (List.filter_sublist.map _),?_⟩
    rintro i hi j hj rfl
    obtain ⟨r,hr,hri⟩ := List.mem_map.mp ((map_rowId_filterMap_sublist rowId_version _).subset hi)
    obtain ⟨s,hs,rfl⟩ := List.mem_map.mp hj
    have hnone := (Bool.and_eq_true_iff.mp (List.mem_filter.mp hs).2).2
    rw [find_eq_some.mpr ⟨hr,hri⟩] at hnone
    cases hnone
  lt_next := by
    intro r hr
    rcases List.mem_append.mp hr with hr | hr
    · obtain ⟨s,hs,he⟩ := List.mem_filterMap.mp hr
      rw [rowId_version s r he]
      exact (t.lt_next s hs).trans_le (le_max_left _ _)
    · exact (u.lt_next r (List.mem_filter.mp hr).1).trans_le (le_max_right _ _)

/-- Values of a sequence are drawn for good, whatever becomes of the transaction. -/
def advance (t : IdTable α) (n : ℕ) : IdTable α where
  rows := t.rows
  next := max t.next n
  nodup := t.nodup
  lt_next := fun r hr => (t.lt_next r hr).trans_le (le_max_left _ _)

variable {t u : IdTable α} {written : List ℕ} {r : α}

theorem mem_overlay : r ∈ (t.overlay u written).rows ↔
    (rowId r ∉ written ∧ r ∈ t.rows) ∨ (rowId r ∈ written ∧ r ∈ u.rows) := by
  simp only [overlay,List.mem_append,List.mem_filterMap,List.mem_filter,version_eq_some,Bool.and_eq_true,
    List.contains_iff_mem,Option.isNone_iff_eq_none]
  constructor
  · rintro (⟨s,hs,⟨hw,rfl⟩ | ⟨hw,hr,he⟩⟩ | ⟨hr,hw,-⟩)
    · exact .inl ⟨hw,hs⟩
    · exact .inr ⟨he ▸ hw,hr⟩
    · exact .inr ⟨hw,hr⟩
  · rintro (⟨hw,hr⟩ | ⟨hw,hr⟩)
    · exact .inl ⟨r,hr,.inl ⟨hw,rfl⟩⟩
    · cases hf : t.find (rowId r) with
      | none => exact .inr ⟨hr,hw,rfl⟩
      | some s =>
        obtain ⟨hs,he⟩ := find_eq_some.mp hf
        exact .inl ⟨s,hs,.inr ⟨he ▸ hw,hr,he.symm⟩⟩

end IdTable
end GraphileWorker.Foundation
