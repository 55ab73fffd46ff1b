import Mathlib.Logic.Function.Basic
import Mathlib.Tactic.Common

/-! # Open transactions over a table with a unique key

Rows of an open transaction are not visible to the others, but its keys are held: an insert of
a held key waits until the holder has ended.
-/
namespace GraphileWorker.Foundation

structure Tx (X L : Type*) where
  rows : List X := []
  log : List L := []
  deriving DecidableEq

/-- Committed rows and statements, the open transactions, and who holds a key. -/
structure TxStore (T X L K : Type*) where
  rows : List X := []
  log : List L := []
  active : T → Option (Tx X L) := fun _ => none
  holder : K → Option T := fun _ => none

inductive InsertOutcome (S : Type*)
  | blocked
  | duplicate
  | inserted (s : S)

namespace TxStore
variable {T X L K : Type*} [DecidableEq T] (key : X → K)

def begin (s : TxStore T X L K) (t : T) : TxStore T X L K :=
  { s with active := Function.update s.active t (some {}) }

def append (s : TxStore T X L K) (t : T) (l : L) : TxStore T X L K :=
  { s with active := Function.update s.active t ((s.active t).map fun tx => { tx with log := tx.log ++ [l] }) }

def insert [DecidableEq K] (s : TxStore T X L K) (t : T) (x : X) : InsertOutcome (TxStore T X L K) :=
  match s.holder (key x) with
  | some _ => .blocked
  | none =>
    if (s.rows.map key).contains (key x) then .duplicate
    else .inserted { s with
      active := Function.update s.active t ((s.active t).map fun tx => { tx with rows := tx.rows ++ [x] })
      holder := Function.update s.holder (key x) (some t) }

/-- Ends the transaction of `t` without its rows and statements. -/
def rollback (s : TxStore T X L K) (t : T) : TxStore T X L K :=
  { s with
    active := Function.update s.active t none
    holder := fun k => if s.holder k = some t then none else s.holder k }

def commit (s : TxStore T X L K) (t : T) : TxStore T X L K :=
  match s.active t with
  | none => s
  | some tx => { s with rows := s.rows ++ tx.rows, log := s.log ++ tx.log }.rollback t

/-- Every row of an open transaction has a key that is held for it and that no
committed row has. -/
def Exclusive (s : TxStore T X L K) : Prop :=
  ∀ t tx, s.active t = some tx → ∀ x ∈ tx.rows, s.holder (key x) = some t ∧ ∀ y ∈ s.rows, key y ≠ key x

variable {key} {s s' : TxStore T X L K} {t u : T} {tx : Tx X L}

theorem commit_eq (h : s.active t = some tx) :
    s.commit t = { s with rows := s.rows ++ tx.rows, log := s.log ++ tx.log }.rollback t := by
  simp only [commit,h]

theorem commit_rows (h : s.active t = some tx) : (s.commit t).rows = s.rows ++ tx.rows := by
  rw [commit_eq h]
  rfl

theorem commit_log (h : s.active t = some tx) : (s.commit t).log = s.log ++ tx.log := by
  rw [commit_eq h]
  rfl

@[simp] theorem begin_active_self : (s.begin t).active t = some {} := Function.update_self ..

@[simp] theorem begin_active_of_ne (h : u ≠ t) : (s.begin t).active u = s.active u := Function.update_of_ne h ..

@[simp] theorem append_active_self {l : L} :
    (s.append t l).active t = (s.active t).map fun tx => { tx with log := tx.log ++ [l] } := Function.update_self ..

@[simp] theorem append_active_of_ne {l : L} (h : u ≠ t) : (s.append t l).active u = s.active u :=
  Function.update_of_ne h ..

@[simp] theorem rollback_active_self : (s.rollback t).active t = none := Function.update_self ..

@[simp] theorem rollback_active_of_ne (h : u ≠ t) : (s.rollback t).active u = s.active u := Function.update_of_ne h ..

@[simp] theorem commit_active_self : (s.commit t).active t = none := by
  cases h : s.active t with
  | none => simp only [commit,h]
  | some tx => rw [commit_eq h,rollback_active_self]

@[simp] theorem commit_active_of_ne (h : u ≠ t) : (s.commit t).active u = s.active u := by
  unfold commit
  split
  · rfl
  · exact rollback_active_of_ne h

section
variable [DecidableEq K]

theorem insert_inserted {x : X} (h : s.insert key t x = .inserted s') :
    s.holder (key x) = none ∧ (∀ y ∈ s.rows, key y ≠ key x) ∧ s' = { s with
      active := Function.update s.active t ((s.active t).map fun tx => { tx with rows := tx.rows ++ [x] })
      holder := Function.update s.holder (key x) (some t) } := by
  unfold insert at h
  split at h
  · cases h
  · next hk =>
    split at h
    · cases h
    · next hc =>
      cases h
      refine ⟨hk,fun y hy he => hc ?_,rfl⟩
      rw [List.contains_iff_mem,← he]
      exact List.mem_map_of_mem hy

theorem insert_duplicate {x : X} (h : s.insert key t x = .duplicate) : ∃ y ∈ s.rows, key y = key x := by
  unfold insert at h
  split at h
  · cases h
  · split at h
    · next hc => exact List.mem_map.mp (List.contains_iff_mem.mp hc)
    · cases h

end

namespace Exclusive

variable (h : Exclusive key s)
include h

theorem begin : Exclusive key (s.begin t) := by
  intro u tx hu x hx
  by_cases hut : u = t
  · subst hut
    rw [begin_active_self] at hu
    cases hu
    cases hx
  · rw [begin_active_of_ne hut] at hu
    exact h u tx hu x hx

theorem append {l : L} : Exclusive key (s.append t l) := by
  intro u tx hu x hx
  by_cases hut : u = t
  · subst hut
    rw [append_active_self] at hu
    obtain ⟨tx',htx',rfl⟩ := Option.map_eq_some_iff.mp hu
    exact h u tx' htx' x hx
  · rw [append_active_of_ne hut] at hu
    exact h u tx hu x hx

theorem insert [DecidableEq K] {x : X} (hi : s.insert key t x = .inserted s') :
    Exclusive key s' := by
  obtain ⟨hfree,hnew,rfl⟩ := insert_inserted hi
  -- no open transaction has this key, since nobody holds it
  have hother : ∀ u tx, s.active u = some tx → ∀ y ∈ tx.rows, key y ≠ key x := by
    intro u tx hu y hy he
    have hh := (h u tx hu y hy).1
    rw [he,hfree] at hh
    cases hh
  have hold : ∀ u tx, s.active u = some tx → ∀ y ∈ tx.rows,
      Function.update s.holder (key x) (some t) (key y) = some u ∧ ∀ z ∈ s.rows, key z ≠ key y := by
    intro u tx hu y hy
    rw [Function.update_of_ne (hother u tx hu y hy)]
    exact h u tx hu y hy
  intro u tx hu y hy
  by_cases hut : u = t
  · subst hut
    dsimp only at hu
    rw [Function.update_self] at hu
    obtain ⟨tx',htx',rfl⟩ := Option.map_eq_some_iff.mp hu
    rcases List.mem_append.mp hy with hy | hy
    · exact hold u tx' htx' y hy
    · rw [List.mem_singleton.mp hy]
      exact ⟨Function.update_self ..,hnew⟩
  · dsimp only at hu
    rw [Function.update_of_ne hut] at hu
    exact hold u tx hu y hy

theorem rollback : Exclusive key (s.rollback t) := by
  intro u tx hu x hx
  by_cases hut : u = t
  · subst hut
    rw [rollback_active_self] at hu
    cases hu
  · rw [rollback_active_of_ne hut] at hu
    obtain ⟨hh,hr⟩ := h u tx hu x hx
    refine ⟨?_,hr⟩
    have hne : s.holder (key x) ≠ some t := by
      rw [hh]
      exact fun he => hut (Option.some.inj he)
    exact (if_neg hne).trans hh

theorem commit : Exclusive key (s.commit t) := by
  cases ht : s.active t with
  | none =>
    simp only [TxStore.commit,ht]
    exact h
  | some tx =>
    rw [commit_eq ht]
    intro u tx' hu x hx
    by_cases hut : u = t
    · subst hut
      rw [rollback_active_self] at hu
      cases hu
    · obtain ⟨hh,hr⟩ := h.rollback u tx' (by rwa [rollback_active_of_ne hut] at hu ⊢) x hx
      refine ⟨hh,fun y hy => ?_⟩
      rcases List.mem_append.mp hy with hy | hy
      · exact hr y hy
      · intro he
        rw [rollback_active_of_ne hut] at hu
        have hx' := (h u tx' hu x hx).1
        rw [← he,(h t tx ht y hy).1] at hx'
        exact hut (Option.some.inj hx').symm

end Exclusive

end TxStore

end GraphileWorker.Foundation
