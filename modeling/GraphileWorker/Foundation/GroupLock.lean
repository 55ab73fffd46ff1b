import Mathlib.Data.Set.Basic
import Mathlib.Tactic.Common

/-! # Locks on items and on the groups they belong to

A lock on an item records its holder and the item's group, a lock on a group its holder only.
Items of one group are meant to be held one at a time.
-/
namespace GraphileWorker.Foundation

structure Locks (I G W : Type*) where
  item : I → Option (W × Option G)
  group : G → Option W

namespace Locks
variable {I G W : Type*} {L : Locks I G W} {w : W} {C : I → Option (Option G)} {i : I} {p : W × Option G} {D : Set I}
  {R : Set G}

@[ext] theorem ext {L M : Locks I G W} (hi : L.item = M.item) (hg : L.group = M.group) : L = M := by
  cases L
  cases M
  cases hi
  cases hg
  rfl

/-- A held item holds its group for the same holder, alone. -/
structure Serial (L : Locks I G W) : Prop where
  owner : ∀ {i w g}, L.item i = some (w,some g) → L.group g = some w
  single : ∀ {i j v w g}, L.item i = some (v,some g) → L.item j = some (w,some g) → i = j

/-- Every held group has an item held by the same holder. -/
def NoLeak (L : Locks I G W) : Prop := ∀ g w, L.group g = some w → ∃ i, L.item i = some (w,some g)

def Free (L : Locks I G W) : Prop := (∀ i, L.item i = none) ∧ ∀ g, L.group g = none

theorem Free.serial (h : L.Free) : L.Serial where
  owner hi := by simp [h.1] at hi
  single hi := by simp [h.1] at hi

theorem Free.noLeak (h : L.Free) : L.NoLeak := by
  intro g w hg
  simp [h.2] at hg

/-- `C` gives the items to take, each with its group. -/
structure Claimable (L : Locks I G W) (C : I → Option (Option G)) : Prop where
  free : ∀ {i g}, C i = some g → L.item i = none
  idle : ∀ {i g}, C i = some (some g) → L.group g = none
  distinct : ∀ {i j g}, C i = some (some g) → C j = some (some g) → i = j

open scoped Classical in
noncomputable def claim (L : Locks I G W) (w : W) (C : I → Option (Option G)) : Locks I G W where
  item i := match C i with
    | some g => some (w,g)
    | none => L.item i
  group g := if ∃ i, C i = some (some g) then some w else L.group g

theorem claim_item
    (h : (L.claim w C).item i = some p) : (C i = some p.2 ∧ p.1 = w) ∨ (C i = none ∧ L.item i = some p) := by
  unfold claim at h
  dsimp only at h
  cases hc : C i with
  | none => exact Or.inr ⟨rfl,by simpa [hc] using h⟩
  | some g =>
    rw [hc] at h
    cases h
    exact Or.inl ⟨rfl,rfl⟩

theorem claim_group_of_mem {g : G} (h : C i = some (some g)) : (L.claim w C).group g = some w := if_pos ⟨i,h⟩

theorem Serial.claim (h : L.Serial) (hC : L.Claimable C) : (L.claim w C).Serial where
  owner := by
    intro i v g hi
    rcases claim_item hi with ⟨hc,hv⟩ | ⟨_,hl⟩
    · rw [claim_group_of_mem hc]
      exact congrArg some hv.symm
    · have hg := h.owner hl
      have hn : ¬∃ j, C j = some (some g) := by
        rintro ⟨j,hj⟩
        exact absurd ((hC.idle hj).symm.trans hg) (by simp)
      exact (if_neg hn).trans hg
  single := by
    intro i j v v' g hi hj
    -- a group that is being taken was idle, so no item of it was held before
    rcases claim_item hi with ⟨hci,_⟩ | ⟨_,hli⟩ <;> rcases claim_item hj with ⟨hcj,_⟩ | ⟨_,hlj⟩
    · exact hC.distinct hci hcj
    · exact absurd ((hC.idle hci).symm.trans (h.owner hlj)) (by simp)
    · exact absurd ((hC.idle hcj).symm.trans (h.owner hli)) (by simp)
    · exact h.single hli hlj

theorem NoLeak.claim (h : L.NoLeak) (hC : L.Claimable C) : (L.claim w C).NoLeak := by
  intro g v hg
  by_cases hn : ∃ i, C i = some (some g)
  · obtain ⟨i,hi⟩ := hn
    rw [claim_group_of_mem hi] at hg
    cases hg
    exact ⟨i,by simp [Locks.claim,hi]⟩
  · obtain ⟨i,hi⟩ := h g v ((if_neg hn).symm.trans hg)
    refine ⟨i,?_⟩
    cases hc : C i with
    | none => simp [Locks.claim,hc,hi]
    | some g' => exact absurd ((hC.free hc).symm.trans hi) (by simp)

open scoped Classical in
noncomputable def drop (L : Locks I G W) (D : Set I) (R : Set G) : Locks I G W where
  item i := if i ∈ D then none else L.item i
  group g := if g ∈ R then none else L.group g

theorem drop_item : (L.drop D R).item i = some p ↔ i ∉ D ∧ L.item i = some p := by
  by_cases h : i ∈ D <;> simp [drop,h]

theorem drop_group {g : G} : (L.drop D R).group g = some w ↔ g ∉ R ∧ L.group g = some w := by
  by_cases h : g ∈ R <;> simp [drop,h]

theorem Serial.drop (h : L.Serial)
    (hR : ∀ g ∈ R, ∀ i w, L.item i = some (w,some g) → i ∈ D) : (L.drop D R).Serial where
  owner := by
    intro i w g hi
    obtain ⟨hd,hl⟩ := drop_item.mp hi
    exact drop_group.mpr ⟨fun hg => hd (hR g hg i w hl),h.owner hl⟩
  single := fun hi hj => h.single (drop_item.mp hi).2 (drop_item.mp hj).2

/-- A group leaks unless it is given back with its item. -/
theorem NoLeak.drop (h : L.NoLeak)
    (hR : ∀ g, g ∉ R → ∀ i w, L.group g = some w → L.item i = some (w,some g) → i ∉ D) : (L.drop D R).NoLeak := by
  intro g w hg
  obtain ⟨hg,hl⟩ := drop_group.mp hg
  obtain ⟨i,hi⟩ := h g w hl
  exact ⟨i,drop_item.mpr ⟨hR g hg i w hl hi,hi⟩⟩

end Locks
end GraphileWorker.Foundation
