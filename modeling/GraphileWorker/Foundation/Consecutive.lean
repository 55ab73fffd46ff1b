import Mathlib.Data.List.Nodup
import Mathlib.Tactic.Ring
import Mathlib.Tactic.Linarith

/-! # Consecutive points

Integers that go from one point to another in steps of a fixed width.
-/
namespace GraphileWorker.Foundation

/-- The points `lo`, `lo + d`, ... up to `hi`, which is not among them. -/
def Consecutive (d : ℤ) : ℤ → List ℤ → ℤ → Prop
  | lo, [], hi => lo = hi
  | lo, t :: rest, hi => t = lo ∧ Consecutive d (lo + d) rest hi

namespace Consecutive
variable {d lo mid hi : ℤ} {l l' : List ℤ}

theorem append (h : Consecutive d lo l mid) (h' : Consecutive d mid l' hi) : Consecutive d lo (l ++ l') hi := by
  induction l generalizing lo with
  | nil =>
    cases h
    exact h'
  | cons t rest ih => exact ⟨h.1,ih h.2⟩

theorem concat (h : Consecutive d lo l hi) : Consecutive d lo (l ++ [hi]) (hi + d) := h.append ⟨rfl,rfl⟩

theorem exists_steps (h : Consecutive d lo l hi) : ∃ k : ℕ, hi = lo + k * d := by
  induction l generalizing lo with
  | nil => exact ⟨0,by simpa using h.symm⟩
  | cons t rest ih =>
    obtain ⟨k,hk⟩ := ih h.2
    exact ⟨k + 1,by rw [hk]; push_cast; ring⟩

theorem mem_bounds (hd : 0 < d) (h : Consecutive d lo l hi) {t : ℤ} (ht : t ∈ l) : lo ≤ t ∧ t + d ≤ hi := by
  induction l generalizing lo with
  | nil => exact absurd ht List.not_mem_nil
  | cons u rest ih =>
    obtain ⟨rfl,hr⟩ := h
    rcases List.mem_cons.mp ht with rfl | ht
    · obtain ⟨k,hk⟩ := hr.exists_steps
      have hkd : 0 ≤ (k : ℤ) * d := by positivity
      exact ⟨le_rfl,by omega⟩
    · have := ih hr ht
      omega

theorem mem_steps (h : Consecutive d lo l hi) {t : ℤ} (ht : t ∈ l) : ∃ k : ℕ, t = lo + k * d := by
  induction l generalizing lo with
  | nil => exact absurd ht List.not_mem_nil
  | cons u rest ih =>
    obtain ⟨rfl,hr⟩ := h
    rcases List.mem_cons.mp ht with rfl | ht
    · exact ⟨0,by simp⟩
    · obtain ⟨k,hk⟩ := ih hr ht
      exact ⟨k + 1,by rw [hk]; push_cast; ring⟩

theorem nodup (hd : 0 < d) (h : Consecutive d lo l hi) : l.Nodup := by
  induction l generalizing lo with
  | nil => exact List.nodup_nil
  | cons t rest ih =>
    obtain ⟨rfl,hr⟩ := h
    refine List.nodup_cons.mpr ⟨fun ht => ?_,ih hr⟩
    have := (hr.mem_bounds hd ht).1
    omega

theorem filter (hd : 0 < d) {p : ℤ → Bool} (hp : ∀ a b, a ≤ b → p a = true → p b = true)
    (h : Consecutive d lo l hi) : ∃ k : ℕ, Consecutive d (lo + k * d) (l.filter p) hi := by
  induction l generalizing lo with
  | nil =>
    cases h
    exact ⟨0,by simp [Consecutive]⟩
  | cons t rest ih =>
    by_cases ht : p t = true
    · refine ⟨0,?_⟩
      rw [List.filter_eq_self.mpr fun u hu => ?_]
      · simpa using h
      · have hle := (h.mem_bounds hd hu).1
        rw [← h.1] at hle
        exact hp t u hle ht
    · obtain ⟨k,hk⟩ := ih h.2
      refine ⟨k + 1,?_⟩
      rw [List.filter_cons_of_neg ht]
      have he : lo + ((k + 1 : ℕ) : ℤ) * d = lo + d + k * d := by push_cast; ring
      rwa [he]

end Consecutive

end GraphileWorker.Foundation
