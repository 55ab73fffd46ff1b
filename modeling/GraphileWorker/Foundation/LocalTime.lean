import Mathlib.Algebra.Group.Int.Defs
import Mathlib.Tactic.Common

/-! # Local time

A zone says which offset holds at an instant, and which one a local time has, if there is
one. Instants, local times and offsets are integers in one common unit.
-/
namespace GraphileWorker.Foundation

inductive MappedLocalTime
  | single (offset : ℤ)
  | ambiguous (earliest latest : ℤ)
  | none

def MappedLocalTime.isSingle : MappedLocalTime → Bool
  | .single _ => true
  | _ => false

structure Zone where
  offsetFromUtc : ℤ → ℤ
  offsetFromLocal : ℤ → MappedLocalTime

/-- An instant with the offset it is shown with. -/
structure DateTime where
  utc : ℤ
  offset : ℤ

def DateTime.naiveLocal (t : DateTime) : ℤ := t.utc + t.offset

namespace Zone

def fixed (o : ℤ) : Zone := ⟨fun _ => o,fun _ => .single o⟩

variable (z : Zone)

def fromUtc (u : ℤ) : DateTime := ⟨u,z.offsetFromUtc u⟩

def toLocal (u : ℤ) : ℤ := u + z.offsetFromUtc u

/-- The date-time of a local time that has a single offset. -/
def fromLocal (n : ℤ) : Option DateTime :=
  match z.offsetFromLocal n with
  | .single o => some ⟨n - o,o⟩
  | _ => none

variable {z}

theorem naiveLocal_of_fromLocal {n : ℤ} {t : DateTime} (h : z.fromLocal n = some t) : t.naiveLocal = n := by
  unfold fromLocal at h
  split at h
  · cases h
    exact sub_add_cancel n _
  · cases h

theorem isSome_fromLocal (n : ℤ) : (z.fromLocal n).isSome = (z.offsetFromLocal n).isSingle := by
  unfold fromLocal
  cases z.offsetFromLocal n with
  | single | ambiguous | none => rfl

end Zone

end GraphileWorker.Foundation
