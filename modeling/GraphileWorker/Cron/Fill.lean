import GraphileWorker.Cron.Parser
import Mathlib.Data.Set.Basic

/-! # Fill durations

`to_secs` adds up to five quantities in `u32`. The order of fills compares seconds, while
equality compares the five fields.
-/
namespace GraphileWorker.Cron
open Foundation.Parsing

namespace CrontabFill

def seconds (fill : CrontabFill) : ℕ :=
  fill.w * 604800 + fill.d * 86400 + fill.h * 3600 + fill.m * 60 + fill.s

/-- A `u32` result of checked arithmetic; no value stands for the panic. -/
def checkedU32 (n : ℕ) : Option ℕ := if n < 4294967296 then some n else none

def checkedToSecs (fill : CrontabFill) : Option ℕ := do
  let weeks ← checkedU32 (fill.w * 604800)
  let days ← checkedU32 (fill.d * 86400)
  let sum ← checkedU32 (weeks + days)
  let hours ← checkedU32 (fill.h * 3600)
  let sum ← checkedU32 (sum + hours)
  let minutes ← checkedU32 (fill.m * 60)
  let sum ← checkedU32 (sum + minutes)
  let seconds ← checkedU32 (fill.s * 1)
  checkedU32 (sum + seconds)

def cmp (a b : CrontabFill) : Ordering := compare a.toSecs b.toSecs

def checkedCmp (a b : CrontabFill) : Option Ordering := do
  return compare (← a.checkedToSecs) (← b.checkedToSecs)

structure Canonical (fill : CrontabFill) : Prop where
  d : fill.d < 7
  h : fill.h < 24
  m : fill.m < 60
  s : fill.s < 60
  fits : fill.seconds < 4294967296

structure IsU32 (fill : CrontabFill) : Prop where
  w : fill.w < 4294967296
  d : fill.d < 4294967296
  h : fill.h < 4294967296
  m : fill.m < 4294967296
  s : fill.s < 4294967296

/-- `cmp` is a total order on these values, and `Equal` means equal. -/
structure TotalOrderOn (S : Set CrontabFill) : Prop where
  swap : ∀ a ∈ S, ∀ b ∈ S, b.cmp a = (a.cmp b).swap
  trans : ∀ a ∈ S, ∀ b ∈ S, ∀ c ∈ S, (a.cmp b).isLE → (b.cmp c).isLE → (a.cmp c).isLE
  equal : ∀ a ∈ S, ∀ b ∈ S, a.cmp b = .eq ↔ a = b

variable {fill a b c : CrontabFill}

theorem toSecs_eq_iff : fill.toSecs = fill.seconds ↔ fill.seconds < 4294967296 := by
  have hmod : fill.toSecs = fill.seconds % 4294967296 := rfl
  omega

theorem checkedU32_bind {β : Type} {n : ℕ} {f : ℕ → Option β} {x : β} :
    (checkedU32 n).bind f = some x ↔ n < 4294967296 ∧ f n = some x := by
  unfold checkedU32
  by_cases hn : n < 4294967296 <;> simp [hn]

/-- Every partial sum is below the whole, so one comparison decides all nine checks. -/
theorem checkedToSecs_eq_some {n : ℕ} :
    fill.checkedToSecs = some n ↔ fill.seconds < 4294967296 ∧ n = fill.seconds := by
  have hlast (k : ℕ) : checkedU32 k = some n ↔ k < 4294967296 ∧ k = n := by
    simp [checkedU32]
  simp only [checkedToSecs,bind,checkedU32_bind,hlast,seconds]
  omega

theorem checkedToSecs_eq_some_iff : fill.checkedToSecs = some fill.seconds ↔ fill.seconds < 4294967296 := by
  simp [checkedToSecs_eq_some]

theorem cmp_eq_iff : a.cmp b = .eq ↔ a.toSecs = b.toSecs := Nat.compare_eq_eq

theorem isLE_cmp : (a.cmp b).isLE = true ↔ a.toSecs ≤ b.toSecs := Nat.isLE_compare

theorem Canonical.eq_of_seconds (ha : a.Canonical) (hb : b.Canonical) (h : a.seconds = b.seconds) : a = b := by
  obtain ⟨w,d,h₁,m,s⟩ := a
  obtain ⟨w',d',h₁',m',s'⟩ := b
  obtain ⟨hd,hh,hm,hs,-⟩ := ha
  obtain ⟨hd',hh',hm',hs',-⟩ := hb
  simp only [seconds] at h hd hh hm hs hd' hh' hm' hs'
  have hw : w = w' := by omega
  have hdd : d = d' := by omega
  have hhh : h₁ = h₁' := by omega
  have hmm : m = m' := by omega
  have hss : s = s' := by omega
  rw [hw,hdd,hhh,hmm,hss]

theorem Canonical.cmp_eq_iff (ha : a.Canonical) (hb : b.Canonical) : a.cmp b = .eq ↔ a = b := by
  rw [CrontabFill.cmp_eq_iff,toSecs_eq_iff.mpr ha.fits,toSecs_eq_iff.mpr hb.fits]
  constructor
  · exact ha.eq_of_seconds hb
  · exact congrArg seconds

theorem Canonical.checkedCmp (ha : a.Canonical) (hb : b.Canonical) : a.checkedCmp b = some (a.cmp b) := by
  have hsa := toSecs_eq_iff.mpr ha.fits
  have hsb := toSecs_eq_iff.mpr hb.fits
  simp [CrontabFill.checkedCmp,cmp,checkedToSecs_eq_some_iff.mpr ha.fits,checkedToSecs_eq_some_iff.mpr hb.fits,hsa,hsb]

/-- Transitivity and totality need no condition; `Equal` does. -/
theorem totalOrderOn_iff {S : Set CrontabFill} : TotalOrderOn S ↔ Set.InjOn toSecs S := by
  constructor
  · intro h a ha b hb he
    exact (h.equal a ha b hb).mp (CrontabFill.cmp_eq_iff.mpr he)
  · intro h
    refine ⟨fun _ _ _ _ => (Nat.compare_swap _ _).symm,
      fun _ _ _ _ _ _ hab hbc => isLE_cmp.mpr ((isLE_cmp.mp hab).trans (isLE_cmp.mp hbc)),fun a ha b hb => ?_⟩
    rw [CrontabFill.cmp_eq_iff]
    exact ⟨h ha hb,congrArg toSecs⟩

theorem totalOrderOn_canonical : TotalOrderOn {fill | fill.Canonical} := by
  refine totalOrderOn_iff.mpr fun a ha b hb he => ?_
  exact (Canonical.cmp_eq_iff ha hb).mp (CrontabFill.cmp_eq_iff.mpr he)

end CrontabFill

variable {phrase rest : List Char} {fill : CrontabFill}

theorem unit_lt {c : Char} {i : List Char} {o : Option ℕ} (h : opt (terminated u32 (char c)) i = .ok (rest,o)) :
    o.getD 0 < 4294967296 := by
  rcases opt_ok.mp h with ⟨n,hn,rfl⟩ | ⟨-,-,rfl⟩
  · obtain ⟨mid,d,hu,-⟩ := terminated_ok.mp hn
    obtain ⟨ds,-,hds,-⟩ := u32_ok.mp hu
    exact hds.lt
  · simp

theorem isU32_crontabFill (h : crontabFill phrase = .ok (rest,fill)) : fill.IsU32 := by
  obtain ⟨⟨i₁,w⟩,hw,h₁⟩ := bind_ok.mp h
  obtain ⟨⟨i₂,d⟩,hd,h₂⟩ := bind_ok.mp h₁
  obtain ⟨⟨i₃,hh⟩,hhh,h₃⟩ := bind_ok.mp h₂
  obtain ⟨⟨i₄,m⟩,hm,h₄⟩ := bind_ok.mp h₃
  obtain ⟨⟨i₅,s⟩,hs,h₅⟩ := bind_ok.mp h₄
  obtain ⟨_,-,h₆⟩ := bind_ok.mp h₅
  cases h₆
  exact ⟨unit_lt hw,unit_lt hd,unit_lt hhh,unit_lt hm,unit_lt hs⟩

/-- The duration is exact, and free of a panic, exactly below `2 ^ 32` seconds. On canonical phrases the
order is total and consistent with equality. -/
theorem accepted_fill_exact (h : crontabFill phrase = .ok (rest,fill)) :
    fill.IsU32 ∧ (fill.toSecs = fill.seconds ↔ fill.seconds < 4294967296) ∧
      (fill.checkedToSecs = some fill.seconds ↔ fill.seconds < 4294967296) ∧
      CrontabFill.TotalOrderOn {f | f.Canonical} ∧
      ∀ other, fill.Canonical → other.Canonical → fill.checkedCmp other = some (fill.cmp other) := by
  refine ⟨isU32_crontabFill h,CrontabFill.toSecs_eq_iff,CrontabFill.checkedToSecs_eq_some_iff,
    CrontabFill.totalOrderOn_canonical,fun other hf ho => hf.checkedCmp ho⟩

theorem weeks_7101_exact : crontabFill ['7','1','0','1','w'] = .ok ([],⟨7101,0,0,0,0⟩) ∧
    CrontabFill.toSecs ⟨7101,0,0,0,0⟩ = 4294684800 ∧ CrontabFill.checkedToSecs ⟨7101,0,0,0,0⟩ = some 4294684800 := by
  have hp : crontabFill ['7','1','0','1','w'] = .ok ([],⟨7101,0,0,0,0⟩) := rfl
  have h := accepted_fill_exact hp
  have hlt : CrontabFill.seconds ⟨7101,0,0,0,0⟩ < 4294967296 := by decide
  exact ⟨hp,h.2.1.mpr hlt,h.2.2.1.mpr hlt⟩

/-- 7102 weeks come out as less than four days, or panic; a minute and sixty seconds compare as equal. -/
theorem weeks_7102_wrap : crontabFill ['7','1','0','2','w'] = .ok ([],⟨7102,0,0,0,0⟩) ∧
    CrontabFill.seconds ⟨7102,0,0,0,0⟩ = 4295289600 ∧ CrontabFill.toSecs ⟨7102,0,0,0,0⟩ = 322304 ∧
    CrontabFill.checkedToSecs ⟨7102,0,0,0,0⟩ = none ∧
    crontabFill ['1','m'] = .ok ([],⟨0,0,0,1,0⟩) ∧ crontabFill ['6','0','s'] = .ok ([],⟨0,0,0,0,60⟩) ∧
    CrontabFill.cmp ⟨0,0,0,1,0⟩ ⟨0,0,0,0,60⟩ = .eq ∧ (⟨0,0,0,1,0⟩ : CrontabFill) ≠ ⟨0,0,0,0,60⟩ := by
  refine ⟨rfl,rfl,rfl,by decide,rfl,rfl,rfl,?_⟩
  simp

end GraphileWorker.Cron
