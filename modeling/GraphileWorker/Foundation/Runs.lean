import Mathlib.Tactic.Common

/-! # Runs of a labelled step function

A step function either refuses a label or gives the next state. The side condition `ok` may
look at the state before the step and at the label.
-/
namespace GraphileWorker.Foundation
variable {S A : Type*}

/-- States reached from `s` by enabled steps that all meet the side condition. -/
inductive Reaches (step : S → A → Option S) (ok : S → A → Prop) (s : S) : S → Prop
  | refl : Reaches step ok s s
  | step {t u : S} {a : A} : Reaches step ok s t → ok t a → step t a = some u → Reaches step ok s u

namespace Reaches
variable {step : S → A → Option S} {ok ok' : S → A → Prop} {s t u : S}

/-- What holds at the start and survives every admissible step holds in every
state of every run. -/
theorem invariant {I : S → Prop} (hstep : ∀ t a u, ok t a → step t a = some u → I t → I u)
    (hs : I s) (h : Reaches step ok s t) : I t := by
  induction h with
  | refl => exact hs
  | step _ ha he ih => exact hstep _ _ _ ha he ih

theorem trans (h : Reaches step ok s t) (h' : Reaches step ok t u) : Reaches step ok s u := by
  induction h' with
  | refl => exact h
  | step _ ha he ih => exact ih.step ha he

theorem mono (hok : ∀ t a, ok t a → ok' t a) (h : Reaches step ok s t) :
    Reaches step ok' s t := by
  induction h with
  | refl => exact refl
  | step _ ha he ih => exact ih.step (hok _ _ ha) he

end Reaches

section Exec
variable (step : S → A → Option S) (ok : S → A → Prop) [∀ s a, Decidable (ok s a)] {labels past : List A}

/-- Executes a list of labels, as long as each is enabled and meets the side condition. -/
def exec : S → List A → Option S
  | s, [] => some s
  | s, a :: rest => if ok s a then (step s a).bind fun t => exec t rest else none

variable {step ok}

theorem reaches_exec_forall {P : A → Prop} {s t : S} (h : exec step ok s labels = some t)
    (hP : ∀ a ∈ labels, P a) : Reaches step (fun s a => ok s a ∧ P a) s t := by
  induction labels generalizing s with
  | nil =>
    cases h
    exact .refl
  | cons a rest ih =>
    simp only [exec] at h
    split at h
    · next hok =>
      obtain ⟨u,hu,hr⟩ := Option.bind_eq_some_iff.mp h
      have hone : Reaches step (fun s a => ok s a ∧ P a) s u := .step .refl ⟨hok,hP a List.mem_cons_self⟩ hu
      exact hone.trans (ih hr fun b hb => hP b (List.mem_cons_of_mem a hb))
    · cases h

theorem reaches_exec {s t : S} (h : exec step ok s labels = some t) : Reaches step ok s t :=
  (reaches_exec_forall (P := fun _ => True) h fun _ _ => trivial).mono fun _ _ hok => hok.1

theorem exists_reaches_of_exec {P : S → Prop} [DecidablePred P] {s : S} (labels : List A)
    (h : (exec step ok s labels).any (fun t => decide (P t)) = true) : ∃ t, Reaches step ok s t ∧ P t := by
  obtain ⟨t,ht,hP⟩ := (Option.any_eq_true _ _).mp h
  exact ⟨t,reaches_exec ht,of_decide_eq_true hP⟩

theorem exec_cons {a : A} {s t : S} (hok : ok s a) (h : step s a = some t) :
    exec step ok s (a :: labels) = exec step ok t labels := by
  simp only [exec,if_pos hok,h,Option.bind_some]

theorem exec_append {s t : S} :
    exec step ok s (past ++ labels) = some t ↔ ∃ u, exec step ok s past = some u ∧ exec step ok u labels = some t := by
  induction past generalizing s with
  | nil => simp [exec]
  | cons a rest ih =>
    rw [List.cons_append,exec,exec]
    by_cases hok : ok s a
    · rw [if_pos hok,if_pos hok]
      cases step s a with
      | none => simp
      | some u => exact ih
    · simp [if_neg hok]

theorem exec_concat {a : A} {s t : S} :
    exec step ok s (past ++ [a]) = some t ↔ ∃ u, exec step ok s past = some u ∧ ok u a ∧ step u a = some t := by
  rw [exec_append]
  have hone : ∀ u, exec step ok u [a] = some t ↔ ok u a ∧ step u a = some t := by
    intro u
    rw [exec]
    by_cases hok : ok u a <;> simp [hok,exec]
  simp only [hone]

theorem exec_invariant {I : List A → S → Prop} (hstep : ∀ past s a t, I past s → step s a = some t → I (past ++ [a]) t)
    {s t : S} (hs : I [] s) (h : exec step ok s labels = some t) : I labels t := by
  have hfrom : ∀ past s, I past s → exec step ok s labels = some t → I (past ++ labels) t := by
    clear hs h
    induction labels with
    | nil =>
      intro past s hI h
      cases h
      rwa [List.append_nil]
    | cons a rest ih =>
      intro past s hI h
      simp only [exec] at h
      split at h
      · obtain ⟨u,hu,hr⟩ := Option.bind_eq_some_iff.mp h
        have hrest := ih (past ++ [a]) u (hstep past s a u hI hu) hr
        rwa [List.append_assoc,List.singleton_append] at hrest
      · cases h
  exact hfrom [] s hs h

end Exec

end GraphileWorker.Foundation
