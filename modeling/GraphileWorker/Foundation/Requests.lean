import Mathlib.Data.List.Basic

/-! # Programs that send requests

A program asks for something and goes on with the answer, tells an event, or stops. A request
that fails ends the run.
-/
namespace GraphileWorker.Foundation

/-- Requests `q` have answers of type `A q`. -/
inductive Prog (Q : Type) (A : Q → Type) (E α : Type)
  | done (a : α)
  | abort
  | ask (q : Q) (next : A q → Prog Q A E α)
  | tell (e : E) (next : Prog Q A E α)

inductive Entry (Q E : Type)
  | answered (q : Q)
  | failed (q : Q)
  | told (e : E)

namespace Entry
variable {Q E : Type} {P : E → Bool} {log : List (Entry Q E)}

def isAnswered : Entry Q E → Bool
  | answered _ => true
  | _ => false

def event : Entry Q E → Option E
  | told e => some e
  | _ => none

def sent (log : List (Entry Q E)) : ℕ := log.countP isAnswered

def events (log : List (Entry Q E)) : List E := log.filterMap event

@[simp] theorem sent_nil : sent ([] : List (Entry Q E)) = 0 := rfl

@[simp] theorem sent_answered (q : Q) (log : List (Entry Q E)) : sent (answered q :: log) = sent log + 1 :=
  List.countP_cons_of_pos rfl

@[simp] theorem sent_told (e : E) (log : List (Entry Q E)) : sent (told e :: log) = sent log :=
  List.countP_cons_of_neg Bool.false_ne_true

@[simp] theorem sent_failed (q : Q) (log : List (Entry Q E)) : sent (failed q :: log) = sent log :=
  List.countP_cons_of_neg Bool.false_ne_true

@[simp] theorem sent_append (log log' : List (Entry Q E)) : sent (log ++ log') = sent log + sent log' :=
  List.countP_append

@[simp] theorem events_nil : events ([] : List (Entry Q E)) = [] := rfl

@[simp] theorem events_answered (q : Q) (log : List (Entry Q E)) : events (answered q :: log) = events log := rfl

@[simp] theorem events_failed (q : Q) (log : List (Entry Q E)) : events (failed q :: log) = events log := rfl

@[simp] theorem events_told (e : E) (log : List (Entry Q E)) : events (told e :: log) = e :: events log := rfl

@[simp] theorem events_append (log log' : List (Entry Q E)) : events (log ++ log') = events log ++ events log' :=
  List.filterMap_append

/-- The number of requests before the first of the events that `P` selects. -/
def sentBefore (P : E → Bool) : List (Entry Q E) → Option ℕ
  | [] => none
  | told e :: log => if P e then some 0 else sentBefore P log
  | answered _ :: log => (sentBefore P log).map (· + 1)
  | failed _ :: log => sentBefore P log

theorem sentBefore_append (h : ∀ e ∈ events log, P e = false)
    (log' : List (Entry Q E)) : sentBefore P (log ++ log') = (sentBefore P log').map (· + sent log) := by
  induction log with
  | nil => simp
  | cons entry log ih =>
    cases entry with
    | told e =>
      obtain ⟨he,hlog⟩ := List.forall_mem_cons.mp h
      simp [sentBefore,he,ih hlog]
    | answered q =>
      have hlog : ∀ e ∈ events log, P e = false := h
      cases hn : sentBefore P log' <;> simp [sentBefore,ih hlog,hn,Nat.add_assoc]
    | failed q =>
      have hlog : ∀ e ∈ events log, P e = false := h
      simp [sentBefore,ih hlog]

theorem sentBefore_eq_none (h : ∀ e ∈ events log, P e = false) : sentBefore P log = none := by
  have happend := sentBefore_append h []
  rwa [List.append_nil] at happend

end Entry

namespace Prog
open Entry

variable {Q : Type} {A : Q → Type} {E α β : Type}

def bind (p : Prog Q A E α) (f : α → Prog Q A E β) : Prog Q A E β :=
  match p with
  | done a => f a
  | abort => abort
  | ask q next => ask q fun x => (next x).bind f
  | tell e next => tell e (next.bind f)

def eval (answer : ∀ q, Option (A q)) : Prog Q A E α → Option α
  | done a => some a
  | abort => none
  | ask q next => (answer q).bind fun x => (next x).eval answer
  | tell _ next => next.eval answer

/-- A run from the `n`-th request on, with what happened in it. -/
def run (answer : ℕ → ∀ q, A q) (fails : ℕ → Bool) (n : ℕ) : Prog Q A E α → Option α × List (Entry Q E)
  | done a => (some a,[])
  | abort => (none,[])
  | ask q next =>
    if fails n then (none,[.failed q])
    else
      let rest := (next (answer n q)).run answer fails (n + 1)
      (rest.1,.answered q :: rest.2)
  | tell e next =>
    let rest := next.run answer fails n
    (rest.1,.told e :: rest.2)

/-- The run in which no request fails. -/
def free (answer : ℕ → ∀ q, A q) (n : ℕ) (p : Prog Q A E α) : Option α × List (Entry Q E) :=
  p.run answer (fun _ => false) n

/-- Every event that the program can tell is in `S`. -/
inductive Tells (S : E → Prop) : Prog Q A E α → Prop
  | done (a : α) : Tells S (.done a)
  | abort : Tells S .abort
  | ask {q : Q} {next : A q → Prog Q A E α} (h : ∀ x, Tells S (next x)) : Tells S (.ask q next)
  | tell {e : E} {next : Prog Q A E α} (he : S e) (h : Tells S next) : Tells S (.tell e next)

theorem eval_bind (answer : ∀ q, Option (A q)) (p : Prog Q A E α) (f : α → Prog Q A E β) :
    (p.bind f).eval answer = (p.eval answer).bind fun a => (f a).eval answer := by
  induction p with
  | done a => rfl
  | abort => rfl
  | ask q next ih =>
    rw [bind,eval,eval,Option.bind_assoc]
    exact congrArg (answer q).bind (funext ih)
  | tell e next ih => exact ih

@[simp] theorem eval_done (answer : ∀ q, Option (A q)) (a : α) : (done a : Prog Q A E α).eval answer = some a := rfl

@[simp] theorem eval_ask (answer : ∀ q, Option (A q)) (q : Q) (next : A q → Prog Q A E α) :
    (ask q next).eval answer = (answer q).bind fun x => (next x).eval answer := rfl

section Run
variable {answer : ℕ → ∀ q, A q} {fails : ℕ → Bool} {n : ℕ} {p : Prog Q A E α} {S : E → Prop}

@[simp] theorem free_done (a : α) : (Prog.done a : Prog Q A E α).free answer n = (some a,[]) := rfl

@[simp] theorem free_abort : (Prog.abort : Prog Q A E α).free answer n = (none,[]) := rfl

@[simp] theorem free_ask (q : Q) (next : A q → Prog Q A E α) : (ask q next).free answer n =
    (((next (answer n q)).free answer (n + 1)).1,.answered q :: ((next (answer n q)).free answer (n + 1)).2) := rfl

@[simp] theorem free_tell (e : E) (next : Prog Q A E α) : (tell e next).free answer n =
    ((next.free answer n).1,.told e :: (next.free answer n).2) := rfl

theorem free_bind_some {a : α} (h : (p.free answer n).1 = some a) (f : α → Prog Q A E β) :
    (p.bind f).free answer n = (((f a).free answer (n + sent (p.free answer n).2)).1,
      (p.free answer n).2 ++ ((f a).free answer (n + sent (p.free answer n).2)).2) := by
  induction p generalizing n with
  | done b =>
    cases h
    simp [bind]
  | abort => cases h
  | ask q next ih =>
    have hrest := ih (answer n q) h
    have hsent : n + sent ((ask q next).free answer n).2 =
        n + 1 + sent ((next (answer n q)).free answer (n + 1)).2 := by
      rw [free_ask,sent_answered]
      omega
    rw [hsent,bind,free_ask,hrest]
    rfl
  | tell e next ih =>
    have hrest := ih h
    have hsent : sent ((tell e next).free answer n).2 = sent (next.free answer n).2 := sent_told e _
    rw [hsent,bind,free_tell,hrest]
    rfl

theorem free_bind_none (h : (p.free answer n).1 = none) (f : α → Prog Q A E β) :
    (p.bind f).free answer n = (none,(p.free answer n).2) := by
  induction p generalizing n with
  | done b => cases h
  | abort => rfl
  | ask q next ih => rw [bind,free_ask,ih (answer n q) h,free_ask]
  | tell e next ih => rw [bind,free_tell,ih h,free_tell]

theorem Tells.events_free (h : p.Tells S) : ∀ e ∈ events (p.free answer n).2, S e := by
  induction h generalizing n with
  | done a => exact nofun
  | abort => exact nofun
  | ask _ ih => exact ih _
  | tell he _ ih => exact List.forall_mem_cons.mpr ⟨he,ih⟩

theorem Tells.bind {f : α → Prog Q A E β} (h : p.Tells S) (hf : ∀ a, (f a).Tells S) : (p.bind f).Tells S := by
  induction h with
  | done a => exact hf a
  | abort => exact .abort
  | ask _ ih => exact .ask ih
  | tell he _ ih => exact .tell he ih

theorem run_of_not_fails (h : ∀ i < sent (p.free answer n).2, fails (n + i) = false) :
    p.run answer fails n = p.free answer n := by
  induction p generalizing n with
  | done a => rfl
  | abort => rfl
  | ask q next ih =>
    have hsent : sent ((ask q next).free answer n).2 = sent ((next (answer n q)).free answer (n + 1)).2 + 1 :=
      sent_answered q _
    rw [hsent] at h
    have hrest : (next (answer n q)).run answer fails (n + 1) = (next (answer n q)).free answer (n + 1) := by
      apply ih
      intro i hi
      rw [Nat.add_assoc,Nat.add_comm 1 i]
      exact h (i + 1) (by omega)
    have hn : fails n = false := h 0 (by omega)
    rw [run,hn,hrest]
    rfl
  | tell e next ih =>
    have hrest : next.run answer fails n = next.free answer n := ih h
    rw [run,hrest]
    rfl

theorem not_fails_of_result (h : (p.run answer fails n).1.isSome = true) :
    ∀ i < sent (p.free answer n).2, fails (n + i) = false := by
  induction p generalizing n with
  | done a =>
    intro i hi
    exact absurd hi (Nat.not_lt_zero i)
  | abort => cases h
  | ask q next ih =>
    rw [run] at h
    split at h
    · cases h
    · rename_i hn
      intro i hi
      cases i with
      | zero => simpa using hn
      | succ i =>
        have hi : i < sent ((next (answer n q)).free answer (n + 1)).2 := by
          rw [free_ask,sent_answered] at hi
          exact Nat.lt_of_succ_lt_succ hi
        have hrest := ih (answer n q) h i hi
        rwa [Nat.add_assoc,Nat.add_comm 1 i] at hrest
  | tell e next ih =>
    intro i hi
    rw [free_tell,sent_told] at hi
    exact ih h i hi

theorem exists_told_iff {P : E → Bool} : (∃ e ∈ events (p.run answer fails n).2, P e = true) ↔
      ∃ k, sentBefore P (p.free answer n).2 = some k ∧ ∀ i < k, fails (n + i) = false := by
  induction p generalizing n with
  | done a => simp [run,events,sentBefore]
  | abort => simp [run,events,sentBefore]
  | ask q next ih =>
    rw [run,free_ask,sentBefore]
    by_cases hn : fails n = true
    · rw [if_pos hn]
      constructor
      · rintro ⟨e,he,-⟩
        cases he
      · rintro ⟨k,hk,hlt⟩
        obtain ⟨j,-,rfl⟩ := Option.map_eq_some_iff.mp hk
        have h0 : fails n = false := hlt 0 (Nat.succ_pos j)
        rw [h0] at hn
        cases hn
    · rw [if_neg hn]
      simp only [events_answered]
      rw [ih]
      constructor
      · rintro ⟨k,hk,hlt⟩
        refine ⟨k + 1,by rw [hk]; rfl,fun i hi => ?_⟩
        cases i with
        | zero => simpa using hn
        | succ i =>
          have hrest := hlt i (Nat.lt_of_succ_lt_succ hi)
          rwa [Nat.add_assoc,Nat.add_comm 1 i] at hrest
      · rintro ⟨k,hk,hlt⟩
        obtain ⟨j,hj,rfl⟩ := Option.map_eq_some_iff.mp hk
        refine ⟨j,hj,fun i hi => ?_⟩
        rw [Nat.add_assoc,Nat.add_comm 1 i]
        exact hlt (i + 1) (Nat.succ_lt_succ hi)
  | tell e next ih =>
    rw [run,free_tell,sentBefore]
    simp only [events_told]
    by_cases he : P e = true
    · rw [if_pos he]
      exact ⟨fun _ => ⟨0,rfl,fun i hi => absurd hi (Nat.not_lt_zero i)⟩,fun _ => ⟨e,List.mem_cons_self,he⟩⟩
    · rw [if_neg he,← ih]
      simp [he]

end Run

end Prog

end GraphileWorker.Foundation
