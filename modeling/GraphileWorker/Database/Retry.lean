import Mathlib.Data.Rat.Floor

/-! # Retries of pooled statements

`SqlRetryPolicy::run` repeats a statement whose failure is known to precede its commit.
Other sessions act while it sleeps.
-/
namespace GraphileWorker.Database

structure DbError where
  code : Option String := none
  connectionFailure : Bool := false

/-- The delay in seconds, over the rationals; `jitter` is at least zero and below one. -/
def backoff (error : DbError) (previousAttempts : ℕ) (jitter : ℚ) : Option ℚ :=
  let bounds : Option (ℚ × ℚ) := match error.code with
    | some "40001" | some "40P01" => some (50,5000)
    | some "57P03" => some (3000,120000)
    | some "EHOSTUNREACH" | some "ETIMEDOUT" => if error.connectionFailure then some (3000,120000) else none
    | _ => none
  bounds.map fun (minimum,maximum) => min (minimum * (3 / 2) ^ previousAttempts) maximum * (1 / 2 + jitter) / 1000

section
variable {S α : Type} (operation : S → Except DbError α × S) (others : S → S) (jitter : ℕ → ℚ)

/-- `run` from an attempt on, with this many attempts left before the last one;
`others` is what happens during a sleep. -/
def runFrom (attempt : ℕ) : ℕ → S → Except DbError α × S
  | 0, s => operation s
  | left + 1, s =>
    match operation s with
    | (.ok value,s') => (.ok value,s')
    | (.error error,s') =>
      match backoff error (attempt - 1) (jitter attempt) with
      | some _ => runFrom (attempt + 1) left (others s')
      | none => (.error error,s')

/-- `SqlRetryPolicy::run`; the number of attempts is not zero. -/
def SqlRetryPolicy.run (maxAttempts : ℕ+) (s : S) : Except DbError α × S :=
  runFrom operation others jitter 1 (maxAttempts - 1) s

def Retryable (error : DbError) : Prop := (backoff error 0 0).isSome = true

variable {operation}

theorem backoff_isSome (error : DbError) (k : ℕ) (j : ℚ) : (backoff error k j).isSome = true ↔ Retryable error := by
  simp [Retryable,backoff]

variable (hsafe : ∀ s error s', operation s = (.error error,s') → Retryable error → s' = s)
include hsafe

theorem runFrom_eq (attempt left : ℕ) (s : S) : ∃ k ≤ left,
    runFrom operation others jitter attempt left s = operation (others^[k] s) ∧
    (∀ j < k, ∃ error, operation (others^[j] s) = (.error error,others^[j] s)) ∧
    ∀ error, (operation (others^[k] s)).1 = .error error → Retryable error → k = left := by
  induction left generalizing attempt s with
  | zero => exact ⟨0,Nat.le_refl 0,rfl,by simp,fun _ _ _ => rfl⟩
  | succ left ih =>
    rw [runFrom]
    cases ho : operation s with
    | mk result s' =>
      cases result with
      | ok value => exact ⟨0,Nat.zero_le _,ho.symm,by simp,fun error he => by simp [ho] at he⟩
      | error error =>
        cases hb : backoff error (attempt - 1) (jitter attempt) with
        | none =>
          refine ⟨0,Nat.zero_le _,by simp [ho,hb],by simp,fun e he hr => ?_⟩
          obtain rfl : error = e := by simpa [ho] using he
          simp [← backoff_isSome error (attempt - 1) (jitter attempt),hb] at hr
        | some delay =>
          obtain rfl := hsafe s error s' ho ((backoff_isSome _ _ _).mp (by rw [hb]; rfl))
          obtain ⟨k,hk,hrun,hbefore,hlast⟩ := ih (attempt + 1) (others s')
          refine ⟨k + 1,Nat.succ_le_succ hk,by simpa [hb] using hrun,fun j hj => ?_,fun e he hr => ?_⟩
          · cases j with
            | zero => exact ⟨error,ho⟩
            | succ j => exact hbefore j (Nat.lt_of_succ_lt_succ hj)
          · rw [hlast e he hr]

/-- If an error that is retried says that nothing was changed, the call is one execution of the statement
after some sleeps. -/
theorem retried_statement_runs_once (maxAttempts : ℕ+) (s : S) : ∃ k < (maxAttempts : ℕ),
    SqlRetryPolicy.run operation others jitter maxAttempts s = operation (others^[k] s) ∧
    (∀ j < k, ∃ error, operation (others^[j] s) = (.error error,others^[j] s)) ∧
    ∀ error, (operation (others^[k] s)).1 = .error error → Retryable error → k + 1 = maxAttempts := by
  obtain ⟨k,hk,hrun,hbefore,hlast⟩ := runFrom_eq others jitter hsafe 1 (maxAttempts - 1) s
  have hpos := maxAttempts.pos
  refine ⟨k,by omega,hrun,hbefore,fun error he hr => ?_⟩
  have := hlast error he hr
  omega

end

/-- A statement that meets deadlocks until a counter of the others stands at two. -/
def deadlocked (n : ℕ) : Except DbError Unit × ℕ :=
  if n < 2 then (.error { code := some "40P01" },n) else (.ok (),n + 10)

theorem deadlocked_runs_once : ∃ k < 4,
    SqlRetryPolicy.run deadlocked (· + 1) (fun _ => 0) 4 0 = deadlocked ((· + 1)^[k] 0) := by
  have hsafe : ∀ n error n', deadlocked n = (.error error,n') → Retryable error → n' = n := by
    intro n error n' h _
    unfold deadlocked at h
    split at h <;> simp_all
  obtain ⟨k,hk,hrun,-⟩ := retried_statement_runs_once (· + 1) (fun _ => 0) hsafe 4 0
  exact ⟨k,hk,hrun⟩

end GraphileWorker.Database
