import GraphileWorker.Database.AddJobs

/-! # Lifecycle interceptors

Handlers are asked in the order of registration until one gives a terminal answer;
`BeforeJobSchedule` chains the payload.
-/
namespace GraphileWorker.Hooks
open Database

inductive FailureReason
  | taskError
  | taskPanic
  | shutdownAborted
  | workerCrashed
  deriving DecidableEq

/-- The text that `Debug` writes. -/
def FailureReason.toText : FailureReason → String
  | .taskError => "TaskError"
  | .taskPanic => "TaskPanic"
  | .shutdownAborted => "ShutdownAborted"
  | .workerCrashed => "WorkerCrashed"

inductive HookResult
  | proceed
  | skip
  | fail (message : String)
  deriving DecidableEq

def HookResult.isTerminal : HookResult → Bool
  | .proceed => false
  | _ => true

inductive JobScheduleResult
  | proceed (payload : Json)
  | skip
  | fail (message : String)

inductive JobRecoveryResult
  | default
  | reschedule (runAt : Time) (attempts : Option ℤ)
  | failWithBackoff
  | skip
  deriving DecidableEq

def JobRecoveryResult.isTerminal : JobRecoveryResult → Bool
  | .default => false
  | _ => true

structure JobRecoveryContext where
  job : Job
  workerId : WorkerId
  previousWorkerId : WorkerId
  reason : FailureReason

structure BeforeJobScheduleContext where
  identifier : String
  payload : Json
  spec : JobSpec

/-- `intercept_with` for an event without a chained value. -/
def intercept {γ ρ : Type} (isTerminal : ρ → Bool) (default : ρ) : List (γ → ρ) → γ → ρ
  | [], _ => default
  | handler :: rest, ctx =>
    if isTerminal (handler ctx) then handler ctx else intercept isTerminal default rest ctx

/-- `intercept_with` for `BeforeJobSchedule`, chained over the payload. -/
def interceptSchedule : List (BeforeJobScheduleContext → JobScheduleResult) → BeforeJobScheduleContext →
    JobScheduleResult
  | [], ctx => .proceed ctx.payload
  | handler :: rest, ctx =>
    match handler ctx with
    | .proceed payload => interceptSchedule rest { ctx with payload := payload }
    | answer => answer

/-- The registered handlers; `otherEvents` says that some other event has a handler. -/
structure HookRegistry where
  jobRecovery : List (JobRecoveryContext → JobRecoveryResult) := []
  beforeJobSchedule : List (BeforeJobScheduleContext → JobScheduleResult) := []
  otherEvents : Bool := false

namespace HookRegistry

def isEmpty (hooks : HookRegistry) : Bool :=
  hooks.jobRecovery.isEmpty && hooks.beforeJobSchedule.isEmpty && !hooks.otherEvents

def interceptJobRecovery (hooks : HookRegistry) (ctx : JobRecoveryContext) : JobRecoveryResult :=
  intercept JobRecoveryResult.isTerminal .default hooks.jobRecovery ctx

def interceptBeforeJobSchedule (hooks : HookRegistry) (ctx : BeforeJobScheduleContext) : JobScheduleResult :=
  interceptSchedule hooks.beforeJobSchedule ctx

end HookRegistry

variable {γ ρ : Type} {isTerminal : ρ → Bool} {default : ρ} {handlers : List (γ → ρ)} {ctx : γ}

theorem intercept_default (h : ∀ handler ∈ handlers, isTerminal (handler ctx) = false) :
    intercept isTerminal default handlers ctx = default := by
  induction handlers with
  | nil => rfl
  | cons handler rest ih =>
    have hh := h handler List.mem_cons_self
    rw [intercept,hh,if_neg Bool.false_ne_true]
    exact ih fun k hk => h k (List.mem_cons_of_mem handler hk)

theorem HookRegistry.interceptJobRecovery_default {hooks : HookRegistry} {ctx : JobRecoveryContext}
    (h : ∀ handler ∈ hooks.jobRecovery, handler ctx = .default) :
    hooks.interceptJobRecovery ctx = .default := by
  apply intercept_default
  intro handler hh
  rw [h handler hh]
  rfl

end GraphileWorker.Hooks
