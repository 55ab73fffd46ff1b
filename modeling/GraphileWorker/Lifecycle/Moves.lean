import GraphileWorker.Lifecycle.Run

/-! # What each part of a run can do

One relation for each part. It keeps the guards that matter later.
-/
namespace GraphileWorker.Lifecycle
open Foundation Batcher Execution

/-- The slot has a task that is not over. -/
def SlotPc.Live {C : Type} : SlotPc C → Prop
  | .unspawned | .ended _ => False
  | _ => True

section
variable {n : ℕ} {C : Type} {cfg : RunConfig} {hasQueue : C → Bool} {hasHooks : Bool} {s s' : RunState n C} {i : Fin n}

/-- A step of a slot: it moves on, takes from the source channel and calls a batcher. -/
inductive SlotMove [DecidableEq C] (s : RunState n C) (i : Fin n) : RunState n C → Prop
  | mk {pc : SlotPc C} {ch : Channel Unit} {bs : Batchers C} : (s.slots i).Live → Kept s.batchers bs →
      SlotMove s i { s with slots := Function.update s.slots i pc, sources := ch, batchers := bs }

section Slots
variable [DecidableEq C] {bs : Batchers C} {ch : Channel Unit}

theorem slotMove_setSlot (hl : (s.slots i).Live) (hk : Kept s.batchers bs)
    (pc : SlotPc C) : SlotMove s i ({ s with batchers := bs, sources := ch }.setSlot i pc) := .mk hl hk

theorem slotMove_endSlot (hl : (s.slots i).Live) (hk : Kept s.batchers bs)
    (result : SlotEnd) : SlotMove s i ({ s with batchers := bs, sources := ch }.endSlot i result) := .mk hl hk

theorem slotMove_endRelease (hl : (s.slots i).Live) (hk : Kept s.batchers bs) (ok : Bool) :
    SlotMove s i ({ s with batchers := bs }.endRelease i ok) := by
  cases ok with
  | true => exact slotMove_setSlot hl hk .fetching
  | false => exact slotMove_endSlot hl hk (.failed .releaseJob)

theorem slotStep_live {pc : SlotPc C} {e : SlotEvent C} (hs : slotStep cfg hasQueue hasHooks s i pc e = some s') :
    pc.Live := by
  cases pc with
  | unspawned | ended => cases e <;> cases hs
  | waiting | fetching | handling | releasing | calling => trivial

theorem slotStep_move {pc : SlotPc C} {e : SlotEvent C} (hpc : s.slots i = pc)
    (hs : slotStep cfg hasQueue hasHooks s i pc e = some s') : SlotMove s i s' := by
  have hl : (s.slots i).Live := hpc ▸ slotStep_live hs
  revert hs
  fun_cases slotStep cfg hasQueue hasHooks s i pc e <;> intro hs <;> try cases hs
  case case3 | case4 | case8 | case10 => exact slotMove_endSlot hl .refl _
  case case7 | case9 | case12 | case14 | case16 => exact slotMove_setSlot hl .refl _
  case case17 result c =>
    simp only [Option.bind_eq_bind,Option.bind_eq_some_iff] at hs
    obtain ⟨side,-,bs,hstep,he⟩ := hs
    cases he
    exact slotMove_setSlot hl (kept_of_step (by simp) hstep) (.calling side c)
  case case19 result ok _ => exact slotMove_endRelease hl .refl ok
  case case20 side c =>
    obtain ⟨bs,hstep,he⟩ := Option.bind_eq_some_iff.mp hs
    have hk := kept_of_step (by simp) hstep
    split at he
    · cases he
      exact slotMove_endRelease hl hk true
    · cases he
      -- the slot stays in the call
      have hstay : SlotMove s i ({ s with batchers := bs }.setSlot i (s.slots i)) := slotMove_setSlot hl hk _
      rwa [RunState.setSlot,Function.update_eq_self] at hstay
  case case21 side c ok =>
    obtain ⟨bs,hstep,he⟩ := Option.bind_eq_some_iff.mp hs
    cases he
    exact slotMove_endRelease hl (kept_of_step (by simp) hstep) ok

end Slots

def JobsPc.Serving (pc : JobsPc) : Prop := pc = .dispatching ∨ pc = .draining

inductive JobsMove (cfg : RunConfig) (s : RunState n C) : RunState n C → Prop
  | opened : s.jobs = .opening → JobsMove cfg s
      { s with jobs := .dispatching, slots := fun _ => .waiting, handles := List.finRange n }
  | unopened {requested : Bool} : s.jobs = .opening → JobsMove cfg s
      { s with jobs := .releasing, firstError := some .pgListen, requested := requested }
  | join {i : Fin n} {pc : JobsPc} {sources : Channel Unit} {firstError : Option WorkerRuntimeError}
      {requested : Bool} : s.jobs.Serving → pc.Serving → ¬ (s.slots i).Live → JobsMove cfg s { s with
        jobs := pc
        handles := s.handles.erase i
        sources := sources
        firstError := firstError
        requested := requested }
  | serve {pc : JobsPc} {sources : Channel Unit} : s.jobs.Serving → pc.Serving →
      JobsMove cfg s { s with jobs := pc, sources := sources }
  | drained : s.jobs = .draining → s.handles = [] → JobsMove cfg s { s with jobs := .releasing }
  | released : s.jobs = .releasing → JobsMove cfg s { s with released := s.released + 1 }
  | finished : s.jobs = .releasing → s.released = cfg.queueCount n →
      JobsMove cfg s { s with jobs := .done s.firstError }

theorem joinSlot_some {error : Option WorkerRuntimeError} (hj : s.joinSlot i = some (s',error)) :
    ¬ (s.slots i).Live ∧ s' = { s with handles := s.handles.erase i } := by
  simp only [RunState.joinSlot] at hj
  split at hj
  · obtain ⟨r,hr,he⟩ := Option.map_eq_some_iff.mp hj
    cases he
    refine ⟨fun hl => ?_,rfl⟩
    cases hpc : s.slots i with
    | ended | unspawned =>
      rw [hpc] at hl
      exact hl
    | waiting | fetching | handling | releasing | calling =>
      rw [hpc] at hr
      cases hr
  · cases hj

theorem jobsStep_move {pc : JobsPc} {e : JobsEvent n} (hpc : s.jobs = pc) :
    jobsStep cfg s pc e = some s' → JobsMove cfg s s' := by
  fun_cases jobsStep cfg s pc e <;> rintro ⟨⟩
  case case1 => exact .opened hpc
  case case2 => exact .unopened hpc
  case case4 hj _ | case6 hj =>
    obtain ⟨hl,rfl⟩ := joinSlot_some hj
    exact .join (.inl hpc) (.inr rfl) hl
  case case5 hj _ =>
    obtain ⟨hl,rfl⟩ := joinSlot_some hj
    exact .join (.inl hpc) (.inl hpc) hl
  case case7 | case10 | case11 => exact .serve (.inl hpc) (.inr rfl)
  case case9 => exact .serve (.inl hpc) (.inl hpc)
  case case13 hj | case14 hj _ | case15 hj _ =>
    obtain ⟨hl,rfl⟩ := joinSlot_some hj
    exact .join (.inr hpc) (.inr hpc) hl
  case case16 he => exact .drained hpc (List.isEmpty_iff.mp he)
  case case18 => exact .released hpc
  case case20 hq => exact .finished hpc hq

inductive MainMove (cfg : RunConfig) (s : RunState n C) : RunState n C → Prop
  | registered {row : Bool} : s.main = .registering → (cfg.recoveryEnabled = true → row = true) →
      MainMove cfg s { s with main := .starting, row := row }
  | refused : s.main = .registering → MainMove cfg s { s with main := .refused }
  | started : s.main = .starting → MainMove cfg s { s with
      main := .running
      jobs := .opening
      recovery := fun _ => if cfg.recoveryEnabled then .running else .unspawned }
  | joined {result : Option WorkerRuntimeError} {requested : Bool} : s.main = .running → s.jobs = .done result →
      MainMove cfg s { s with main := .awaiting .completion, requested := requested }
  | batcherStopped {side : Side} {main : MainPc} {recoveryAborted : Bool} : s.main = .awaiting side →
      s.batcherStopped side = true →
      main = .awaiting .failure ∧ side = .completion ∨ main = .stopping (recoveryHandles cfg) ∧ side = .failure →
      MainMove cfg s { s with
        main := main
        held := Function.update s.held side false
        recoveryAborted := recoveryAborted }
  | handleJoined {t : RecoveryTask} {rest : List RecoveryTask} : s.main = .stopping (t :: rest) →
      s.recovery t = .ended → MainMove cfg s { s with main := .stopping rest }
  | stopped : s.main = .stopping [] → MainMove cfg s { s with main := .emitting }
  | emitted : s.main = .emitting → MainMove cfg s { s with main := .deregistering }
  | returned {result : Option WorkerRuntimeError} {row : Bool} : s.main = .deregistering →
      MainMove cfg s { s with main := .returned result, row := row }

theorem mainStep_move {pc : MainPc} {e : MainEvent} (hpc : s.main = pc) :
    mainStep cfg s pc e = some s' → MainMove cfg s s' := by
  fun_cases mainStep cfg s pc e <;> rintro ⟨⟩
  case case1 => exact .registered hpc fun he => by rw [he,Bool.or_true]
  case case2 => exact .refused hpc
  case case4 => exact .started hpc
  case case5 hj _ | case7 hj => exact .joined hpc hj
  case case9 hb => exact .batcherStopped hpc hb (.inl ⟨rfl,rfl⟩)
  case case11 hb => exact .batcherStopped hpc hb (.inr ⟨rfl,rfl⟩)
  case case13 ht => exact .handleJoined hpc ht
  case case15 => exact .stopped hpc
  case case16 => exact .emitted hpc
  case case17 => exact .returned hpc

end

end GraphileWorker.Lifecycle
