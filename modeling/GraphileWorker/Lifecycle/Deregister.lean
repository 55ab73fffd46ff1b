import GraphileWorker.Lifecycle.Moves

/-! # A worker deregisters last

When the future of `run` reaches `deregister_worker`, it has waited for all other parts.
-/
namespace GraphileWorker.Lifecycle
open Foundation Batcher Execution

namespace MainPc

/-- The job runner has not been started. -/
def Early : MainPc → Prop
  | .registering | .refused | .starting => True
  | _ => False

/-- The job runner has been waited for. -/
def Joined : MainPc → Prop
  | .awaiting _ | .stopping _ | .emitting | .deregistering | .returned _ => True
  | _ => False

/-- The task of this batcher has been waited for. -/
def Flushed : MainPc → Side → Prop
  | .awaiting .failure, .completion | .stopping _, _ | .emitting, _ | .deregistering, _ | .returned _, _ => True
  | _, _ => False

/-- This recovery task has been waited for. -/
def Stopped : MainPc → RecoveryTask → Prop
  | .stopping handles, t => t ∉ handles
  | .emitting, _ | .deregistering, _ | .returned _, _ => True
  | _, _ => False

def Registered : MainPc → Prop
  | .starting | .running | .awaiting _ | .stopping _ | .emitting | .deregistering => True
  | _ => False

end MainPc

/-- What the position of the job runner says about slots and local queues. -/
def JobsPc.At (queueCount : ℕ) {n : ℕ} (handles : List (Fin n)) (released : ℕ) : JobsPc → Prop
  | .idle | .opening | .releasing => handles = []
  | .dispatching | .draining => True
  | .done _ => handles = [] ∧ released = queueCount

section
variable {n : ℕ} {C : Type} {cfg : RunConfig} {s s' : RunState n C} {i : Fin n} {side : Side} {t : RecoveryTask}
  {e : RecoveryEvent}

structure RunInv (cfg : RunConfig) (s : RunState n C) : Prop where
  batchers : BatchersOk s.batchers s.held
  slots : ∀ i, (s.slots i).Live → i ∈ s.handles
  jobs : s.jobs.At (cfg.queueCount n) s.handles s.released
  early : s.main.Early → s.jobs = .idle
  joined : s.main.Joined → ∃ result, s.jobs = .done result
  flushed : ∀ side, s.main.Flushed side → Returned s.batchers side
  spawned : ∀ t, s.recovery t = .running → cfg.recoveryEnabled = true
  stopped : ∀ t, s.main.Stopped t → s.recovery t ≠ .running
  row : s.main.Registered → cfg.recoveryEnabled = true → s.row = true

theorem RunInv.slot [DecidableEq C] (h : RunInv cfg s) (hm : SlotMove s i s') : RunInv cfg s' := by
  cases hm with
  | mk hl hk =>
    refine { h with
      batchers := h.batchers.kept hk
      slots := fun j hj => ?_
      flushed := fun side hside => (h.flushed side hside).kept hk }
    by_cases he : j = i
    · subst he
      exact h.slots j hl
    · simp only [Function.update_of_ne he] at hj
      exact h.slots j hj

theorem JobsMove.active (hm : JobsMove cfg s s') : s.jobs ≠ .idle ∧ ∀ result, s.jobs ≠ .done result := by
  have hpc : s.jobs = .opening ∨ s.jobs.Serving ∨ s.jobs = .releasing := by
    cases hm with
    | opened hj | unopened hj => exact .inl hj
    | join hj | serve hj => exact .inr (.inl hj)
    | drained hj => exact .inr (.inl (.inr hj))
    | released hj | finished hj => exact .inr (.inr hj)
  obtain hj | (hj | hj) | hj := hpc <;> simp [hj]

theorem JobsMove.frame (hm : JobsMove cfg s s') : s'.main = s.main ∧ s'.batchers = s.batchers ∧ s'.held = s.held ∧
    s'.recovery = s.recovery ∧ s'.row = s.row := by
  cases hm with
  | opened | unopened | join | serve | drained | released | finished => exact ⟨rfl,rfl,rfl,rfl,rfl⟩

theorem RunInv.jobs_slots (h : RunInv cfg s) (hm : JobsMove cfg s s') (j : Fin n) (hj : (s'.slots j).Live) :
    j ∈ s'.handles := by
  cases hm with
  | opened => exact List.mem_finRange j
  | unopened | serve | drained | released | finished => exact h.slots j hj
  | join hs hp hl =>
    refine (List.mem_erase_of_ne ?_).mpr (h.slots j hj)
    rintro rfl
    exact hl hj

theorem RunInv.jobs_at (h : RunInv cfg s) (hm : JobsMove cfg s s') :
    s'.jobs.At (cfg.queueCount n) s'.handles s'.released := by
  have hat := h.jobs
  cases hm with
  | opened => exact trivial
  | unopened hj =>
    rw [hj] at hat
    exact hat
  | join hs hp | serve hs hp => obtain hp | hp := hp <;> rw [hp] <;> trivial
  | drained hj hh => exact hh
  | released hj =>
    rw [hj] at hat
    dsimp only
    rw [hj]
    exact hat
  | finished hj hq =>
    rw [hj] at hat
    exact ⟨hat,hq⟩

theorem RunInv.job (h : RunInv cfg s) (hm : JobsMove cfg s s') : RunInv cfg s' := by
  obtain ⟨hmain,hbatchers,hheld,hrecovery,hrow⟩ := hm.frame
  refine ⟨?_,h.jobs_slots hm,h.jobs_at hm,?_,?_,?_,?_,?_,?_⟩
  · rw [hbatchers,hheld]
    exact h.batchers
  · intro he
    rw [hmain] at he
    exact absurd (h.early he) hm.active.1
  · intro he
    rw [hmain] at he
    obtain ⟨result,hresult⟩ := h.joined he
    exact absurd hresult (hm.active.2 result)
  · rw [hmain,hbatchers]
    exact h.flushed
  · rw [hrecovery]
    exact h.spawned
  · rw [hmain,hrecovery]
    exact h.stopped
  · rw [hmain,hrow]
    exact h.row

theorem RunInv.returned (h : RunInv cfg s) (hb : s.batcherStopped side = true) : Returned s.batchers side := by
  intro b hside
  obtain ⟨hsound,hheld⟩ := h.batchers side b hside
  simp only [RunState.batcherStopped,hside,Bool.or_eq_true,Bool.not_eq_true'] at hb
  obtain hempty | hend := hb
  · exact hheld hempty
  · exact hsound.returned_of_ended hend

theorem RunInv.release_handle (h : RunInv cfg s) (hb : s.batcherStopped side = true) :
    BatchersOk s.batchers (Function.update s.held side false) := by
  intro other b hother
  refine ⟨(h.batchers other b hother).1,fun hheld => ?_⟩
  by_cases he : other = side
  · subst he
    exact h.returned hb b hother
  · rw [Function.update_of_ne he] at hheld
    exact (h.batchers other b hother).2 hheld

theorem mem_recoveryHandles (he : cfg.recoveryEnabled = true) (t : RecoveryTask) : t ∈ recoveryHandles cfg := by
  rw [recoveryHandles,if_pos he]
  cases t <;> simp

theorem RunInv.main_step (h : RunInv cfg s) (hm : MainMove cfg s s') : RunInv cfg s' := by
  have hearly := h.early
  have hjoined := h.joined
  have hflushed := h.flushed
  have hstopped := h.stopped
  have hrow := h.row
  cases hm with
  | registered hpc hreg =>
    rw [hpc] at hearly
    exact { h with
      early := fun _ => hearly trivial
      joined := False.elim
      flushed := fun _ => False.elim
      stopped := fun _ => False.elim
      row := fun _ => hreg }
  | refused hpc =>
    rw [hpc] at hearly
    exact { h with
      early := fun _ => hearly trivial
      joined := False.elim
      flushed := fun _ => False.elim
      stopped := fun _ => False.elim
      row := False.elim }
  | started hpc =>
    rw [hpc] at hearly hrow
    have hat := h.jobs
    rw [hearly trivial] at hat
    exact { h with
      jobs := hat
      early := False.elim
      joined := False.elim
      flushed := fun _ => False.elim
      spawned := fun t ht => by
        by_contra he
        rw [if_neg he] at ht
        cases ht
      stopped := fun _ => False.elim
      row := hrow }
  | joined hpc hj =>
    rw [hpc] at hrow
    exact { h with
      early := False.elim
      joined := fun _ => ⟨_,hj⟩
      flushed := fun side hside => by cases side <;> exact hside.elim
      stopped := fun _ => False.elim
      row := hrow }
  | batcherStopped hpc hb hnext =>
    rw [hpc] at hjoined hflushed hrow
    obtain ⟨rfl,rfl⟩ | ⟨rfl,rfl⟩ := hnext
    · exact { h with
        batchers := h.release_handle hb
        early := False.elim
        joined := fun _ => hjoined trivial
        flushed := fun side hside => by
          cases side with
          | completion => exact h.returned hb
          | failure => exact hside.elim
        stopped := fun _ => False.elim
        row := hrow }
    · exact { h with
        batchers := h.release_handle hb
        early := False.elim
        joined := fun _ => hjoined trivial
        flushed := fun side _ => by
          cases side with
          | completion => exact hflushed .completion trivial
          | failure => exact h.returned hb
        -- without recovery there is no handle, and no task either
        stopped := fun t ht hrun => ht (mem_recoveryHandles (h.spawned t hrun) t)
        row := hrow }
  | @handleJoined t rest hpc ht =>
    rw [hpc] at hjoined hflushed hstopped hrow
    refine { h with
      early := False.elim
      joined := hjoined
      flushed := hflushed
      stopped := fun u hu => ?_
      row := hrow }
    by_cases he : u = t
    · rw [he,ht]
      exact nofun
    · exact hstopped u (by simpa [MainPc.Stopped,he] using hu)
  | stopped hpc =>
    rw [hpc] at hjoined hflushed hstopped hrow
    exact { h with
      early := False.elim
      joined := hjoined
      flushed := hflushed
      stopped := fun t _ => hstopped t List.not_mem_nil
      row := hrow }
  | emitted hpc =>
    rw [hpc] at hjoined hflushed hstopped hrow
    exact { h with
      early := False.elim
      joined := hjoined
      flushed := hflushed
      stopped := hstopped
      row := hrow }
  | returned hpc =>
    rw [hpc] at hjoined hflushed hstopped
    exact { h with
      early := False.elim
      joined := hjoined
      flushed := hflushed
      stopped := hstopped
      row := False.elim }

theorem recoveryStep_cases (hs : recoveryStep s t e = some s') :
    s' = { s with row := true } ∨ s' = { s with recovery := Function.update s.recovery t .ended } := by
  cases e with
  | beat =>
    cases t with
    | heartbeat =>
      cases hs
      exact .inl rfl
    | sweep => cases hs
  | aborted =>
    simp only [recoveryStep] at hs
    split at hs
    · cases hs
      exact .inr rfl
    · cases hs
  | shutdown =>
    cases t with
    | heartbeat => cases hs
    | sweep =>
      simp only [recoveryStep] at hs
      split at hs
      · cases hs
        exact .inr rfl
      · cases hs
  | panicked =>
    simp only [recoveryStep] at hs
    cases hs
    exact .inr rfl

theorem running_of_update {recovery : RecoveryTask → RecoveryPc} {u : RecoveryTask}
    (h : Function.update recovery t .ended u = .running) : recovery u = .running := by
  by_cases he : u = t
  · subst he
    rw [Function.update_self] at h
    cases h
  · rwa [Function.update_of_ne he] at h

theorem RunInv.recover (h : RunInv cfg s) (hs : recoveryStep s t e = some s') : RunInv cfg s' := by
  obtain rfl | rfl := recoveryStep_cases hs
  · exact { h with row := fun _ _ => rfl }
  · exact { h with
      spawned := fun u hu => h.spawned u (running_of_update hu)
      stopped := fun u hu hrun => h.stopped u hu (running_of_update hrun) }

variable [DecidableEq C] {hasQueue : C → Bool} {hasHooks : Bool}

omit [DecidableEq C] in
theorem runInv_start {batchers : Batchers C} {held : Side → Bool} (h : BatchersOk batchers held)
    (requested shutdown row : Bool) :
    RunInv cfg (RunState.start batchers held requested shutdown row : RunState n C) where
  batchers := h
  slots _ hl := hl.elim
  jobs := rfl
  early _ := rfl
  joined := False.elim
  flushed _ := False.elim
  spawned _ ht := by cases ht
  stopped _ := False.elim
  row := False.elim

theorem RunInv.keep (h : RunInv cfg s) {bs : Batchers C} (hk : Kept s.batchers bs) :
    RunInv cfg { s with batchers := bs } :=
  { h with batchers := h.batchers.kept hk, flushed := fun side hside => (h.flushed side hside).kept hk }

theorem RunInv.step (h : RunInv cfg s) {a : RunAction n C} (hs : runStep cfg hasQueue hasHooks s a = some s') :
    RunInv cfg s' := by
  cases a with
  | main e => exact h.main_step (mainStep_move rfl hs)
  | jobs e => exact h.job (jobsStep_move rfl hs)
  | slot i e => exact h.slot (slotStep_move rfl hs)
  | batcher side e =>
    obtain ⟨bs,hstep,rfl⟩ := Option.map_eq_some_iff.mp hs
    exact h.keep (kept_of_step (by simp) hstep)
  | recovery t e =>
    simp only [runStep] at hs
    split at hs
    · exact h.recover hs
    · cases hs
  | cronEnd =>
    simp only [runStep] at hs
    split at hs
    · cases hs
      exact { h with }
    · cases hs
  | request =>
    cases hs
    exact { h with }
  | fire =>
    simp only [runStep] at hs
    split at hs
    · cases hs
      have hk : Kept s.batchers s.batchers.signal := fun side => moved_signal (P := (· ≠ .abort)) (by simp) side
      exact { h.keep hk with }
    · cases hs

omit [DecidableEq C] in
theorem RunInv.not_live (h : RunInv cfg s) (hh : s.handles = []) (i : Fin n) : ¬ (s.slots i).Live := by
  intro hl
  have hmem := h.slots i hl
  rw [hh] at hmem
  cases hmem

omit [DecidableEq C] in
theorem RunInv.running_of_live (h : RunInv cfg s) (hl : (s.slots i).Live) : s.main = .running := by
  have hat := h.jobs
  cases hpc : s.main with
  | running => rfl
  | registering | refused | starting =>
    rw [h.early (by rw [hpc]; exact trivial)] at hat
    exact absurd hl (h.not_live hat i)
  | awaiting | stopping | emitting | deregistering | returned =>
    obtain ⟨result,hresult⟩ := h.joined (by rw [hpc]; exact trivial)
    rw [hresult] at hat
    exact absurd hl (h.not_live hat.1 i)

/-- From the call of `deregister_worker` on, slots, local queues, batchers and recovery tasks are over. While
a handler executes, the row of a worker with recovery is there. -/
theorem worker_deregisters_last {batchers : Batchers C} {held : Side → Bool} {requested shutdown row : Bool}
    (hb : ∀ side b, batchers side = some b →
      Reaches (batcherStep batcherChannelCapacity hasQueue hasHooks) (fun _ a => a ≠ .abort) {} b ∧
        (held side = false → b.task = .returned))
    (h : Reaches (runStep cfg hasQueue hasHooks) (fun _ _ => True) (.start batchers held requested shutdown row) s) :
    (s.main = .deregistering ∨ (∃ result, s.main = .returned result) →
      (∀ i, ¬ (s.slots i).Live) ∧ s.released = cfg.queueCount n ∧
      (∀ side b, s.batchers side = some b → ∀ c, b.call c = .accepted → b.finished.flatten.count c = 1) ∧
      ∀ t, s.recovery t ≠ .running) ∧
    (s.main = .refused → (∀ i, ¬ (s.slots i).Live) ∧ s.jobs = .idle) ∧
    (∀ i, s.slots i = .handling → s.main = .running ∧ (cfg.recoveryEnabled = true → s.row = true)) := by
  have hok : BatchersOk batchers held := fun side b hside =>
    ⟨sound_of_reaches (hb side b hside).1,(hb side b hside).2⟩
  have hinv : RunInv cfg s := h.invariant (fun _ _ _ _ hs hi => hi.step hs) (runInv_start hok requested shutdown row)
  have hat := hinv.jobs
  refine ⟨fun hend => ?_,fun href => ?_,fun i hi => ?_⟩
  · have hpos : s.main.Joined ∧ (∀ side, s.main.Flushed side) ∧ ∀ t, s.main.Stopped t := by
      obtain hd | ⟨result,hr⟩ := hend
      · rw [hd]
        exact ⟨trivial,fun _ => trivial,fun _ => trivial⟩
      · rw [hr]
        exact ⟨trivial,fun _ => trivial,fun _ => trivial⟩
    obtain ⟨result,hresult⟩ := hinv.joined hpos.1
    rw [hresult] at hat
    refine ⟨hinv.not_live hat.1,hat.2,fun side b hside c hc => ?_,fun t => hinv.stopped t (hpos.2.2 t)⟩
    exact (hinv.batchers side b hside).1.flushed (hinv.flushed side (hpos.2.1 side) b hside) hc
  · have hidle := hinv.early (by rw [href]; exact trivial)
    rw [hidle] at hat
    exact ⟨hinv.not_live hat,hidle⟩
  · have hrun := hinv.running_of_live (by rw [hi]; exact trivial)
    exact ⟨hrun,hinv.row (by rw [hrun]; exact trivial)⟩

end

/-- Two slots over one local queue: `i` completes a job, `j` panics while it looks for one. The
completion `c` is flushed after the shutdown that the panic asks for. -/
def panickingSlot {n : ℕ} {C : Type} (i j : Fin n) (c : C) : List (RunAction n C) :=
  [.main (.registered true),.main .started,.jobs (.opened true),.cronEnd,.jobs .source,.slot i .recv,.slot j .recv,
    .slot i .found,.recovery .heartbeat .beat,.slot j .panic,.jobs (.slotDone j),.fire,.slot i (.handled (.ok ())),
    .slot i (.report c),.slot i .send,.slot i .nothing,.slot i .shutdown,.jobs (.slotDone i),.jobs .noHandle,
    .jobs .queueReleased,.jobs .finished,.main .joined,.recovery .sweep .shutdown,.batcher .completion .shutdown,
    .batcher .completion .tryRecv,.batcher .completion .tryRecv,.batcher .completion .flushed,.main .batcherStopped,
    .main .batcherStopped,.recovery .heartbeat .aborted,.main .handleJoined,.main .handleJoined,.main .handleJoined,
    .main .emitted]

theorem panicking_slot_deregisters :
    ∃ s, Reaches (runStep ⟨some 1,false,true⟩ (fun _ => false) false) (fun _ _ => True)
        (.start (.start true false) (fun _ => true) false false false : RunState 2 (Fin 1)) s ∧
      s.main = .deregistering ∧ (∀ i, ¬ (s.slots i).Live) ∧ s.released = 1 ∧ s.firstError = some .workerTask ∧
      ∃ b, s.batchers .completion = some b ∧ b.finished.flatten.count 0 = 1 := by
  have hrun : (exec (runStep ⟨some 1,false,true⟩ (fun _ => false) false) (fun _ _ => True)
      (.start (.start true false) (fun _ => true) false false false : RunState 2 (Fin 1)) (panickingSlot 0 1 0)).map
        (fun s => (s.main,s.firstError,(s.batchers .completion).map fun b => b.call 0)) =
      some (.deregistering,some .workerTask,some .accepted) := by decide +kernel
  obtain ⟨s,hs,hval⟩ := Option.map_eq_some_iff.mp hrun
  simp only [Prod.mk.injEq] at hval
  obtain ⟨hmain,herror,hb⟩ := hval
  obtain ⟨b,hb,hcall⟩ := Option.map_eq_some_iff.mp hb
  have hreach := reaches_exec hs
  have hstart : ∀ side b, (.start true false : Batchers (Fin 1)) side = some b →
      Reaches (batcherStep batcherChannelCapacity (fun _ => false) false) (fun _ a => a ≠ .abort) {} b ∧
        (true = false → b.task = .returned) := by
    intro side b hside
    cases side with
    | completion =>
      cases hside
      exact ⟨.refl,nofun⟩
    | failure => cases hside
  obtain ⟨hslots,hreleased,hflushed,-⟩ := (worker_deregisters_last hstart hreach).1 (.inl hmain)
  exact ⟨s,hreach,hmain,hslots,hreleased,herror,b,hb,hflushed .completion b hb 0 hcall⟩

end GraphileWorker.Lifecycle
