import GraphileWorker.RunOnce.Drain

/-! # Claims after the shutdown signal

The fetch of the stream is polled before the signal, and the follow-up fetch of a slot does not
look at the signal at all.
-/
namespace GraphileWorker.RunOnce
open Foundation Database

/-- The event makes a call of `get_job_with_filter`: the stream is polled for its next job, or a
slot goes on after a job of a named queue. -/
def Starts (cfg : Config) (s : State) (e : Event) : Prop :=
  (e.2 = .pollStream ∨ ∃ k, e.2 = .slot k .issue) ∧ s.fetchFailed = false ∧ (step cfg s e).isSome = true

/-- The stream gives no further job. -/
def Stream.quiet : Stream → Bool
  | .ended => true
  | .fetching (.executed none) => true
  | .fetching .failed => true
  | _ => false

/-- The slot ends without another fetch: its job, or the one its fetch has found, is in no queue. -/
def Slot.quiet : Slot → Bool
  | .starting c => c.job.jobQueueId.isNone
  | .returning _ => true
  | .running c => c.job.jobQueueId.isNone
  | .released c => c.job.jobQueueId.isNone
  | .reading _ => false
  | .fetching _ .issued => false
  | .fetching _ (.executed claim) => claim.all fun c => c.job.jobQueueId.isNone
  | .fetching _ .failed => true

def State.quiet (s : State) : Bool := s.fetchFailed || (s.stream.quiet && s.slots.all Slot.quiet)

/-- The signal resolves when nothing is left that leads to a fetch. -/
def QuietAtShutdown (s : State) (e : Event) : Prop := e.2 = .shutdown → s.shutdown = false → s.quiet = true

instance (s : State) (e : Event) : Decidable (QuietAtShutdown s e) :=
  match e with
  | (_,.shutdown) => decidable_of_iff (s.shutdown = false → s.quiet = true) ⟨fun h _ => h,fun h => h rfl⟩
  | (_,.others _) | (_,.pollStream) | (_,.executeStream _) | (_,.replyStream _) | (_,.cancelStream)
  | (_,.executeOrphan) | (_,.slot _ _) | (_,.flushQueued _ _) | (_,.flushUnqueued _ _) | (_,.flushFailures _)
  | (_,.failDirect _) | (_,.finish) => .isTrue fun h => nomatch h

variable {cfg : Config} {now : Time} {s t : State} {slot : Slot} {a : SlotAction} {slot' : Option Slot} {e : Event}

theorem quiet_of_failed (h : s.fetchFailed = true) : s.quiet = true := by rw [State.quiet,h,Bool.true_or]

theorem quiet_of_parts (hst : s.stream.quiet = true) (hsl : ∀ slot ∈ s.slots, slot.quiet = true) : s.quiet = true := by
  rw [State.quiet,hst,List.all_eq_true.mpr hsl,Bool.true_and,Bool.or_true]

theorem quiet_parts (h : s.quiet = true) (hf : s.fetchFailed = false) :
    s.stream.quiet = true ∧ ∀ slot ∈ s.slots, slot.quiet = true := by
  rw [State.quiet,hf,Bool.false_or,Bool.and_eq_true,List.all_eq_true] at h
  exact h

structure SameSources (s t : State) : Prop where
  stream : t.stream = s.stream
  slots : t.slots = s.slots
  fetchFailed : t.fetchFailed = s.fetchFailed

theorem SameSources.quiet (h : SameSources s t) (hq : s.quiet = true) : t.quiet = true := by
  rw [State.quiet,h.stream,h.slots,h.fetchFailed]
  exact hq

theorem fetchFailed_write (ok : Bool) (db : Db) : (s.write ok db).fetchFailed = s.fetchFailed := by
  unfold State.write
  split <;> rfl

theorem fetchFailed_release {job : Job} {outcome : Outcome} {closed ok : Bool}
    (h : s.release cfg now job outcome closed ok = some t) : t.fetchFailed = s.fetchFailed := by
  rcases release_cases h with ⟨_,rfl⟩ | ⟨error,payload,_,rfl⟩ | ⟨_,_,rfl⟩
  · unfold State.releaseCompleted
    split
    · split <;> rfl
    · exact fetchFailed_write ok _
  · unfold State.releaseFailed
    split
    · rfl
    · exact fetchFailed_write ok _
  · exact fetchFailed_write ok _

theorem sameSources_claimJob : SameSources s (s.claimJob cfg now).1 := by
  unfold State.claimJob
  split <;> exact ⟨rfl,rfl,rfl⟩

theorem quiet_slotStep (h : SlotStepped cfg now s slot a t slot') (hq : slot.quiet = true) : t.fetchFailed = true ∨
      (t.stream = s.stream ∧ t.slots = s.slots ∧ ∀ slot ∈ slot'.toList, slot.quiet = true) := by
  cases h with
  | startReturn c hf => exact .inl hf
  | startRun c hf => exact .inr ⟨rfl,rfl,by simpa [Slot.quiet] using hq⟩
  | returnClaim c ok =>
    have hframe : ReleaseFrame s (s.write ok (returnJobs s.db [c.job] cfg.workerId now)) := .write
    exact .inr ⟨hframe.stream,hframe.slots,by simp⟩
  | finish c outcome closed ok t h =>
    have hframe := ReleaseFrame.release h
    exact .inr ⟨hframe.stream,hframe.slots,by simpa [Slot.quiet] using hq⟩
  | nextEnd c h => exact .inr ⟨rfl,rfl,by simp⟩
  | next c hqueue hf =>
    have hnone : c.job.jobQueueId.isNone = true := hq
    rw [Option.isNone_iff_eq_none.mp hnone] at hqueue
    cases hqueue
  | issueEnd c hf => cases hq
  | issue c hf => cases hq
  | execute c ok => cases hq
  | lost c claim => exact .inl rfl
  | replyNone c => exact .inr ⟨rfl,rfl,by simp⟩
  | replySome c c' => exact .inr ⟨rfl,rfl,by simpa [Slot.quiet] using hq⟩
  | replyFailed c lost => exact .inl rfl

theorem fetchFailed_slotStep
    (h : SlotStepped cfg now s slot a t slot') (hf : s.fetchFailed = true) : t.fetchFailed = true := by
  cases h with
  | returnClaim c ok => exact (fetchFailed_write ok _).trans hf
  | finish c outcome closed ok t h => exact (fetchFailed_release h).trans hf
  | execute c ok =>
    unfold State.executeQuery
    split
    · exact sameSources_claimJob.fetchFailed.trans hf
    · exact hf
  | lost c claim => rfl
  | replyFailed c lost => rfl
  | _ => exact hf

theorem fetchFailed_step (h : step cfg s e = some t) (hf : s.fetchFailed = true) : t.fetchFailed = true := by
  cases step_cases h with
  | executeStream now ok hst =>
    show (s.executeQuery cfg now ok).1.fetchFailed = true
    unfold State.executeQuery
    split
    · exact sameSources_claimJob.fetchFailed.trans hf
    · exact hf
  | lostStream now claim hst => rfl
  | failedStream now lost hst => rfl
  | executeOrphan now ho => exact sameSources_claimJob.fetchFailed.trans hf
  | slot now k a slot rest t slot' hk hp hs =>
    have hafter : t.fetchFailed = true := fetchFailed_slotStep hs hf
    exact hafter
  | _ => exact hf

theorem quiet_step (h : step cfg s e = some t) (hq : s.quiet = true) : t.quiet = true := by
  cases hf : s.fetchFailed with
  | true => exact quiet_of_failed (fetchFailed_step h hf)
  | false =>
    obtain ⟨hst,hsl⟩ := quiet_parts hq hf
    cases step_cases h with
    | pollEnd now hidle hroom hf => exact quiet_of_failed hf
    | poll now hidle hroom hf =>
      rw [hidle] at hst
      cases hst
    | executeStream now ok hissued =>
      rw [hissued] at hst
      cases hst
    | lostStream now claim hst => exact quiet_of_failed rfl
    | streamEnd now hst => exact quiet_of_parts rfl hsl
    | streamJob now c hfound =>
      rw [hfound] at hst
      cases hst
    | failedStream now lost hst => exact quiet_of_failed rfl
    | cancelIssued now hs hst => exact quiet_of_parts rfl hsl
    | cancelAnswered now query hs hst => exact quiet_of_parts rfl hsl
    | executeOrphan now ho =>
      have hsame : SameSources s { (s.claimJob cfg now).1 with orphans := s.orphans - 1 } :=
        ⟨sameSources_claimJob.stream,sameSources_claimJob.slots,sameSources_claimJob.fetchFailed⟩
      exact hsame.quiet hq
    | slot now k a slot rest t slot' hk hp hs =>
      have hslots := fun x hx => hsl x (hp.mem_iff.mpr hx)
      obtain hfailed | ⟨hstream,hrest,hnew⟩ := quiet_slotStep hs (hslots slot List.mem_cons_self)
      · exact quiet_of_failed hfailed
      · refine quiet_of_parts (by simpa [hstream] using hst) fun x hx => ?_
        obtain hx | hx := List.mem_append.mp hx
        · exact hnew x hx
        · rw [hrest] at hx
          exact hslots x (List.mem_cons_of_mem slot hx)
    | others | shutdown | flushQueued | flushUnqueued | flushFailures | failDirect | finish =>
      exact SameSources.quiet ⟨rfl,rfl,rfl⟩ hq

theorem not_starts_of_quiet (hq : s.quiet = true) (e : Event) : ¬Starts cfg s e := by
  rintro ⟨hcall,hf,hstep⟩
  obtain ⟨hst,hsl⟩ := quiet_parts hq hf
  obtain ⟨t,ht⟩ := Option.isSome_iff_exists.mp hstep
  obtain ⟨now,a⟩ := e
  obtain rfl | ⟨k,rfl⟩ := hcall
  · cases step_cases ht with
    | pollEnd now hidle | poll now hidle =>
      rw [hidle] at hst
      cases hst
  · cases step_cases ht with
    | slot now k a slot rest t slot' hk hp hs =>
      have hslot := hsl slot (hp.mem_iff.mpr List.mem_cons_self)
      cases hs with
      | issueEnd | issue => cases hslot

theorem shutdown_executeQuery (ok : Bool) : (s.executeQuery cfg now ok).1.shutdown = s.shutdown := by
  unfold State.executeQuery
  split
  · unfold State.claimJob
    split <;> rfl
  · rfl

theorem shutdown_slotStep (h : SlotStepped cfg now s slot a t slot') : t.shutdown = s.shutdown := by
  cases h with
  | returnClaim c ok => exact ReleaseFrame.write.shutdown
  | finish c outcome closed ok t h => exact (ReleaseFrame.release h).shutdown
  | execute c ok => exact shutdown_executeQuery ok
  | _ => rfl

theorem shutdown_step (h : step cfg s e = some t) (he : e.2 ≠ .shutdown) : t.shutdown = s.shutdown := by
  cases step_cases h with
  | shutdown => exact absurd rfl he
  | executeStream now ok hst => exact shutdown_executeQuery ok
  | executeOrphan now ho => exact shutdown_executeQuery true
  | slot now k a slot rest t slot' hk hp hs =>
    have hafter := shutdown_slotStep hs
    exact hafter
  | _ => rfl

/-- If the signal resolves when a fetch has failed or nothing is left that leads to one, no fetch is started
after it. -/
theorem run_once_stops_claiming (cfg : Config) (db₀ : Db) {s : State}
    (h : Reaches (step cfg) QuietAtShutdown { db := db₀ } s) (hs : s.shutdown = true) (e : Event) :
    ¬Starts cfg s e := by
  have hinv : s.shutdown = true → s.quiet = true := by
    refine h.invariant (I := fun s => s.shutdown = true → s.quiet = true) ?_ fun h => absurd h Bool.false_ne_true
    intro s e t hok hstep hi ht
    cases hs : s.shutdown with
    | true => exact quiet_step hstep (hi hs)
    | false =>
      apply quiet_step hstep
      apply hok ?_ hs
      by_contra he
      rw [shutdown_step hstep he,hs] at ht
      cases ht
  exact not_starts_of_quiet (hinv hs) e

def twoSlots : Config := { oneWorker with concurrency := 2 }

/-- The stream has found no second job when the signal comes; the running job, which is in no
queue, is finished after it. -/
def finishingEvents : List Event :=
  streamRound ++ [(1,.slot 0 .start)] ++ streamRound ++ [(1,.shutdown),(1,.slot 0 (.finish .completed false true))]

theorem unqueued_job_finished_after_shutdown :
    exec (step twoSlots) QuietAtShutdown { db := oneReady } finishingEvents =
        some (stateAfter twoSlots oneReady finishingEvents) ∧
      (stateAfter twoSlots oneReady finishingEvents).shutdown = true ∧
      (stateAfter twoSlots oneReady finishingEvents).slots.length = 1 ∧
      ¬Starts twoSlots (stateAfter twoSlots oneReady finishingEvents) (1,.pollStream) ∧
      ¬Starts twoSlots (stateAfter twoSlots oneReady finishingEvents) (1,.slot 0 .issue) := by
  have hrun : exec (step twoSlots) QuietAtShutdown { db := oneReady } finishingEvents =
      some (stateAfter twoSlots oneReady finishingEvents) := rfl
  have hshut : (stateAfter twoSlots oneReady finishingEvents).shutdown = true := rfl
  exact ⟨hrun,hshut,rfl,run_once_stops_claiming twoSlots oneReady (reaches_exec hrun) hshut _,
    run_once_stops_claiming twoSlots oneReady (reaches_exec hrun) hshut _⟩

/-- The signal comes while a job is running. -/
def interruptedEvents : List Event :=
  streamRound ++ [(1,.slot 0 .start),(1,.shutdown),(1,.slot 0 (.finish .completed false true)),(1,.slot 0 .next)]

theorem claims_started_after_shutdown :
    (exec (step oneWorker) (fun _ _ => True) { db := twoQueued } interruptedEvents =
        some (stateAfter oneWorker twoQueued interruptedEvents) ∧
      (stateAfter oneWorker twoQueued interruptedEvents).shutdown = true ∧
      Starts oneWorker (stateAfter oneWorker twoQueued interruptedEvents) (1,.slot 0 .issue)) ∧
    exec (step oneWorker) (fun _ _ => True) { db := oneReady } interruptedEvents =
        some (stateAfter oneWorker oneReady interruptedEvents) ∧
      (stateAfter oneWorker oneReady interruptedEvents).shutdown = true ∧
      Starts oneWorker (stateAfter oneWorker oneReady interruptedEvents) (1,.pollStream) :=
  ⟨⟨rfl,rfl,.inr ⟨0,rfl⟩,rfl,rfl⟩,rfl,rfl,.inl rfl,rfl,rfl⟩

end GraphileWorker.RunOnce
