import GraphileWorker.RunOnce.Model

/-! # Every claim of a run is executed or returned

A committed claim is in the answer of a fetch, in a slot that is about to look at it, among the
executed or among the returned ones; `places` counts where it is.
-/
namespace GraphileWorker.RunOnce
open Foundation Database

def Query.held : Query → List ℕ
  | .executed (some c) => [c.number]
  | _ => []

def Stream.held : Stream → List ℕ
  | .fetching query => query.held
  | _ => []

def Slot.held : Slot → List ℕ
  | .starting c => [c.number]
  | .fetching _ query => query.held
  | _ => []

def places (s : State) (n : ℕ) : ℕ :=
  s.stream.held.count n + (s.slots.flatMap Slot.held).count n + s.ran.count n + s.returned.count n

/-- Every claim is in one place. -/
def Accounts (s : State) : Prop := ∀ n, places s n = if n < s.claims.length then 1 else 0

/-- No answer that carries a claim is lost, and a dropped fetch claims nothing later. -/
def KeepsAnswers (cfg : Config) (s : State) : Event → Prop
  | (_,.replyStream lost) => lost = true → s.stream.held = []
  | (_,.cancelStream) => s.stream.held = []
  | (_,.slot k (.reply lost)) => lost = true → ∀ slot ∈ s.slots[k]?, slot.held = []
  | (now,.executeOrphan) => candidates s.db cfg.taskIds cfg.filter now 1 = []
  | _ => True

variable {cfg : Config} {s t : State} {now : Time}

theorem claimJob_cases (cfg : Config) (now : Time) (s : State) :
    (candidates s.db cfg.taskIds cfg.filter now 1 = [] ∧
      s.claimJob cfg now = ({ s with db := claimRows s.db cfg.workerId now [] },none)) ∨
    ∃ r, candidates s.db cfg.taskIds cfg.filter now 1 = [r] ∧
      s.claimJob cfg now = ({ s with
        db := claimRows s.db cfg.workerId now [r]
        claims := s.claims ++ [r.claim cfg.workerId now] },
        some ⟨s.claims.length,r.claim cfg.workerId now⟩) := by
  unfold State.claimJob getJobWithFilter
  cases hc : candidates s.db cfg.taskIds cfg.filter now 1 with
  | nil => exact .inl ⟨rfl,rfl⟩
  | cons r rest =>
    have hlen : (candidates s.db cfg.taskIds cfg.filter now 1).length ≤ 1 := by
      unfold candidates
      exact List.length_take_le _ _
    rw [hc] at hlen
    obtain rfl : rest = [] := by
      cases rest with
      | nil => rfl
      | cons _ _ => simp at hlen
    exact .inr ⟨r,rfl,rfl⟩

def SameLedger (s t : State) : Prop :=
  t.stream.held = s.stream.held ∧ t.slots = s.slots ∧ t.claims = s.claims ∧ t.ran = s.ran ∧
    t.returned = s.returned

theorem SameLedger.accounts (h : SameLedger s t) (hi : Accounts s) : Accounts t := by
  obtain ⟨hst,hsl,hc,hr,hre⟩ := h
  intro n
  simpa [places,hst,hsl,hc,hr,hre] using hi n

theorem sameLedger_failFetch : SameLedger s s.failFetch := ⟨rfl,rfl,rfl,rfl,rfl⟩

theorem ReleaseFrame.sameLedger (h : ReleaseFrame s t) : SameLedger s t :=
  ⟨congrArg Stream.held h.stream,h.slots,h.claims,h.ran,h.returned⟩

theorem executeQuery_ledger (cfg : Config) (now : Time) (s : State) (ok : Bool) :
    let r := s.executeQuery cfg now ok
    r.1.stream.held = s.stream.held ∧ r.1.slots = s.slots ∧ r.1.ran = s.ran ∧ r.1.returned = s.returned ∧
      ∀ n, r.2.held.count n + (if n < s.claims.length then 1 else 0) = if n < r.1.claims.length then 1 else 0 := by
  unfold State.executeQuery
  split
  · rcases claimJob_cases cfg now s with ⟨_,he⟩ | ⟨r,_,he⟩
    · rw [he]
      exact ⟨rfl,rfl,rfl,rfl,fun n => by simp [Query.held]⟩
    · rw [he]
      refine ⟨rfl,rfl,rfl,rfl,fun n => ?_⟩
      simp only [Query.held,List.length_append,List.length_singleton,List.count_singleton]
      by_cases hn : n < s.claims.length
      · have hne : ¬(s.claims.length == n) = true := by simp; omega
        rw [if_pos hn,if_neg hne,if_pos (by omega)]
      · by_cases he : s.claims.length = n
        · simp [he]
        · have hne : ¬(s.claims.length == n) = true := by simpa using he
          rw [if_neg hn,if_neg hne,if_neg (by omega)]
  · exact ⟨rfl,rfl,rfl,rfl,fun n => by simp [Query.held]⟩

theorem slotStep_places {slot : Slot} {a : SlotAction} {slot' : Option Slot}
    (hok : ∀ lost, a = .reply lost → lost = true → slot.held = []) (h : SlotStepped cfg now s slot a t slot') :
    t.stream.held = s.stream.held ∧ t.slots = s.slots ∧
      ∀ n, (slot'.toList.flatMap Slot.held).count n + t.ran.count n + t.returned.count n +
          (if n < s.claims.length then 1 else 0) =
        slot.held.count n + s.ran.count n + s.returned.count n + if n < t.claims.length then 1 else 0 := by
  cases h with
  | startReturn c hf => exact ⟨rfl,rfl,fun n => by simp [Slot.held,List.count_append]; omega⟩
  | startRun c hf => exact ⟨rfl,rfl,fun n => by simp [Slot.held,List.count_append]; omega⟩
  | returnClaim c ok =>
    obtain ⟨hst,hsl,hc,hr,hre⟩ : SameLedger s (s.write ok (returnJobs s.db [c.job] cfg.workerId now)) :=
      ReleaseFrame.write.sameLedger
    exact ⟨hst,hsl,fun n => by simp [Slot.held,hc,hr,hre]⟩
  | finish c outcome closed ok t h =>
    obtain ⟨hst,hsl,hc,hr,hre⟩ := (ReleaseFrame.release h).sameLedger
    exact ⟨hst,hsl,fun n => by simp [Slot.held,hc,hr,hre]⟩
  | nextEnd c h => exact ⟨rfl,rfl,fun n => by simp [Slot.held]⟩
  | next c hq hf => exact ⟨rfl,rfl,fun n => by simp [Slot.held]⟩
  | issueEnd c hf => exact ⟨rfl,rfl,fun n => by simp [Slot.held]⟩
  | issue c hf => exact ⟨rfl,rfl,fun n => by simp [Slot.held,Query.held]⟩
  | execute c ok =>
    obtain ⟨hst,hsl,hr,hre,hn⟩ := executeQuery_ledger cfg now s ok
    refine ⟨hst,hsl,fun n => ?_⟩
    have := hn n
    have hissued : Query.issued.held = [] := rfl
    simp only [Option.toList_some,List.flatMap_singleton,Slot.held,hr,hre,hissued,List.count_nil]
    omega
  | lost c claim =>
    have hnil := hok true rfl rfl
    obtain ⟨hst,hsl,hc,hr,hre⟩ := sameLedger_failFetch (s := s)
    exact ⟨hst,hsl,fun n => by simp [hnil,hc,hr,hre]⟩
  | replyNone c => exact ⟨rfl,rfl,fun n => by simp [Slot.held,Query.held]⟩
  | replySome c c' => exact ⟨rfl,rfl,fun n => by simp [Slot.held,Query.held]⟩
  | replyFailed c lost =>
    obtain ⟨hst,hsl,hc,hr,hre⟩ := sameLedger_failFetch (s := s)
    exact ⟨hst,hsl,fun n => by simp [Slot.held,Query.held,hc,hr,hre]⟩

theorem places_perm {slots : List Slot} (h : s.slots.Perm slots) (n : ℕ) :
    places s n = s.stream.held.count n + (slots.flatMap Slot.held).count n + s.ran.count n +
      s.returned.count n := by
  unfold places
  rw [(h.flatMap_right Slot.held).count_eq n]

theorem accounts_step {e : Event} (hok : KeepsAnswers cfg s e) (h : step cfg s e = some t) (hi : Accounts s) :
    Accounts t := by
  cases step_cases h with
  | others now db => exact SameLedger.accounts ⟨rfl,rfl,rfl,rfl,rfl⟩ hi
  | shutdown now => exact SameLedger.accounts ⟨rfl,rfl,rfl,rfl,rfl⟩ hi
  | pollEnd now hst hroom hf =>
    have hheld : s.stream.held = [] := by rw [hst]; rfl
    exact SameLedger.accounts ⟨hheld.symm,rfl,rfl,rfl,rfl⟩ hi
  | poll now hst hroom hf =>
    have hheld : s.stream.held = [] := by rw [hst]; rfl
    exact SameLedger.accounts ⟨hheld.symm,rfl,rfl,rfl,rfl⟩ hi
  | executeStream now ok hst =>
    have hheld : s.stream.held = [] := by rw [hst]; rfl
    obtain ⟨_,hsl,hr,hre,hn⟩ := executeQuery_ledger cfg now s ok
    intro n
    have hold := hi n
    have hnew := hn n
    rw [places,hheld,List.count_nil] at hold
    simp only [places,Stream.held,hsl,hr,hre]
    omega
  | lostStream now claim hst => exact SameLedger.accounts ⟨(hok rfl).symm,rfl,rfl,rfl,rfl⟩ hi
  | streamEnd now hst =>
    have hheld : s.stream.held = [] := by rw [hst]; rfl
    exact SameLedger.accounts ⟨hheld.symm,rfl,rfl,rfl,rfl⟩ hi
  | streamJob now c hst =>
    have hheld : s.stream.held = [c.number] := by rw [hst]; rfl
    intro n
    have hold := hi n
    rw [places,hheld] at hold
    simp only [places,Stream.held,Slot.held,List.flatMap_cons,List.count_append,List.count_nil]
    omega
  | failedStream now lost hst =>
    have hheld : s.stream.held = [] := by rw [hst]; rfl
    exact SameLedger.accounts ⟨hheld.symm,rfl,rfl,rfl,rfl⟩ hi
  | cancelIssued now hs hst =>
    have hheld : s.stream.held = [] := by rw [hst]; rfl
    exact SameLedger.accounts ⟨hheld.symm,rfl,rfl,rfl,rfl⟩ hi
  | cancelAnswered now query hs hst =>
    have hheld : s.stream.held = [] := hok
    exact SameLedger.accounts ⟨hheld.symm,rfl,rfl,rfl,rfl⟩ hi
  | executeOrphan now ho =>
    rcases claimJob_cases cfg now s with ⟨_,he⟩ | ⟨r,hr,_⟩
    · rw [he]
      exact SameLedger.accounts ⟨rfl,rfl,rfl,rfl,rfl⟩ hi
    · have hnil : candidates s.db cfg.taskIds cfg.filter now 1 = [] := hok
      rw [hnil] at hr
      cases hr
  | slot now k action slot rest s' slot' hk hp hs' =>
    have hreply : ∀ lost, action = .reply lost → lost = true → slot.held = [] := by
      rintro lost rfl hl
      exact hok hl slot hk
    obtain ⟨hst,hsl,hn⟩ := slotStep_places hreply hs'
    intro n
    have hold := hi n
    rw [places_perm hp] at hold
    have hnew := hn n
    simp only [places,List.flatMap_append,List.count_append,List.flatMap_cons] at hold hnew ⊢
    rw [hst,hsl]
    simp only at hnew ⊢
    omega
  | flushQueued now n ok => exact SameLedger.accounts ⟨rfl,rfl,rfl,rfl,rfl⟩ hi
  | flushUnqueued now n ok => exact SameLedger.accounts ⟨rfl,rfl,rfl,rfl,rfl⟩ hi
  | flushFailures now n => exact SameLedger.accounts ⟨rfl,rfl,rfl,rfl,rfl⟩ hi
  | failDirect now ok f rest hf => exact SameLedger.accounts ⟨rfl,rfl,rfl,rfl,rfl⟩ hi
  | finish now hst hsl hfin => exact SameLedger.accounts ⟨rfl,rfl,rfl,rfl,rfl⟩ hi

theorem finish_cases (h : step cfg s (now,.finish) = some t) :
    s.stream = .ended ∧ s.slots = [] ∧ t = { s with finished := true } := by
  cases step_cases h with
  | finish now hst hsl hfin => exact ⟨hst,hsl,rfl⟩

/-- If no answer carrying a claim is lost, every claim that committed was executed once and never returned, or
returned once and never executed. -/
theorem run_once_accounts_claims (cfg : Config) (db₀ : Db) (now : Time) {s t : State}
    (h : Reaches (step cfg) (KeepsAnswers cfg) { db := db₀ } s) (hf : step cfg s (now,.finish) = some t) :
    ∀ n < t.claims.length, (t.ran.count n = 1 ∧ n ∉ t.returned) ∨ (n ∉ t.ran ∧ t.returned.count n = 1) := by
  have hinit : Accounts { db := db₀ } := fun n => by simp [places,Stream.held]
  have hacc : Accounts s := h.invariant (I := Accounts) (fun _ _ _ hok he hi => accounts_step hok he hi) hinit
  obtain ⟨hst,hsl,rfl⟩ := finish_cases hf
  show ∀ n < s.claims.length, (s.ran.count n = 1 ∧ n ∉ s.returned) ∨ (n ∉ s.ran ∧ s.returned.count n = 1)
  intro n hn
  have hone := hacc n
  rw [places,hst,hsl,if_pos hn] at hone
  simp only [Stream.held,List.flatMap_nil,List.count_nil] at hone
  by_cases hr : n ∈ s.ran
  · have hpos := List.count_pos_iff.mpr hr
    refine .inl ⟨by omega,fun hm => ?_⟩
    have := List.count_pos_iff.mpr hm
    omega
  · have hzero := List.count_eq_zero.mpr hr
    exact .inr ⟨hr,by omega⟩

instance (cfg : Config) (s : State) : (e : Event) → Decidable (KeepsAnswers cfg s e)
  | (_,.replyStream lost) => inferInstanceAs (Decidable (lost = true → s.stream.held = []))
  | (_,.cancelStream) => inferInstanceAs (Decidable (s.stream.held = []))
  | (_,.slot k (.reply lost)) =>
    inferInstanceAs (Decidable (lost = true → ∀ slot ∈ s.slots[k]?, slot.held = []))
  | (now,.executeOrphan) =>
    decidable_of_iff ((candidates s.db cfg.taskIds cfg.filter now 1).isEmpty = true) List.isEmpty_iff
  | (_,.others _) | (_,.shutdown) | (_,.pollStream) | (_,.executeStream _) | (_,.slot _ .start)
  | (_,.slot _ (.returnClaim _)) | (_,.slot _ (.finish _ _ _)) | (_,.slot _ .next) | (_,.slot _ .issue)
  | (_,.slot _ (.execute _)) | (_,.flushQueued _ _) | (_,.flushUnqueued _ _) | (_,.flushFailures _)
  | (_,.failDirect _) | (_,.finish) => .isTrue trivial

def oneWorker : Config where
  workerId := "w"
  taskIds := [1]
  filter := .unrestricted
  concurrency := 1
  completionBatcher := false
  failureBatcher := false
  hooks := {}
  interruptedJobRetryDelayMs := 0

def oneReady : Db := after [(0,.addJob ⟨"task",.null,{}⟩ none)]

def drainingEvents : List Event :=
  [(1,.pollStream),(1,.executeStream true),(1,.replyStream false),(1,.slot 0 .start),
    (1,.slot 0 (.finish .completed false true)),(1,.slot 0 .next),(1,.pollStream),(1,.executeStream true),
    (1,.replyStream false)]

def stateAfter (cfg : Config) (db : Db) (events : List Event) : State :=
  events.foldl (fun s e => (step cfg s e).getD s) { db := db }

theorem completed_claim_accounted :
    let s := stateAfter oneWorker oneReady drainingEvents
    let t := stateAfter oneWorker oneReady (drainingEvents ++ [(1,.finish)])
    exec (step oneWorker) (KeepsAnswers oneWorker) { db := oneReady } drainingEvents = some s ∧
      step oneWorker s (1,.finish) = some t ∧ t.claims.length = 1 ∧ t.ran = [0] ∧
      ((t.ran.count 0 = 1 ∧ 0 ∉ t.returned) ∨ (0 ∉ t.ran ∧ t.returned.count 0 = 1)) :=
  ⟨rfl,rfl,rfl,rfl,run_once_accounts_claims oneWorker oneReady 1 (reaches_exec (rfl :
    exec (step oneWorker) (KeepsAnswers oneWorker) { db := oneReady } drainingEvents =
      some (stateAfter oneWorker oneReady drainingEvents))) rfl 0 (by decide)⟩

/-- The shutdown signal comes when the claim has committed and its answer is on the way. -/
def cutOffEvents : List Event :=
  [(1,.pollStream),(1,.executeStream true),(1,.shutdown),(1,.cancelStream),(1,.finish)]

theorem cut_off_claim_stranded :
    let t := stateAfter oneWorker oneReady cutOffEvents
    exec (step oneWorker) (fun _ _ => True) { db := oneReady } cutOffEvents = some t ∧
      t.finished = true ∧ t.runError = false ∧ t.claims.length = 1 ∧ t.ran = [] ∧ t.returned = [] ∧
      t.db.jobs.rows.map Job.lockedBy = [some "w"] :=
  ⟨rfl,rfl,rfl,rfl,rfl,rfl,rfl⟩

end GraphileWorker.RunOnce
