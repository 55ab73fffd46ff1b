import GraphileWorker.Execution.Outcome
import GraphileWorker.RunOnce.Claims

/-! # Attempts of a batch job

The ghost field `entries` says which items of the first payload the stored entries are, and
`oks` collects the items that a handler reported as `Ok`.
-/
namespace GraphileWorker.Execution
open Foundation Database Hooks RunOnce

section Items
variable {α β : Type} {items : List α} {results : List (Except String Unit)}

theorem failedItems_cons (a : α) (items : List α) (r : Except String Unit) (results : List (Except String Unit)) :
    failedItems (a :: items) (r :: results) =
      if isFailed r then a :: failedItems items results else failedItems items results := by
  unfold failedItems
  rw [List.zip_cons_cons,List.filter_cons]
  split <;> rfl

theorem okItems_cons (a : α) (items : List α) (r : Except String Unit) (results : List (Except String Unit)) :
    okItems (a :: items) (r :: results) =
      if isFailed r then okItems items results else a :: okItems items results := by
  unfold okItems
  rw [List.zip_cons_cons,List.filter_cons]
  cases isFailed r <;> rfl

theorem failedItems_map (f : α → β) (items : List α) (results : List (Except String Unit)) :
    failedItems (items.map f) results = (failedItems items results).map f := by
  induction items generalizing results with
  | nil => rfl
  | cons a items ih =>
    cases results with
    | nil => rfl
    | cons r results =>
      rw [List.map_cons,failedItems_cons,failedItems_cons,ih]
      split <;> rfl

theorem okItems_sublist (items : List α) (results : List (Except String Unit)) :
    (okItems items results).Sublist items := by
  induction items generalizing results with
  | nil => exact List.Sublist.refl _
  | cons a items ih =>
    cases results with
    | nil => exact List.nil_sublist _
    | cons r results =>
      rw [okItems_cons]
      split
      · exact (ih results).cons a
      · exact (ih results).cons_cons a

theorem filter_okItems [DecidableEq α] (hn : items.Nodup) (hl : results.length = items.length) :
    (items.filter fun a => decide (a ∉ okItems items results)) = failedItems items results := by
  induction items generalizing results with
  | nil => rfl
  | cons a items ih =>
    cases results with
    | nil => cases hl
    | cons r results =>
      obtain ⟨ha,hn⟩ := List.nodup_cons.mp hn
      have ih := ih hn (Nat.succ.inj hl)
      rw [okItems_cons,failedItems_cons]
      cases hr : isFailed r with
      | true =>
        have hnot : a ∉ okItems items results := fun h => ha ((okItems_sublist items results).subset h)
        rw [if_pos rfl,if_pos rfl,List.filter_cons_of_pos (by simpa using hnot),ih]
      | false =>
        rw [if_neg Bool.false_ne_true,if_neg Bool.false_ne_true,List.filter_cons_of_neg (by simp),← ih]
        refine List.filter_congr fun b hb => ?_
        have hne : b ≠ a := fun he => ha (he ▸ hb)
        simp [hne]

theorem failedItems_of_all_failed
    (hl : results.length = items.length) (h : results.all isFailed = true) : failedItems items results = items := by
  induction items generalizing results with
  | nil => rfl
  | cons a items ih =>
    cases results with
    | nil => cases hl
    | cons r results =>
      rw [List.all_cons,Bool.and_eq_true] at h
      rw [failedItems_cons,if_pos h.1,ih (Nat.succ.inj hl) h.2]

theorem failedItems_ne_nil
    (hl : results.length = items.length) (h : results.any isFailed = true) : failedItems items results ≠ [] := by
  induction items generalizing results with
  | nil =>
    rw [List.length_eq_zero_iff.mp hl] at h
    cases h
  | cons a items ih =>
    cases results with
    | nil => cases h
    | cons r results =>
      rw [failedItems_cons]
      rw [List.any_cons,Bool.or_eq_true] at h
      split
      · exact List.cons_ne_nil _ _
      · next hr => exact ih (Nat.succ.inj hl) (h.resolve_left hr)

end Items

structure BatchTask where
  identifier : String
  isRegistered : String → Bool
  deserialize : List Json → Except String Unit
  debug : String → String
  registered : isRegistered identifier = true
  named : identifier.isEmpty = false

structure BatchState where
  db : Db
  entries : List ℕ
  oks : List ℕ := []

inductive BatchEvent
  /-- Other processes and the same worker leave the tables like this between attempts. -/
  | others (db : Db)
  /-- `result` is what the handler returns, `before` and `after` what the hooks answer. -/
  | attempt (now : Time) (result : BatchTaskResult) (before after : HookResult)

def reportedOk (entries : List ℕ) : BatchTaskResult → List ℕ
  | .complete => entries
  | .failAll _ => []
  | .itemResults results => okItems entries results

def replacedEntries (entries : List ℕ) : BatchTaskResult → List ℕ
  | .itemResults results => failedItems entries results
  | _ => entries

def isReplaced : Except RunJobError Unit → Bool
  | .error error => error.replacementPayload.isSome
  | .ok _ => false

section
variable (cfg : Config) (task : BatchTask)

def runBatchJob (job : Job) (result : BatchTaskResult) (before after : HookResult) : Except RunJobError Unit :=
  runJobWithHooks before after (runJob job task.identifier task.isRegistered
    (.returned (runBatchTaskFromWorkerCtx task.deserialize result job.payload)))

def BatchState.attempt (s : BatchState) (now : Time) (db : Db) (job : Job) (result : BatchTaskResult)
    (before after : HookResult) : BatchState :=
  let jobResult := runBatchJob task job result before after
  { db := releaseJob task.debug cfg now db job jobResult
    entries := if isReplaced jobResult then replacedEntries s.entries result else s.entries
    oks := s.oks ++ if before = .proceed then reportedOk s.entries result else [] }

def batchStep (i : JobId) (s : BatchState) : BatchEvent → Option BatchState
  | .others db => some { s with db := db }
  | .attempt now result before after =>
    match getJobWithFilter s.db cfg.taskIds cfg.workerId cfg.filter now with
    | (db,some job) => if job.id = i then some (s.attempt cfg task now db job result before after) else none
    | (_,none) => none

end

/-- The runs in question: nobody else touches the job, the items deserialize, the
handler returns one result per item, and a failure of the `AfterJobRun` hooks
comes only when some item failed. -/
def InDomain (task : BatchTask) (i : JobId) (s : BatchState) : BatchEvent → Prop
  | .others db => db.jobs.find i = s.db.jobs.find i
  | .attempt _ result before after =>
    before = .proceed ∧ ∃ results, result = .itemResults results ∧
      (∀ row items, s.db.jobs.find i = some row → row.payload = .array items →
        results.length = items.length ∧ task.deserialize items = .ok ()) ∧
      (after = .proceed ∨ ∃ message, after = .fail message ∧ results.any isFailed = true)

/-- No item of an attempt that a hook fails was reported `Ok`. -/
def KeepsProgress : BatchEvent → Prop
  | .attempt _ (.itemResults results) _ (.fail _) => results.all isFailed = true
  | _ => True

/-- The items that were not reported `Ok`, in order. -/
def remaining (n : ℕ) (oks : List ℕ) : List ℕ := (List.range n).filter fun k => decide (k ∉ oks)

theorem mem_remaining {n k : ℕ} {oks : List ℕ} : k ∈ remaining n oks ↔ k < n ∧ k ∉ oks := by
  simp [remaining]

theorem remaining_append (n : ℕ) (oks new : List ℕ) :
    remaining n (oks ++ new) = (remaining n oks).filter fun k => decide (k ∉ new) := by
  unfold remaining
  rw [List.filter_filter]
  refine List.filter_congr fun k _ => ?_
  simp [Bool.and_comm]

variable {cfg : Config} {task : BatchTask} {i : JobId} {s t : BatchState} {p items : List Json} {now : Time}
  {result : BatchTaskResult} {results : List (Except String Unit)}

theorem attempt_cases {before after : HookResult}
    (h : batchStep cfg task i s (.attempt now result before after) = some t) :
    ∃ row db, s.db.jobs.find i = some row ∧ row.id = i ∧
      db.jobs.find i = some (row.claim cfg.workerId now) ∧
      t = s.attempt cfg task now db (row.claim cfg.workerId now) result before after := by
  unfold batchStep getJobWithFilter at h
  cases hc : candidates s.db cfg.taskIds cfg.filter now 1 with
  | nil =>
    simp only [hc] at h
    cases h
  | cons r rest =>
    have hrest : rest = [] := by
      have hlen : (candidates s.db cfg.taskIds cfg.filter now 1).length ≤ 1 := List.length_take_le _ _
      rw [hc] at hlen
      exact List.length_eq_zero_iff.mp (Nat.le_zero.mp (Nat.le_of_succ_le_succ hlen))
    subst hrest
    have hr : r ∈ s.db.jobs.rows := (mem_candidates (hc ▸ List.mem_singleton_self r)).1
    simp only [hc,List.map_cons,List.head?_cons] at h
    split at h
    · next hid =>
      cases h
      have hid : r.id = i := hid
      refine ⟨r,_,find_job.mpr ⟨hr,hid⟩,hid,?_,rfl⟩
      exact find_job.mpr ⟨(mem_claimRows hr).mpr (.inl rfl),hid⟩
    · cases h

theorem runBatchJob_items (job : Job) (after : HookResult)
    (hp : job.payload = .array items) (hl : results.length = items.length) (hd : task.deserialize items = .ok ()) :
    ∃ message, runBatchJob task job (.itemResults results) .proceed after =
      runWithAfterHook after (if (failedItems items results).isEmpty then .ok ()
        else .error (.taskErrorWithReplacement message (.array (failedItems items results)))) := by
  let message := toString (failedItems items results).length ++ " batch item(s) failed: " ++
    String.intercalate ", " (results.zipIdx.filterMap itemError)
  have hout : runBatchTaskFromWorkerCtx task.deserialize (.itemResults results) job.payload =
      if (failedItems items results).isEmpty then .complete
      else .failed message (some (.array (failedItems items results))) := by
    rw [hp]
    simp only [runBatchTaskFromWorkerCtx,hd,batchResultToTaskOutcome]
    exact if_neg (not_not.mpr hl)
  refine ⟨message,?_⟩
  unfold runBatchJob runJobWithHooks
  dsimp only
  congr 1
  unfold runJob
  rw [task.named,task.registered,hout]
  cases (failedItems items results).isEmpty <;> rfl

def itemAt (p : List Json) (k : ℕ) : Json := p.getD k .null

/-- No item was reported twice, and the stored payload is made of the others. -/
structure BatchInv (p : List Json) (i : JobId) (s : BatchState) : Prop where
  nodup : s.oks.Nodup
  stored : ∀ row, s.db.jobs.find i = some row →
    s.entries = remaining p.length s.oks ∧ row.payload = .array (s.entries.map (itemAt p))

theorem attempt_row {row : Job} {db : Db} {after : HookResult}
    (hid : row.id = i) (hdb : db.jobs.find i = some (row.claim cfg.workerId now))
    (hpay : row.payload = .array (s.entries.map (itemAt p))) (hl : results.length = s.entries.length)
    (hd : task.deserialize (s.entries.map (itemAt p)) = .ok ())
    (hafter : after = .proceed ∨ ∃ message, after = .fail message ∧ results.any isFailed = true)
    (hkeep : ∀ message, after = .fail message → results.all isFailed = true) :
    let t := s.attempt cfg task now db (row.claim cfg.workerId now) (.itemResults results) .proceed after
    (failedItems s.entries results = [] ∧ t.db.jobs.find i = none) ∨
      failedItems s.entries results ≠ [] ∧ t.entries = failedItems s.entries results ∧
        ∃ row', t.db.jobs.find i = some row' ∧ row'.payload = .array (t.entries.map (itemAt p)) := by
  subst hid
  have hlen : results.length = (s.entries.map (itemAt p)).length := by
    rw [List.length_map]
    exact hl
  obtain ⟨message,hres⟩ := runBatchJob_items (row.claim cfg.workerId now) after hpay hlen hd
  rw [failedItems_map] at hres
  unfold BatchState.attempt
  dsimp only
  rw [hres]
  rcases hafter with rfl | ⟨error,rfl,hany⟩
  · by_cases he : failedItems s.entries results = []
    · refine .inl ⟨he,?_⟩
      rw [he]
      exact find_completeJob
    · have hne : ¬((failedItems s.entries results).map (itemAt p)).isEmpty = true := by simpa using he
      rw [if_neg hne]
      refine .inr ⟨he,rfl,?_⟩
      exact find_releaseFailedJob task.debug now _ (.taskErrorWithReplacement message _) (by simp) hdb rfl
  · -- the replacement is lost, but it would have been the same payload
    have hsame := failedItems_of_all_failed hl (hkeep error rfl)
    refine .inr ⟨failedItems_ne_nil hl hany,hsame.symm,?_⟩
    obtain ⟨row',hrow',hp'⟩ :=
      find_releaseFailedJob task.debug now (row.claim cfg.workerId now) (.taskError error) (by simp) hdb rfl
    exact ⟨row',hrow',hp'.trans hpay⟩

theorem batchInv_attempt {before after : HookResult} (hok : InDomain task i s (.attempt now result before after))
    (hkeep : KeepsProgress (.attempt now result before after))
    (h : batchStep cfg task i s (.attempt now result before after) = some t) (hi : BatchInv p i s) :
    BatchInv p i t ∧ (t.db.jobs.find i = none ↔ ∀ k < p.length, k ∈ t.oks) := by
  obtain ⟨rfl,results,rfl,hdom,hafter⟩ := hok
  obtain ⟨row,db,hf,hid,hdb,rfl⟩ := attempt_cases h
  obtain ⟨hent,hpay⟩ := hi.stored row hf
  obtain ⟨hlen,hd⟩ := hdom row _ hf hpay
  rw [List.length_map] at hlen
  have hfail : ∀ message, after = .fail message → results.all isFailed = true := by
    rintro message rfl
    exact hkeep
  have hrow := attempt_row hid hdb hpay hlen hd hafter hfail
  have hnodup : s.entries.Nodup := hent ▸ List.nodup_range.filter _
  have hoks : (s.attempt cfg task now db (row.claim cfg.workerId now) (.itemResults results) .proceed after).oks =
      s.oks ++ okItems s.entries results := rfl
  -- the failed entries are what remains
  have hrest : remaining p.length (s.oks ++ okItems s.entries results) = failedItems s.entries results := by
    rw [remaining_append,← hent]
    exact filter_okItems hnodup hlen
  have hdone : failedItems s.entries results = [] ↔ ∀ k < p.length, k ∈ s.oks ++ okItems s.entries results := by
    rw [← hrest,List.eq_nil_iff_forall_not_mem]
    simp only [mem_remaining,not_and,not_not]
  have hsub : ∀ k ∈ okItems s.entries results, k ∉ s.oks := by
    intro k hk
    have hm := (okItems_sublist s.entries results).subset hk
    rw [hent] at hm
    exact (mem_remaining.mp hm).2
  refine ⟨⟨?_,?_⟩,?_⟩
  · rw [hoks]
    refine List.nodup_append.mpr ⟨hi.nodup,hnodup.sublist (okItems_sublist _ _),?_⟩
    rintro k hk _ hk' rfl
    exact hsub k hk' hk
  · intro row' hf'
    rcases hrow with ⟨_,hnone⟩ | ⟨_,hentries,x,hx,hp⟩
    · rw [hnone] at hf'
      cases hf'
    · rw [hx] at hf'
      cases hf'
      exact ⟨hentries.trans hrest.symm,hp⟩
  · rw [hoks,← hdone]
    rcases hrow with ⟨he,hnone⟩ | ⟨hne,_,x,hx,_⟩
    · exact ⟨fun _ => he,fun _ => hnone⟩
    · refine ⟨fun hnone => ?_,fun he => absurd he hne⟩
      rw [hx] at hnone
      cases hnone

theorem batchInv_step {e : BatchEvent} (hok : InDomain task i s e ∧ KeepsProgress e)
    (h : batchStep cfg task i s e = some t) (hi : BatchInv p i s) : BatchInv p i t := by
  cases e with
  | others db =>
    cases h
    have hsame : db.jobs.find i = s.db.jobs.find i := hok.1
    exact ⟨hi.nodup,fun row hf => hi.stored row (hsame ▸ hf)⟩
  | attempt now result before after => exact (batchInv_attempt hok.1 hok.2 h hi).1

/-- If no hook fails an attempt that reported an item as `Ok`, no item is reported `Ok` twice, and the
stored payload consists of the items that were not reported yet. -/
theorem batch_items_reported_once (cfg : Config) (task : BatchTask) (i : JobId) (p : List Json) (db₀ : Db)
    (row₀ : Job) (hrow : db₀.jobs.find i = some row₀) (hp : row₀.payload = .array p) {s : BatchState}
    (h : Reaches (batchStep cfg task i) (fun s e => InDomain task i s e ∧ KeepsProgress e)
      { db := db₀, entries := List.range p.length } s) :
    s.oks.Nodup ∧
      (∀ row, s.db.jobs.find i = some row →
        s.entries = remaining p.length s.oks ∧ row.payload = .array ((remaining p.length s.oks).map (itemAt p))) ∧
      ∀ now result before after t, InDomain task i s (.attempt now result before after) →
        KeepsProgress (.attempt now result before after) →
        batchStep cfg task i s (.attempt now result before after) = some t →
        (t.db.jobs.find i = none ↔ ∀ k < p.length, k ∈ t.oks) := by
  have hinit : BatchInv p i { db := db₀, entries := List.range p.length } := by
    refine ⟨List.nodup_nil,?_⟩
    intro row hf
    rw [hrow] at hf
    cases hf
    refine ⟨by simp [remaining],?_⟩
    rw [hp]
    congr 1
    refine List.ext_getElem (by simp) fun k hk _ => ?_
    simp [itemAt,hk]
  have hinv : BatchInv p i s :=
    h.invariant (I := BatchInv p i) (fun _ _ _ hok he hi => batchInv_step hok he hi) hinit
  refine ⟨hinv.nodup,?_,?_⟩
  · intro row hf
    obtain ⟨hent,hpay⟩ := hinv.stored row hf
    exact ⟨hent,hent ▸ hpay⟩
  · intro now result before after t hok hkeep hs
    exact (batchInv_attempt hok hkeep hs hinv).2

def twoItems : Db := after [(0,.addJob ⟨"task",.array [.string "a",.string "b"],{}⟩ none)]

def mail : BatchTask where
  identifier := "task"
  isRegistered := fun name => name == "task"
  deserialize := fun _ => .ok ()
  debug := fun text => text
  registered := rfl
  named := rfl

def firstState : BatchState := { db := twoItems, entries := [0,1] }

def batchAfter (events : List BatchEvent) : BatchState :=
  events.foldl (fun s e => (batchStep oneWorker mail 1 s e).getD s) firstState

theorem mail_inDomain {after : HookResult}
    (hrow : (s.db.jobs.find 1).map Job.payload = some (.array items)) (hl : results.length = items.length)
    (hafter : after = .proceed ∨ ∃ message, after = .fail message ∧ results.any isFailed = true) :
    InDomain mail 1 s (.attempt now (.itemResults results) .proceed after) := by
  refine ⟨rfl,results,rfl,?_,hafter⟩
  intro row items' hf hp
  rw [hf,Option.map_some,hp] at hrow
  cases hrow
  exact ⟨hl,rfl⟩

def partialFailure (after : HookResult) : BatchEvent := .attempt 1 (.itemResults [.ok (),.error "down"]) .proceed after

theorem failed_item_retried :
    let s := batchAfter [partialFailure .proceed]
    s.oks = [0] ∧ s.entries = [1] ∧ s.oks.Nodup ∧
      (∀ row, s.db.jobs.find 1 = some row →
        s.entries = remaining 2 s.oks ∧
          row.payload = .array ((remaining 2 s.oks).map (itemAt [.string "a",.string "b"]))) :=
  have h := batch_items_reported_once oneWorker mail 1 [.string "a",.string "b"] twoItems _ rfl rfl
    (Reaches.refl.step ⟨mail_inDomain rfl rfl (.inl rfl),trivial⟩
      (rfl : batchStep oneWorker mail 1 firstState (partialFailure .proceed) =
        some (batchAfter [partialFailure .proceed])))
  ⟨rfl,rfl,h.1,h.2.1⟩

def rewrittenError : List BatchEvent :=
  [partialFailure (.fail "mail server down"),.attempt 10000000 (.itemResults [.ok (),.ok ()]) .proceed .proceed]

theorem replacement_payload_lost :
    Reaches (batchStep oneWorker mail 1) (InDomain mail 1) firstState (batchAfter rewrittenError) ∧
      (batchAfter rewrittenError).oks = [0,0,1] := by
  refine ⟨?_,rfl⟩
  have hfirst : InDomain mail 1 firstState (partialFailure (.fail "mail server down")) :=
    mail_inDomain rfl rfl (.inr ⟨_,rfl,rfl⟩)
  have hsecond : InDomain mail 1 (batchAfter [partialFailure (.fail "mail server down")])
      (.attempt 10000000 (.itemResults [.ok (),.ok ()]) .proceed .proceed) :=
    mail_inDomain rfl rfl (.inl rfl)
  exact (Reaches.refl.step hfirst rfl).step hsecond rfl

end GraphileWorker.Execution
