import GraphileWorker.Database.Statement
import GraphileWorker.LocalQueue.Locks

/-! # The claim boundary between the queues of one worker

Queues share a `ClaimCoordinator` and one worker id. A claim holds a read guard of `fetches`
through its statement; a return waits until there is none, then counts itself in `returns`.
-/
namespace GraphileWorker.LocalQueue
open Foundation Database

section Guards
variable {J : Type} {cfg : Config} {sh sh' : Shared J} {s s' : State J} {i : Input J} {a : Action J}

/-- Counters between `try_fetch` and the drop of its guard. -/
def LoopPc.guard : LoopPc J → Bool
  | .fetchStart | .fetchDelayCheck | .bailSet | .bailEnd | .bailNotify | .fetchClear | .fetchReset
  | .fetchSql | .fetchDropGuard _ => true
  | _ => false

def Thread.guard : Thread J → Bool
  | .directMode | .directSql => true
  | _ => false

def State.guard (s : State J) : Option Tid → Bool
  | none => s.loop.guard
  | some t => (s.thr t).guard

theorem guard_of_fetchSql (h : s.loop = .fetchSql) : s.guard none = true := by
  rw [State.guard,h]
  rfl

theorem guard_of_directSql {t : Tid} (h : s.thr t = .directSql) : s.guard (some t) = true := by
  rw [State.guard,h]
  rfl

def Action.actor : Action J → Option Tid
  | .loop _ | .spawnTimer _ | .spawnDelay _ => none
  | .start t _ | .thread t _ | .die t | .cancel t => some t

def Action.fetches : Action J → Bool
  | .loop (.boundary true) | .thread _ (.boundary true) => true
  | _ => false

theorem loopStep_guard {pc pc' : LoopPc J} (h : loopStep cfg sh pc i = some (sh',pc'))
    (hg : pc'.guard = true) : pc.guard = true ∨ i = .boundary true := by
  cases loopStep_cases h with
  | fetchAdmitted => exact Or.inr rfl
  | fetchNotify r =>
    rw [afterResult_not (f := LoopPc.guard) (fun _ => rfl) rfl rfl (Or.inr fun _ => rfl)] at hg
    cases hg
  | delayReplace t jobs =>
    rw [afterDelay_not (f := LoopPc.guard) (fun _ => rfl) rfl rfl] at hg
    cases hg
  | releasedKept last | releasedNotify last =>
    rw [afterReleased_not (f := LoopPc.guard) rfl rfl] at hg
    cases hg
  | _ => first | exact Or.inl rfl | cases hg

theorem threadStep_guard {t : Tid} {th th' : Thread J}
    (h : threadStep sh t th i = some (sh',th')) (hg : th'.guard = true) : th.guard = true ∨ i = .boundary true := by
  cases threadStep_cases h with
  | directAdmitted => exact Or.inr rfl
  | returning _ _ _ _ _ hr => rcases returnStep_thread hr with ⟨pc,rfl⟩ | ⟨o,rfl⟩ <;> cases hg
  | _ => first | exact Or.inl rfl | cases hg

theorem step_guard (h : step cfg s a = some s') : (∀ k, k ≠ a.actor → s'.guard k = s.guard k) ∧
    (s'.guard a.actor = true → s.guard a.actor = true ∨ a.fetches = true) := by
  have hput : ∀ (t : Tid) (p : Shared J × Thread J) (k : Option Tid), k ≠ some t →
      (s.put t p).guard k = s.guard k := by
    intro t p k hk
    cases k with
    | none => rfl
    | some u =>
      have hu : u ≠ t := fun hu => hk (congrArg some hu)
      simp [State.guard,State.put,Function.update_of_ne hu]
  have hself : ∀ (t : Tid) (p : Shared J × Thread J), (s.put t p).guard (some t) = p.2.guard := by
    intro t p
    simp [State.guard,State.put]
  cases step_cases h with
  | loop i sh pc hl =>
    refine ⟨fun k hk => ?_,fun hg => ?_⟩
    · cases k with
      | none => exact absurd rfl hk
      | some t => rfl
    · rcases loopStep_guard hl hg with hg | rfl
      · exact Or.inl hg
      · exact Or.inr rfl
  | spawnTimer t mx hl ht | spawnDelay t jobs hl ht =>
    refine ⟨fun k hk => ?_,fun hg => by cases hg⟩
    cases k with
    | none => exact absurd rfl hk
    | some u =>
      by_cases hu : u = t
      · subst hu
        simp [State.guard,ht,Thread.guard]
      · simp [State.guard,Function.update_of_ne hu]
  | start t c ht =>
    refine ⟨hput t _,fun hg => ?_⟩
    rw [Action.actor,hself] at hg
    cases c <;> cases hg
  | thread t i sh th ht =>
    refine ⟨hput t _,fun hg => ?_⟩
    rw [Action.actor,hself] at hg
    rcases threadStep_guard ht hg with hg | rfl
    · exact Or.inl hg
    · exact Or.inr rfl
  | die t sh ha hd | cancel t sh ha hd =>
    refine ⟨hput t _,fun hg => ?_⟩
    rw [Action.actor,hself] at hg
    cases hg

theorem begins_fetches (h : begins s a = true) : a.fetches = false := by
  unfold begins at h
  split at h
  · rfl
  · cases h

theorem Runs.pending_of_seq (h : Runs cfg initial s) (hs : step cfg s a = some s')
    {c c' : Claim J} (hc : c ∈ s'.sh.pending) (hc' : c' ∈ s.sh.pending ++ s.sh.acked) (he : c'.seq = c.seq) :
    c ∈ s.sh.pending := by
  have hcons := Runs.conserved (h.step trivial hs) conserved_initial
  have hn : s'.everywhere.Nodup := hcons.perm.nodup_iff.mp hcons.nodup
  have hin : ∀ p, ∀ d ∈ s'.claimsAt p, d ∈ s'.sh.issued := fun p d hd =>
    hcons.perm.mem_iff.mpr (mem_everywhere.mpr ⟨p,hd⟩)
  have hseq : (s'.sh.issued.map Claim.seq).Nodup := hcons.numbered ▸ List.nodup_range
  have heq : c' = c := by
    refine List.inj_on_of_nodup_map hseq ?_ (hin .pending c hc) he
    rcases List.mem_append.mp ((step_move hs).settled hc') with h' | h'
    · exact hin .pending c' h'
    · exact hin .acked c' h'
  subst heq
  rcases List.mem_append.mp hc' with h' | h'
  · exact h'
  · cases place_unique hn (p := .pending) (q := .acked) hc ((step_move hs).acked h')

end Guards

structure Worker (n : ℕ) where
  workerId : WorkerId
  config : Fin n → Config
  flagFilter : Fin n → JobFlagFilter

structure World (n : ℕ) where
  queues : Fin n → State Job := fun _ => initial
  /-- Read guards of the coordinator's lock, by queue and call; `none` is the loop. -/
  fetches : List (Fin n × Option Tid) := []
  returns : ℕ := 0
  db : Db
  /-- Results of claim statements that have committed and not been answered. -/
  batch : Fin n → Option (List Job) := fun _ => none
  single : Fin n → Tid → Option (Option Job) := fun _ _ => none
  -- claims that a committed return has named, and how often one gave a claim's row back
  sent : Fin n → List ℕ := fun _ => []
  restored : Fin n → ℕ → ℕ := fun _ _ => 0

inductive WorldAction (n : ℕ)
  | queue (q : Fin n) (a : Action Job)
  | claimBatch (q : Fin n) (taskIds : List TaskId) (now : Time)
  | answerBatch (q : Fin n) (ok : Bool)
  | claimDirect (q : Fin n) (t : Tid) (taskIds : List TaskId) (flagsToSkip : List String) (now : Time)
  | answerDirect (q : Fin n) (t : Tid) (ok : Bool)
  | returnJobs (q : Fin n) (t : Tid) (now : Time)
  /-- A transaction that is not a claim or a return of these queues. -/
  | others (db : Db)

/-- Inputs that are tied to the tables. -/
def Action.isSql : Action Job → Bool
  | .loop (.batch _) | .thread _ (.single _) | .thread _ .commit => true
  | _ => false

namespace World
variable {n : ℕ}

/-- `try_fetch` needs the counter at zero, `begin_return` needs every guard gone. -/
def admits (W : World n) (q : Fin n) (a : Action Job) : Bool :=
  (!a.fetches || W.returns == 0) && (!begins (W.queues q) a || W.fetches.isEmpty)

/-- A step of one queue, with the guards and the counter it leaves. -/
def move (S : Worker n) (W : World n) (q : Fin n) (a : Action Job) : Option (World n) :=
  (LocalQueue.step (S.config q) (W.queues q) a).map fun s =>
    { W with
      queues := Function.update W.queues q s
      fetches := enroll ((W.queues q).guard a.actor) (s.guard a.actor) (q,a.actor) W.fetches
      returns := tally (usizeMax + 1) (W.queues q).sh.permit s.sh.permit W.returns }

def step (S : Worker n) (W : World n) : WorldAction n → Option (World n)
  | .queue q a => if W.admits q a && !a.isSql then W.move S q a else none
  | .claimBatch q taskIds now =>
    if (W.queues q).loop.isFetchSql && (W.batch q).isNone then
      let p := batchGetJobsWithFilter W.db taskIds S.workerId (S.flagFilter q)
        (min (S.config q).size (2 ^ 31 - 1)) now
      some { W with db := p.1, batch := Function.update W.batch q (some p.2) }
    else none
  | .answerBatch q ok =>
    if ok && (W.batch q).isNone then none
    else (W.move S q (.loop (.batch (if ok then W.batch q else none)))).map fun W' =>
      { W' with batch := Function.update W.batch q none }
  | .claimDirect q t taskIds flagsToSkip now =>
    if ((W.queues q).thr t).isDirectSql && (W.single q t).isNone then
      let p := getJobWithFilter W.db taskIds S.workerId ⟨flagsToSkip,[],none⟩ now
      some { W with db := p.1, single := Function.update W.single q (Function.update (W.single q) t (some p.2)) }
    else none
  | .answerDirect q t ok =>
    if ok && (W.single q t).isNone then none
    else (W.move S q (.thread t (.single (if ok then (W.single q t).join else none)))).map fun W' =>
      { W' with single := Function.update W.single q (Function.update (W.single q) t none) }
  | .returnJobs q t now =>
    let pending := (W.queues q).sh.pending
    (W.move S q (.thread t .commit)).map fun W' =>
      { W' with
        db := Database.returnJobs W.db (pending.map Claim.job) S.workerId now
        sent := Function.update W.sent q (W.sent q ++ pending.map Claim.seq)
        restored := Function.update W.restored q fun i => W.restored q i +
          if pending.any fun c => c.seq == i && lockedAs W.db S.workerId c.job.id then 1 else 0 }
  | .others db => some { W with db := db }

/-- Nobody else locks jobs under this worker's id. -/
def respects (S : Worker n) (W : World n) : WorldAction n → Bool
  | .others db => db.jobs.rows.all fun r => !lockedAs db S.workerId r.id || lockedAs W.db S.workerId r.id
  | _ => true

abbrev Reached (S : Worker n) (db : Db) : World n → Prop :=
  Reaches (step S) (fun W a => W.respects S a = true) { db := db }

variable {S : Worker n} {W W' : World n} {q : Fin n} {a : Action Job} {db : Db}

/-- The coordinator agrees with the queues, and guards and permits exclude each other. -/
structure Coordinated (S : Worker n) (W : World n) : Prop where
  runs : ∀ q, Runs (S.config q) initial (W.queues q)
  readers : Listed id (fun k : Fin n × Option Tid => (W.queues k.1).guard k.2) W.fetches
  returns : W.returns = holders fun q => (W.queues q).sh.permit
  exclusive : ∀ q, (W.queues q).sh.permit = true → W.fetches = []

theorem move_eq (h : W.move S q a = some W') : ∃ s, LocalQueue.step (S.config q) (W.queues q) a = some s ∧
    W' = { W with
      queues := Function.update W.queues q s
      fetches := enroll ((W.queues q).guard a.actor) (s.guard a.actor) (q,a.actor) W.fetches
      returns := tally (usizeMax + 1) (W.queues q).sh.permit s.sh.permit W.returns } := by
  obtain ⟨s,hs,he⟩ := Option.map_eq_some_iff.mp h
  exact ⟨s,hs,he.symm⟩

theorem Coordinated.move (hn : n ≤ usizeMax) (hi : Coordinated S W) (ha : W.admits q a = true)
    (h : W.move S q a = some W') : Coordinated S W' := by
  obtain ⟨s,hs,rfl⟩ := move_eq h
  obtain ⟨hother,hself⟩ := step_guard hs
  simp only [admits,Bool.and_eq_true,Bool.or_eq_true,Bool.not_eq_true',beq_iff_eq,List.isEmpty_iff] at ha
  have hperm : (fun r => (Function.update W.queues q s r).sh.permit) =
      Function.update (fun r => (W.queues r).sh.permit) q s.sh.permit := by
    funext r
    by_cases hr : r = q
    · subst hr
      simp
    · simp [Function.update_of_ne hr]
  have hread : (fun k : Fin n × Option Tid => (Function.update W.queues q s k.1).guard k.2) =
      Function.update (fun k : Fin n × Option Tid => (W.queues k.1).guard k.2) (q,a.actor) (s.guard a.actor) := by
    funext ⟨r,k⟩
    by_cases hr : r = q
    · subst hr
      by_cases hk : k = a.actor
      · subst hk
        simp
      · have hne : (r,k) ≠ (r,a.actor) := fun he => hk (Prod.mk.inj he).2
        rw [Function.update_of_ne hne]
        simpa using hother k hk
    · have hne : (r,k) ≠ (q,a.actor) := fun he => hr (Prod.mk.inj he).1
      rw [Function.update_of_ne hne]
      simp [Function.update_of_ne hr]
  refine ⟨?_,?_,?_,?_⟩
  · rw [Function.forall_update_iff W.queues (fun r s => Runs (S.config r) initial s)]
    exact ⟨(hi.runs q).step trivial hs,fun r _ => hi.runs r⟩
  · dsimp only
    rw [hread]
    exact hi.readers.enroll (q,a.actor) (s.guard a.actor)
  · dsimp only
    rw [hperm,hi.returns]
    exact tally_holders (by simpa using Nat.lt_succ_of_le hn) (fun r => (W.queues r).sh.permit) q s.sh.permit
  · -- a new guard needs the counter at zero, a new permit needs every guard gone
    intro r hr
    dsimp only at hr ⊢
    have hold : (∃ r, (W.queues r).sh.permit = true) ∨ begins (W.queues q) a = true := by
      by_cases hrq : r = q
      · subst hrq
        rw [Function.update_self] at hr
        exact (step_permit hs hr).imp_left fun h => ⟨r,h⟩
      · rw [Function.update_of_ne hrq] at hr
        exact Or.inl ⟨r,hr⟩
    have hempty : W.fetches = [] := by
      rcases hold with ⟨r,hr⟩ | hb
      · exact hi.exclusive r hr
      · simpa [hb] using ha.2
    have hguard : (W.queues q).guard a.actor = false := by
      have hm := hi.readers.mem (q,a.actor)
      simpa [hempty] using hm
    have hnew : s.guard a.actor = false := by
      cases hg : s.guard a.actor with
      | false => rfl
      | true =>
        rcases hself hg with h' | hf
        · rw [hguard] at h'
          cases h'
        · have hzero : W.returns = 0 := by simpa [hf] using ha.1
          rcases hold with ⟨r,hr⟩ | hb
          · have hpos : 0 < holders fun q => (W.queues q).sh.permit := holders_pos.mpr ⟨r,hr⟩
            rw [← hi.returns] at hpos
            omega
          · rw [begins_fetches hb] at hf
            cases hf
    rw [hguard,hnew,hempty]
    rfl

/-- A claim that a committed return has named stays pending or is acknowledged,
its row is not locked by the worker while it is pending, and it was given back
at most once. -/
structure Returned (S : Worker n) (W : World n) : Prop where
  placed : ∀ q, ∀ i ∈ W.sent q, ∃ c ∈ (W.queues q).sh.pending ++ (W.queues q).sh.acked, c.seq = i
  free : ∀ q, ∀ c ∈ (W.queues q).sh.pending, c.seq ∈ W.sent q → lockedAs W.db S.workerId c.job.id = false
  unsent : ∀ q i, i ∉ W.sent q → W.restored q i = 0
  once : ∀ q i, W.restored q i ≤ 1

theorem Returned.move (hc : Coordinated S W) (hi : Returned S W) (h : W.move S q a = some W') :
    Returned S W' := by
  obtain ⟨s,hs,rfl⟩ := move_eq h
  refine ⟨?_,?_,hi.unsent,hi.once⟩
  · rw [Function.forall_update_iff W.queues
      (fun r s => ∀ i ∈ W.sent r, ∃ c ∈ s.sh.pending ++ s.sh.acked, c.seq = i)]
    refine ⟨fun i hm => ?_,fun r _ => hi.placed r⟩
    obtain ⟨c,hcm,hcs⟩ := hi.placed q i hm
    exact ⟨c,(step_move hs).settled hcm,hcs⟩
  · rw [Function.forall_update_iff W.queues
      (fun r s => ∀ c ∈ s.sh.pending, c.seq ∈ W.sent r → lockedAs W.db S.workerId c.job.id = false)]
    refine ⟨fun c hcm hsent => ?_,fun r _ => hi.free r⟩
    obtain ⟨c',hcm',hcs⟩ := hi.placed q c.seq hsent
    exact hi.free q c ((hc.runs q).pending_of_seq hs hcm hcm' hcs) hsent

theorem Coordinated.pending_of_guard (hc : Coordinated S W) {k : Option Tid}
    (hg : (W.queues q).guard k = true) (r : Fin n) : (W.queues r).sh.pending = [] := by
  by_contra hne
  have hp := (hc.runs r).pendingInv.backed hne
  have hm := (hc.readers.mem (q,k)).mpr hg
  rw [hc.exclusive r hp] at hm
  cases hm

theorem Returned.of_db (hi : Returned S W) {db : Db} {batch : Fin n → Option (List Job)}
    {single : Fin n → Tid → Option (Option Job)}
    (hl : ∀ q, ∀ c ∈ (W.queues q).sh.pending, lockedAs db S.workerId c.job.id = true →
      lockedAs W.db S.workerId c.job.id = true) :
    Returned S { W with db := db, batch := batch, single := single } where
  placed := hi.placed
  unsent := hi.unsent
  once := hi.once
  free := by
    intro q c hc hs
    rw [Bool.eq_false_iff]
    intro ht
    have hf := hi.free q c hc hs
    rw [hl q c hc ht] at hf
    cases hf

theorem pending_commit {J : Type} {cfg : Config} {s s' : State J} {t : Tid}
    (h : LocalQueue.step cfg s (.thread t .commit) = some s') : s'.sh.pending = s.sh.pending := by
  obtain ⟨⟨sh,th⟩,hp,rfl⟩ := Option.map_eq_some_iff.mp h
  generalize s.thr t = th₀ at hp
  cases threadStep_cases hp with
  | returning _ _ _ _ _ hr =>
    cases hr with
    | commit => rfl

theorem Returned.returnJobs (hc : Coordinated S W) (hi : Returned S W) {t : Tid} {now : Time}
    (h : W.step S (.returnJobs q t now) = some W') : Returned S W' := by
  obtain ⟨W₁,hm,rfl⟩ := Option.map_eq_some_iff.mp h
  obtain ⟨s,hs,rfl⟩ := move_eq hm
  have hmv := hi.move hc hm
  have hpend := pending_commit hs
  refine ⟨?_,?_,?_,?_⟩
  · intro r i hmem
    dsimp only at hmem
    by_cases hr : r = q
    · subst hr
      rw [Function.update_self,List.mem_append] at hmem
      rcases hmem with hmem | hmem
      · exact hmv.placed r i hmem
      · obtain ⟨c,hcm,rfl⟩ := List.mem_map.mp hmem
        simp only [Function.update_self]
        exact ⟨c,List.mem_append_left _ (hpend ▸ hcm),rfl⟩
    · rw [Function.update_of_ne hr] at hmem
      exact hmv.placed r i hmem
  · intro r c hcm hsent
    rw [Bool.eq_false_iff]
    intro ht
    obtain ⟨hold,hnot⟩ := lockedAs_returnJobs ht
    dsimp only at hcm hsent
    by_cases hr : r = q
    · subst hr
      rw [Function.update_self,hpend] at hcm
      rw [List.map_map] at hnot
      exact hnot (List.mem_map.mpr ⟨c,hcm,rfl⟩)
    · rw [Function.update_of_ne hr] at hcm hsent
      rw [hi.free r c hcm hsent] at hold
      cases hold
  · intro r i hmem
    dsimp only at hmem ⊢
    by_cases hr : r = q
    · subst hr
      rw [Function.update_self,List.mem_append,not_or] at hmem
      have hno : ¬((W.queues r).sh.pending.any fun c => c.seq == i && lockedAs W.db S.workerId c.job.id) = true := by
        rw [List.any_eq_true]
        rintro ⟨c,hcm,he⟩
        simp only [Bool.and_eq_true,beq_iff_eq] at he
        exact hmem.2 (List.mem_map.mpr ⟨c,hcm,he.1⟩)
      rw [Function.update_self,if_neg hno,hi.unsent r i hmem.1]
    · rw [Function.update_of_ne hr] at hmem ⊢
      exact hi.unsent r i hmem
  · intro r i
    dsimp only
    by_cases hr : r = q
    · subst hr
      rw [Function.update_self]
      split
      · next ha =>
        -- only a claim that no committed return had named is given back now
        obtain ⟨c,hcm,he⟩ := List.any_eq_true.mp ha
        simp only [Bool.and_eq_true,beq_iff_eq] at he
        have hnew : i ∉ W.sent r := by
          intro hsent
          have hf := hi.free r c hcm (he.1 ▸ hsent)
          rw [he.2] at hf
          cases hf
        rw [hi.unsent r i hnew]
      · exact hi.once r i
    · rw [Function.update_of_ne hr]
      exact hi.once r i

theorem Returned.step (hc : Coordinated S W) (hi : Returned S W) {a : WorldAction n}
    (hr : W.respects S a = true) (h : W.step S a = some W') : Returned S W' := by
  cases a with
  | queue q a =>
    obtain ⟨_,h⟩ := Option.ite_none_right_eq_some.mp h
    exact hi.move hc h
  | claimBatch q taskIds now =>
    obtain ⟨hg,h⟩ := Option.ite_none_right_eq_some.mp h
    have hsql := LoopPc.isFetchSql_iff.mp (Bool.and_eq_true_iff.mp hg).1
    have hg' : (W.queues q).guard none = true := guard_of_fetchSql hsql
    cases h
    exact hi.of_db fun r c hcm => by simp [hc.pending_of_guard hg' r] at hcm
  | answerBatch q ok =>
    obtain ⟨_,h⟩ := Option.ite_none_left_eq_some.mp h
    obtain ⟨W₁,hm,rfl⟩ := Option.map_eq_some_iff.mp h
    obtain ⟨hp,hf,hu,ho⟩ := hi.move hc hm
    exact ⟨hp,hf,hu,ho⟩
  | claimDirect q t taskIds flagsToSkip now =>
    obtain ⟨hg,h⟩ := Option.ite_none_right_eq_some.mp h
    have hsql := Thread.isDirectSql_iff.mp (Bool.and_eq_true_iff.mp hg).1
    have hg' : (W.queues q).guard (some t) = true := guard_of_directSql hsql
    cases h
    exact hi.of_db fun r c hcm => by simp [hc.pending_of_guard hg' r] at hcm
  | answerDirect q t ok =>
    obtain ⟨_,h⟩ := Option.ite_none_left_eq_some.mp h
    obtain ⟨W₁,hm,rfl⟩ := Option.map_eq_some_iff.mp h
    obtain ⟨hp,hf,hu,ho⟩ := hi.move hc hm
    exact ⟨hp,hf,hu,ho⟩
  | returnJobs q t now => exact hi.returnJobs hc h
  | others db =>
    cases h
    refine hi.of_db fun q c _ hl => ?_
    obtain ⟨r,hf,_⟩ := lockedAs_iff.mp hl
    obtain ⟨hrow,hid⟩ := find_job.mp hf
    have hall := List.all_eq_true.mp hr r hrow
    simpa [hid,hl] using hall

theorem Coordinated.step (hn : n ≤ usizeMax) (hi : Coordinated S W) {a : WorldAction n}
    (h : W.step S a = some W') : Coordinated S W' := by
  cases a with
  | queue q a =>
    obtain ⟨ha,h⟩ := Option.ite_none_right_eq_some.mp h
    exact hi.move hn (Bool.and_eq_true_iff.mp ha).1 h
  | claimBatch q taskIds now | claimDirect q t taskIds flagsToSkip now =>
    obtain ⟨_,h⟩ := Option.ite_none_right_eq_some.mp h
    cases h
    exact ⟨hi.runs,hi.readers,hi.returns,hi.exclusive⟩
  | answerBatch q ok | answerDirect q t ok =>
    obtain ⟨_,h⟩ := Option.ite_none_left_eq_some.mp h
    obtain ⟨W₁,hm,rfl⟩ := Option.map_eq_some_iff.mp h
    obtain ⟨hr,hl,ht,he⟩ := hi.move hn rfl hm
    exact ⟨hr,hl,ht,he⟩
  | returnJobs q t now =>
    obtain ⟨W₁,hm,rfl⟩ := Option.map_eq_some_iff.mp h
    obtain ⟨hr,hl,ht,he⟩ := hi.move hn rfl hm
    exact ⟨hr,hl,ht,he⟩
  | others db =>
    cases h
    exact ⟨hi.runs,hi.readers,hi.returns,hi.exclusive⟩

theorem Reached.invariant (hn : n ≤ usizeMax) (h : Reached S db W) : Coordinated S W ∧ Returned S W := by
  refine Reaches.invariant (I := fun W => Coordinated S W ∧ Returned S W) ?_ ⟨?_,?_⟩ h
  · rintro W a W' hr hs ⟨hc,hi⟩
    exact ⟨hc.step hn hs,hi.step hc hr hs⟩
  · refine ⟨fun q => .refl,⟨List.nodup_nil,fun k => ?_⟩,?_,nofun⟩
    · rcases k with ⟨q,k⟩
      cases k <;> simp [State.guard,initial,LoopPc.guard,Thread.guard]
    · simp [holders,initial]
  · exact ⟨fun q i hm => by simp at hm,fun q c hm => by simp [initial] at hm,fun q i _ => rfl,fun q i => Nat.zero_le 1⟩

end World

/-- While a permit exists no claim statement is in flight; no claim is given back twice, and a mere repeat
of a return changes nothing. -/
theorem uncertain_returns_exclude_claims {n : ℕ} (hn : n ≤ usizeMax) {S : Worker n} {db : Db} {W : World n}
    (h : World.Reached S db W) :
    (∀ q r, (W.queues q).sh.permit = true → ¬(W.queues r).claiming) ∧
    W.returns = (Finset.univ.filter fun q => (W.queues q).sh.permit = true).card ∧
    (∀ q, (W.queues q).sh.permit = true → 0 < W.returns) ∧
    (∀ q i, W.restored q i ≤ 1) ∧
    ∀ q t now W', W.step S (.returnJobs q t now) = some W' →
      (∀ c ∈ (W.queues q).sh.pending, c.seq ∈ W.sent q →
        W'.db.jobs.find c.job.id = W.db.jobs.find c.job.id) ∧
      ((∀ c ∈ (W.queues q).sh.pending, c.seq ∈ W.sent q) → W'.db = W.db) := by
  obtain ⟨hc,hi⟩ := World.Reached.invariant hn h
  refine ⟨?_,hc.returns,?_,hi.once,?_⟩
  · intro q r hp hcl
    have hnil := hc.exclusive q hp
    rcases hcl with hl | ⟨t,ht⟩
    · have hm := (hc.readers.mem (r,none)).mpr (guard_of_fetchSql hl)
      rw [hnil] at hm
      cases hm
    · have hm := (hc.readers.mem (r,some t)).mpr (guard_of_directSql ht)
      rw [hnil] at hm
      cases hm
  · intro q hp
    rw [hc.returns]
    exact holders_pos.mpr ⟨q,hp⟩
  · intro q t now W' hs
    obtain ⟨W₁,hm,rfl⟩ := Option.map_eq_some_iff.mp hs
    refine ⟨fun c hcm hsent => find_returnJobs_of_not_lockedAs (hi.free q c hcm hsent),fun hall => ?_⟩
    refine returnJobs_of_not_lockedAs fun j hj => ?_
    obtain ⟨c,hcm,rfl⟩ := List.mem_map.mp hj
    exact hi.free q c hcm (hall c hcm)

def twoQueues : Worker 2 where
  workerId := "worker"
  config _ := {}
  flagFilter _ := .unrestricted

def oneJob : Db := after [(0,.addJob ⟨"task",.null,{}⟩ none)]

def onQueue {n : ℕ} (q : Fin n) (actions : List (Action Job)) : List (WorldAction n) := actions.map (.queue q)

/-- The first queue claims the job and gives it back with release 3; the first
commit has no answer, and the return is about to be tried again. -/
def lostResponse : List (WorldAction 2) :=
  onQueue 0 (loopTicks 4 ++ [Action.loop (.boundary true)] ++ loopTicks 4) ++
  [WorldAction.claimBatch 0 [1] 1,.answerBatch 0 true] ++
  onQueue 0 (loopTicks 6 ++ [Action.spawnTimer 1] ++ loopTicks 1 ++ [Action.start 3 .release] ++ threadTicks 3 6 ++
    loopTicks 4 ++ threadTicks 3 7) ++
  [WorldAction.returnJobs 0 3 2,.queue 0 (.thread 3 (.response false)),.queue 0 (.thread 3 .elapsed)]

theorem lost_response_excludes_claims : ∃ W : World 2, World.Reached twoQueues oneJob W ∧
    (W.returns = 1 ∧ W.sent 0 = [0] ∧ (W.queues 0).sh.pending.map Claim.seq = [0]) ∧
    (∀ q r, (W.queues q).sh.permit = true → ¬(W.queues r).claiming) ∧
    W.returns = (Finset.univ.filter fun q => (W.queues q).sh.permit = true).card ∧
    (∀ q, (W.queues q).sh.permit = true → 0 < W.returns) ∧
    (∀ q i, W.restored q i ≤ 1) ∧
    ∀ q t now W', W.step twoQueues (.returnJobs q t now) = some W' →
      (∀ c ∈ (W.queues q).sh.pending, c.seq ∈ W.sent q →
        W'.db.jobs.find c.job.id = W.db.jobs.find c.job.id) ∧
      ((∀ c ∈ (W.queues q).sh.pending, c.seq ∈ W.sent q) → W'.db = W.db) := by
  obtain ⟨W,hr,hf⟩ : ∃ W, World.Reached twoQueues oneJob W ∧
      W.returns = 1 ∧ W.sent 0 = [0] ∧ (W.queues 0).sh.pending.map Claim.seq = [0] :=
    exists_reaches_of_exec lostResponse (by decide)
  exact ⟨W,hr,hf,uncertain_returns_exclude_claims (by decide) hr⟩

end GraphileWorker.LocalQueue
