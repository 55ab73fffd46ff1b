import GraphileWorker.Cron.Cluster
import Mathlib.Order.WithBot
import Mathlib.Order.ConditionallyCompleteLattice.Basic
import Mathlib.Data.Int.ConditionallyCompleteOrder

/-! # Every occurrence fires at most once

`last_execution` bounds the minutes that have fired, whichever runner sent the statement,
however late it is executed and however often it is repeated.
-/
namespace GraphileWorker.Cron
open Database Foundation

/-- The column `last_execution` of an entry; an unknown entry has none. -/
def executedAt (known : List KnownCrontab) (identifier : String) : Option Instant :=
  (known.find? fun k => k.identifier == identifier).bind fun k => k.lastExecution

/-- The same in the order of time, where an entry that never fired comes before every minute. -/
def lastExecution (known : List KnownCrontab) (identifier : String) : WithBot Instant :=
  (executedAt known identifier).elim ⊥ fun t => (t : WithBot Instant)

variable {known : List KnownCrontab} {i j : String} {ts : Instant} {p : List KnownCrontab × List String}

theorem lastExecution_lt_iff : lastExecution known i < ts ↔ ∀ e ∈ executedAt known i, e < ts := by
  unfold lastExecution
  cases executedAt known i with
  | none => simp [WithBot.bot_lt_coe]
  | some e => simp [WithBot.coe_lt_coe]

theorem executedAt_append {row : KnownCrontab}
    (h : (known.find? fun k => k.identifier == row.identifier) = none) :
    executedAt (known ++ [row]) i = if i = row.identifier then row.lastExecution else executedAt known i := by
  unfold executedAt
  rw [List.find?_append]
  by_cases hi : i = row.identifier
  · subst hi
    simp [h]
  · have hn : (row.identifier == i) = false := by simpa using Ne.symm hi
    simp [hi,hn]

def setExecution (known : List KnownCrontab) (j : String) (ts : Instant) : List KnownCrontab :=
  known.map fun k => if k.identifier == j then { k with lastExecution := some ts } else k

theorem find_setExecution : ((setExecution known j ts).find? fun k => k.identifier == i) =
    (known.find? fun k => k.identifier == i).map fun k =>
      if k.identifier == j then { k with lastExecution := some ts } else k := by
  unfold setExecution
  rw [List.find?_map]
  congr 2
  funext k
  simp only [Function.comp_apply]
  split <;> rfl

theorem executedAt_setExecution {k : KnownCrontab} (h : (known.find? fun k => k.identifier == j) = some k) :
    executedAt (setExecution known j ts) i = if i = j then some ts else executedAt known i := by
  unfold executedAt
  rw [find_setExecution]
  by_cases hi : i = j
  · subst hi
    have hk : k.identifier = i := by simpa using List.find?_some h
    simp [h,hk]
  · rw [if_neg hi]
    cases hf : known.find? fun k => k.identifier == i with
    | none => rfl
    | some k' =>
      have hk : k'.identifier = i := by simpa using List.find?_some hf
      simp [hk,hi]

theorem lastExecution_of_executedAt {known' : List KnownCrontab}
    (h : ∀ i, executedAt known' i = if i = j then some ts else executedAt known i) (i : String) :
    lastExecution known' i = if i = j then (ts : WithBot Instant) else lastExecution known i := by
  unfold lastExecution
  rw [h i]
  split <;> rfl

theorem lockCrontab_ok {locked : List String} (h : lockCrontab ts (known,locked) j = .ok p) :
    (p = (known,locked) ∧ j ∉ locked ∧ (ts : WithBot Instant) ≤ lastExecution known j) ∨
      (p.2 = locked ++ [j] ∧ j ∉ locked ∧ lastExecution known j < ts ∧
        ∀ i, lastExecution p.1 i = if i = j then (ts : WithBot Instant) else lastExecution known i) := by
  unfold lockCrontab at h
  split at h
  · cases h
  · next hl =>
    have hj : j ∉ locked := by simpa using hl
    split at h
    · next hf =>
      cases h
      refine .inr ⟨rfl,hj,lastExecution_lt_iff.mpr ?_,lastExecution_of_executedAt fun i => executedAt_append hf⟩
      intro e he
      simp only at hf
      simp [executedAt,hf] at he
    · next k hf =>
      split at h
      · next hk =>
        cases h
        refine .inr ⟨rfl,hj,lastExecution_lt_iff.mpr ?_,lastExecution_of_executedAt fun i => executedAt_setExecution hf⟩
        intro e he
        have hke : k.lastExecution = some e := by
          simp only at hf
          simpa [executedAt,hf] using he
        simpa [hke] using hk
      · next hk =>
        cases h
        refine .inl ⟨rfl,hj,not_lt.mp fun hlt => hk ?_⟩
        rw [lastExecution_lt_iff,executedAt] at hlt
        simp only at hf
        simpa [hf,Option.all_eq_true] using hlt

/-- What the upsert as a whole does: the locked entries move forward to this minute, the others keep theirs. -/
def LockedFrom (before : List KnownCrontab) (ts : Instant) (p : List KnownCrontab × List String) : Prop :=
  ∀ i, (i ∈ p.2 → lastExecution before i < ts ∧ lastExecution p.1 i = ts) ∧
    (i ∉ p.2 → lastExecution p.1 i = lastExecution before i)

theorem lockedFrom_foldlM {before : List KnownCrontab} {ids : List String}
    (h : ids.foldlM (lockCrontab ts) (before,[]) = .ok p) : LockedFrom before ts p := by
  refine foldlM_invariant (I := LockedFrom before ts) ?_ ?_ h
  · rintro ⟨known,locked⟩ j p hI hp
    rcases lockCrontab_ok hp with ⟨rfl,-⟩ | ⟨hl,hj,hlt,hlast⟩
    · exact hI
    · intro i
      rw [hl,hlast i]
      by_cases hi : i = j
      · subst hi
        rw [if_pos rfl]
        rw [(hI i).2 hj] at hlt
        exact ⟨fun _ => ⟨hlt,rfl⟩,fun hn => absurd (by simp) hn⟩
      · rw [if_neg hi]
        have hm : i ∈ locked ++ [j] ↔ i ∈ locked := by simp [hi]
        rw [hm]
        exact hI i
  · intro i
    exact ⟨nofun,fun _ => rfl⟩

/-- The upsert locks exactly the listed entries whose last execution lies before the minute. -/
theorem mem_locked_iff {ids : List String} (h : ids.foldlM (lockCrontab ts) (known,[]) = .ok p) :
    i ∈ p.2 ↔ i ∈ ids ∧ lastExecution known i < ts := by
  have hlocked := lockedFrom_foldlM h
  -- over the identifiers that are done: locked ones are among them, and none that could be locked is missing
  have hscan : ∀ (ids : List String) (s : List KnownCrontab × List String),
      ids.foldlM (lockCrontab ts) s = .ok p → (∀ j ∈ p.2, j ∈ s.2 ∨ j ∈ ids) ∧ (∀ j ∈ s.2, j ∈ p.2) ∧
        ∀ j ∈ ids, lastExecution s.1 j < ts → j ∈ p.2 := by
    intro ids
    induction ids with
    | nil =>
      intro s hs
      cases hs
      exact ⟨fun j hj => .inl hj,fun j hj => hj,by simp⟩
    | cons k rest ih =>
      intro s hs
      obtain ⟨s₁,h₁,hr⟩ := bind_eq_ok hs
      obtain ⟨hsub,hkeep,hdone⟩ := ih s₁ hr
      rcases lockCrontab_ok h₁ with ⟨rfl,-,hge⟩ | ⟨hl,-,-,hlast⟩
      · refine ⟨fun j hj => (hsub j hj).imp_right (List.mem_cons_of_mem k),hkeep,fun j hj hlt => ?_⟩
        rcases List.mem_cons.mp hj with rfl | hj
        · exact absurd hlt (not_lt.mpr hge)
        · exact hdone j hj hlt
      · rw [hl] at hsub hkeep
        refine ⟨fun j hj => ?_,fun j hj => hkeep j (List.mem_append_left _ hj),fun j hj hlt => ?_⟩
        · rcases hsub j hj with hj | hj
          · exact (List.mem_append.mp hj).imp_right fun hk => by simp [List.mem_singleton.mp hk]
          · exact .inr (List.mem_cons_of_mem k hj)
        · by_cases hjk : j = k
          · exact hkeep j (by simp [hjk])
          · have hj' : j ∈ rest := (List.mem_cons.mp hj).resolve_left hjk
            have hsame : lastExecution s₁.1 j = lastExecution s.1 j := by rw [hlast j,if_neg hjk]
            exact hdone j hj' (hsame ▸ hlt)
  obtain ⟨hsub,-,hdone⟩ := hscan ids (known,[]) h
  constructor
  · intro hi
    exact ⟨(hsub i hi).resolve_left List.not_mem_nil,((hlocked i).1 hi).1⟩
  · rintro ⟨hi,hlt⟩
    exact hdone i hi hlt

def Call.Distinct (call : Call) : Prop := (call.jobs.map CrontabJob.identifier).Nodup

variable {call : Call} {store store' : Store} {now : Time} {locked : List String}

theorem cronStatement_ok {jobs : List CrontabJob} (h : cronStatement store jobs ts now = .ok (store',locked)) :
    LockedFrom store.known ts (store'.known,locked) ∧
      ((jobs.filter fun job => locked.contains job.identifier).map CrontabJob.job).foldlM
        (CrontabJobInner.add now) store.db = .ok store'.db := by
  obtain ⟨-,-,h⟩ := bind_eq_ok h
  obtain ⟨⟨known,locked⟩,hl,h⟩ := bind_eq_ok h
  obtain ⟨db,hdb,h⟩ := bind_eq_ok h
  cases h
  exact ⟨lockedFrom_foldlM hl,hdb⟩

theorem mem_fires {p : String × Instant} (h : p ∈ call.fires locked) : p.1 ∈ locked ∧ p.2 = call.ts := by
  obtain ⟨job,hj,rfl⟩ := List.mem_map.mp h
  exact ⟨by simpa using (List.mem_filter.mp hj).2,rfl⟩

theorem nodup_fires (hd : call.Distinct) : (call.fires locked).Nodup := by
  have hids : ((call.jobs.filter fun job => locked.contains job.identifier).map CrontabJob.identifier).Nodup :=
    hd.sublist (List.filter_sublist.map _)
  refine List.Nodup.of_map Prod.fst ?_
  rw [Call.fires,List.map_map]
  exact hids

section
variable {R : Type} {cfg : R → Config} {s s' : Cluster R} {r : R} {q : RunnerState} {d : Delivery} {next : RunnerPc}
  {a : Action R}

/-- What a step does to the database: nothing that concerns jobs or executions, or one whole statement. -/
inductive Effect (s s' : Cluster R) : Prop
  | quiet (hf : s'.fired = s.fired) (hdb : s'.store.db = s.store.db)
      (hk : ∀ i, lastExecution s'.store.known i = lastExecution s.store.known i)
  | executed (call : Call) (now : Time) (locked : List String) (hd : call.Distinct)
      (hl : LockedFrom s.store.known call.ts (s'.store.known,locked))
      (ha : ((call.jobs.filter fun job => locked.contains job.identifier).map CrontabJob.job).foldlM
        (CrontabJobInner.add now) s.store.db = .ok s'.store.db)
      (hf : s'.fired = s.fired ++ call.fires locked)

structure Distinct (cfg : R → Config) (s : Cluster R) : Prop where
  sent : ∀ call ∈ s.sent, call.Distinct
  items : ∀ r, ((s.runners r).pc.items.map Prod.fst).Sublist (cfg r).crontabs

theorem effect_execute (now : Time) (hd : call.Distinct) : Effect s (s.execute call now).1 := by
  unfold Cluster.execute
  split
  · next store locked hs =>
    obtain ⟨hl,ha⟩ := cronStatement_ok hs
    exact .executed call now locked hd hl ha rfl
  · exact .quiet rfl rfl fun _ => rfl

theorem effect_send (now : Time) (d : Delivery) (hd : call.Distinct) : Effect s (s.send call now d).1 := by
  cases d with
  | refused => exact .quiet rfl rfl fun _ => rfl
  | answered | lost =>
    cases effect_execute (s := { s with sent := s.sent ++ [call] }) now hd with
    | quiet hf hdb hk => exact .quiet hf hdb hk
    | executed call now locked hd hl ha hf => exact .executed call now locked hd hl ha hf

theorem distinct_initial (store : Store) : Distinct cfg { store := store } where
  sent _ hc := absurd hc List.not_mem_nil
  items _ := List.nil_sublist _

/-- One call of `add_job` for each of the pairs, and nothing else is done to the job tables. -/
def AddsFor (db db' : Db) (new : List (String × Instant)) : Prop :=
  ∃ (jobs : List CrontabJob) (ts : Instant) (now : Time), new = jobs.map (fun job => (job.identifier,ts)) ∧
    (jobs.map CrontabJob.job).foldlM (CrontabJobInner.add now) db = .ok db'

theorem Effect.advances (h : Effect s s') : ∃ new, s'.fired = s.fired ++ new ∧ new.Nodup ∧
    AddsFor s.store.db s'.store.db new ∧
    (∀ i, lastExecution s.store.known i ≤ lastExecution s'.store.known i) ∧
    ∀ p ∈ new, lastExecution s.store.known p.1 < lastExecution s'.store.known p.1 ∧
      lastExecution s'.store.known p.1 = p.2 := by
  cases h with
  | quiet hf hdb hk =>
    exact ⟨[],by rw [hf,List.append_nil],List.nodup_nil,⟨[],0,0,rfl,by rw [hdb]; rfl⟩,fun i => (hk i).ge,by simp⟩
  | executed call now locked hd hl ha hf =>
    refine ⟨call.fires locked,hf,nodup_fires hd,⟨_,call.ts,now,rfl,ha⟩,fun i => ?_,fun p hp => ?_⟩
    · by_cases hi : i ∈ locked
      · obtain ⟨hlt,he⟩ := (hl i).1 hi
        rw [he]
        exact hlt.le
      · exact ((hl i).2 hi).ge
    · obtain ⟨hi,ht⟩ := mem_fires hp
      obtain ⟨hlt,he⟩ := (hl p.1).1 hi
      rw [he,ht]
      exact ⟨hlt,rfl⟩

/-- What has fired is bounded by the last execution of its entry, and has fired once. -/
structure FiredOnce (s : Cluster R) : Prop where
  nodup : s.fired.Nodup
  le : ∀ p ∈ s.fired, (p.2 : WithBot Instant) ≤ lastExecution s.store.known p.1

theorem FiredOnce.step (hs : FiredOnce s) (h : Effect s s') : FiredOnce s' := by
  obtain ⟨new,hf,hn,-,hmono,hnew⟩ := h.advances
  constructor
  · rw [hf]
    refine List.nodup_append.mpr ⟨hs.nodup,hn,fun p hp q hq he => ?_⟩
    -- an earlier execution is at most the old bound, a new one is above it
    subst he
    have hle := hs.le p hp
    obtain ⟨hlt,heq⟩ := hnew p hq
    rw [heq] at hlt
    exact absurd hle (not_le_of_gt hlt)
  · rw [hf]
    intro p hp
    rcases List.mem_append.mp hp with hp | hp
    · exact (hs.le p hp).trans (hmono p.1)
    · exact (hnew p hp).2.ge

variable [DecidableEq R] {debugText : Instant → String} {z : R → Zone}

theorem effect_schedule (hd : call.Distinct) : Effect s (s.schedule r q call now d next) := by
  unfold Cluster.schedule
  split
  · exact .quiet rfl rfl fun _ => rfl
  · cases effect_send (s := s) now d hd with
    | quiet hf hdb hk => exact .quiet hf hdb hk
    | executed call now locked hd hl ha hf => exact .executed call now locked hd hl ha hf

theorem schedule_sent {c : Call} (h : c ∈ (s.schedule r q call now d next).sent) : c ∈ s.sent ∨ c = call := by
  unfold Cluster.schedule at h
  split at h
  · exact .inl h
  · simpa [Cluster.put] using h

theorem toBackfill_sublist (z : Zone) (cfg : Config) (start ts : Instant) (items : List (Crontab × Instant)) :
    (toBackfill z cfg start items ts).Sublist (items.map Prod.fst) := by
  refine filterMap_sublist_map ?_ items
  rintro ⟨c,notBefore⟩ d h
  obtain ⟨fill,-,h⟩ := Option.bind_eq_some_iff.mp h
  split at h
  · exact (Option.some.inj h).symm
  · cases h

theorem identifiers_forCron (crontabs : List Crontab) (ts : Instant) (backfilled : Bool) :
    (crontabs.map fun c => CrontabJob.forCron debugText c ts backfilled).map CrontabJob.identifier =
      crontabs.map Crontab.identifier := by
  rw [List.map_map]
  rfl

theorem distinct_backfillCall (debugText : Instant → String) (z : Zone) {cfg : Config} (start ts : Instant)
    {items : List (Crontab × Instant)} (hd : (cfg.crontabs.map Crontab.identifier).Nodup)
    (hi : (items.map Prod.fst).Sublist cfg.crontabs) :
    (backfillCall debugText z cfg start items ts).Distinct := by
  unfold Call.Distinct backfillCall
  rw [identifiers_forCron]
  exact hd.sublist (((toBackfill_sublist z cfg start ts items).trans hi).map _)

theorem distinct_tickCall (debugText : Instant → String) (z : Zone) {cfg : Config} (ts : Instant)
    (hd : (cfg.crontabs.map Crontab.identifier).Nodup) : (tickCall debugText z cfg ts).Distinct := by
  unfold Call.Distinct tickCall
  rw [identifiers_forCron]
  exact hd.sublist (List.filter_sublist.map _)

theorem lastExecution_insertUnknown (start : Instant) (ids : List String) (i : String) :
    lastExecution (ids.foldl (insertUnknown start) known) i = lastExecution known i := by
  induction ids generalizing known with
  | nil => rfl
  | cons j rest ih =>
    rw [List.foldl_cons,ih]
    unfold insertUnknown
    split
    · rfl
    · next hn =>
      have hf : (known.find? fun k => k.identifier == j) = none := by simpa [List.find?_eq_none] using hn
      unfold lastExecution
      rw [executedAt_append hf]
      split
      · next hi =>
        subst hi
        simp [executedAt,hf]
      · rfl

theorem Schedules.distinct {z : Zone} {cfg : Config} (h : Schedules debugText z cfg q call)
    (hd : (cfg.crontabs.map Crontab.identifier).Nodup) (hi : (q.pc.items.map Prod.fst).Sublist cfg.crontabs) :
    call.Distinct := by
  cases h with
  | backfill start ts items hp =>
    rw [hp] at hi
    exact distinct_backfillCall debugText z start ts hd hi
  | tick ts => exact distinct_tickCall debugText z ts hd

theorem ClusterMove.effect (hd : ∀ r, ((cfg r).crontabs.map Crontab.identifier).Nodup)
    (hs : Distinct cfg s) (h : ClusterMove debugText z cfg s r s') :
    Effect s s' ∧ ∀ call ∈ s'.sent, call ∈ s.sent ∨ call.Distinct := by
  cases h with
  | stay | put => exact ⟨.quiet rfl rfl fun _ => rfl,fun _ hc => .inl hc⟩
  | register start unknown d =>
    refine ⟨.quiet rfl rfl fun i => ?_,fun _ hc => .inl hc⟩
    simp only [Cluster.put]
    split
    · rfl
    · exact lastExecution_insertUnknown start unknown i
  | schedule now d hc =>
    have hcall := hc.distinct (hd r) (hs.items r)
    exact ⟨effect_schedule hcall,fun c hc => (schedule_sent hc).imp_right fun he => by rwa [he]⟩

theorem clusterStep_effect (hd : ∀ r, ((cfg r).crontabs.map Crontab.identifier).Nodup)
    (hs : Distinct cfg s) (h : clusterStep debugText z cfg s a = some s') : Effect s s' := by
  cases a with
  | runner r a => exact ((runnerStep_move rfl h).effect hd hs).1
  | again k now =>
    obtain ⟨call,hk,rfl⟩ := Option.map_eq_some_iff.mp h
    exact effect_execute now (hs.sent call (List.mem_of_getElem? hk))

theorem items_afterBackfill (z : Zone) (start : Instant) : (afterBackfill z start).items = [] := by
  unfold afterBackfill
  cases roundDateMinute z start true <;> rfl

theorem items_enterBackfill (z : Zone) (start : Instant) (items : List (Crontab × Instant)) :
    (enterBackfill z start items).items = items ∨ (enterBackfill z start items).items = [] := by
  unfold enterBackfill
  split
  · exact .inr (items_afterBackfill z start)
  · split
    · exact .inr rfl
    · exact .inl rfl

theorem RunnerMove.items_sublist {z : Zone} {crontabs : List Crontab} {q' : RunnerState}
    (h : RunnerMove z crontabs q q') (hq : (q.pc.items.map Prod.fst).Sublist crontabs) :
    (q'.pc.items.map Prod.fst).Sublist crontabs := by
  have enter : ∀ start items, (items.map Prod.fst).Sublist crontabs →
      ((enterBackfill z start items).items.map Prod.fst).Sublist crontabs := by
    intro start items hi
    rcases items_enterBackfill z start items with he | he
    · rwa [he]
    · rw [he]
      exact List.nil_sublist _
  cases h with
  | start | failed | panicked | retry => exact List.nil_sublist _
  | read start items unknown _ hi pc hpc =>
    rcases hpc with rfl | rfl
    · exact enter start items hi
    · exact hi
  | registered start items unknown hp =>
    rw [hp] at hq
    exact enter start items hq
  | backfill start ts items hp _ pc hpc =>
    rw [hp] at hq
    rcases hpc with rfl | rfl
    · exact hq
    · exact List.nil_sublist _
  | backfilled start =>
    rw [items_afterBackfill]
    exact List.nil_sublist _
  | tick ts _ pc hpc =>
    rcases hpc with rfl | rfl <;> exact List.nil_sublist _

theorem Distinct.step (hd : ∀ r, ((cfg r).crontabs.map Crontab.identifier).Nodup)
    (hs : Distinct cfg s) (h : clusterStep debugText z cfg s a = some s') : Distinct cfg s' where
  sent := by
    cases a with
    | runner r a =>
      intro call hc
      exact (((runnerStep_move rfl h).effect hd hs).2 call hc).elim (hs.sent call) id
    | again k now =>
      obtain ⟨call,-,rfl⟩ := Option.map_eq_some_iff.mp h
      rw [Cluster.execute_sent]
      exact hs.sent
  items := clusterStep_runners (I := fun r q => (q.pc.items.map Prod.fst).Sublist (cfg r).crontabs)
    (fun _ _ _ hm hq => hm.items_sublist hq) h hs.items

/-- Whatever statements fail, lose their answer or are executed again, `add_job` is called at most once for
an entry and a minute, and no step moves a last execution back. -/
theorem occurrence_fires_at_most_once (debugText : Instant → String) (z : R → Zone) (cfg : R → Config)
    (hd : ∀ r, ((cfg r).crontabs.map Crontab.identifier).Nodup) (store : Store)
    (h : Reaches (clusterStep debugText z cfg) (fun _ _ => True) { store := store } s) :
    s.fired.Nodup ∧ ∀ a s', clusterStep debugText z cfg s a = some s' → ∃ new, s'.fired = s.fired ++ new ∧
      AddsFor s.store.db s'.store.db new ∧
      (∀ i, lastExecution s.store.known i ≤ lastExecution s'.store.known i) ∧
      ∀ p ∈ new, lastExecution s.store.known p.1 < lastExecution s'.store.known p.1 ∧
        lastExecution s'.store.known p.1 = p.2 := by
  obtain ⟨hdist,hfired⟩ := h.invariant (I := fun s => Distinct cfg s ∧ FiredOnce s)
    (fun _ _ _ _ he hi => ⟨Distinct.step hd hi.1 he,hi.2.step (clusterStep_effect hd hi.1 he)⟩)
    ⟨distinct_initial store,⟨List.nodup_nil,nofun⟩⟩
  refine ⟨hfired.nodup,fun a s' he => ?_⟩
  obtain ⟨new,hf,-,hadds,hmono,hnew⟩ := (clusterStep_effect hd hdist he).advances
  exact ⟨new,hf,hadds,hmono,hnew⟩

end

def minutely : Crontab where
  taskIdentifier := "task"

def firstTick (r : Bool) (d : Delivery) : List (Action Bool) :=
  [.runner r (.start (30 * oneSecond)),.runner r (.read true),.runner r (.wake (60 * oneSecond) 0 d)]

def bothTick : Option (Cluster Bool) :=
  exec (clusterStep (fun _ => "") (fun _ => .fixed 0) fun _ => ⟨[minutely],false⟩) (fun _ _ => True)
    { store := ⟨.empty,[⟨"task",0,none⟩]⟩ } (firstTick false .lost ++ firstTick true .answered ++ [.again 0 0])

theorem two_runners_fire_once : ∃ s, bothTick = some s ∧ s.sent.length = 2 ∧
    s.fired = [("task",60 * oneSecond)] ∧ s.fired.Nodup := by
  have hf : bothTick.map (fun s => (s.sent.length,s.fired)) = some (2,[("task",60 * oneSecond)]) := by decide +kernel
  obtain ⟨s,hs,he⟩ := Option.map_eq_some_iff.mp hf
  obtain ⟨hlen,hfired⟩ := Prod.mk.inj he
  exact ⟨s,hs,hlen,hfired,(occurrence_fires_at_most_once _ _ (fun _ => ⟨[minutely],false⟩)
    (fun _ => by decide) _ (reaches_exec hs)).1⟩

end GraphileWorker.Cron
