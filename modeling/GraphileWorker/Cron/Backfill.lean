import GraphileWorker.Cron.Once
import GraphileWorker.Cron.Tiling

/-! # The backfill of one entry

`register_and_backfill_items` on the tables. A minute less than one second older than the
window of its entry is reached only if some other window is larger.
-/
namespace GraphileWorker.Cron
open Database Foundation

inductive BackfillError
  | sql (error : SqlError)
  | panicked

abbrev Ledger := Store × List (String × Instant)

section
variable (debugText : Instant → String) (z : Zone) (cfg : Config) (start : Instant)

/-- One round of the `while` loop; `now` is the clock of the database at each round. -/
def backfillRound (items : List (Crontab × Instant)) (now : Instant → Time) (s : Ledger) (ts : Instant) :
    Except SqlError Ledger :=
  let call := backfillCall debugText z cfg start items ts
  if call.jobs.isEmpty then .ok s
  else (cronStatement s.1 call.jobs call.ts (now ts)).map fun p => (p.1,s.2 ++ call.fires p.2)

/-- The minutes from `ts` on that come before `stop`. -/
def minutesUntil (ts stop : Instant) : List Instant :=
  (List.range ((stop - ts + oneMinute - 1) / oneMinute).toNat).map fun k : ℕ => ts + (k : ℤ) * oneMinute

def registerAndBackfill (now : Instant → Time) (store : Store) : Except BackfillError Ledger :=
  let (items,unknown) := getBackfillAndUnknownItems cfg.crontabs store.known
  let store' := { store with known := unknown.foldl (insertUnknown start) store.known }
  match largestBackfill items with
  | none => .ok (store',[])
  | some secs =>
    match roundDateMinute z (start - secs * oneSecond) true with
    | none => .error .panicked
    | some ts =>
      ((minutesUntil ts start).foldlM (backfillRound debugText z cfg start items now) (store',[])).mapError .sql

end

variable {known : List KnownCrontab} {i : String} {ts : Instant}

theorem mem_fires_iff {call : Call} {store store' : Store} {now : Time} {t : Instant} {locked : List String}
    (h : cronStatement store call.jobs call.ts now = .ok (store',locked)) : (i,t) ∈ call.fires locked ↔
      t = call.ts ∧ i ∈ call.jobs.map CrontabJob.identifier ∧ lastExecution store.known i < call.ts := by
  obtain ⟨-,-,h⟩ := bind_eq_ok h
  obtain ⟨⟨known',locked⟩,hl,h⟩ := bind_eq_ok h
  obtain ⟨db,-,h⟩ := bind_eq_ok h
  cases h
  have hiff := mem_locked_iff (i := i) hl
  simp only at hiff
  simp only [Call.fires,List.mem_map,List.mem_filter,List.contains_iff_mem,Prod.mk.injEq]
  constructor
  · rintro ⟨job,⟨hj,hm⟩,rfl,rfl⟩
    exact ⟨rfl,⟨job,hj,rfl⟩,(mem_locked_iff hl).mp hm |>.2⟩
  · rintro ⟨rfl,⟨job,hj,rfl⟩,hlt⟩
    exact ⟨job,⟨hj,hiff.mpr ⟨List.mem_map.mpr ⟨job,hj,rfl⟩,hlt⟩⟩,rfl,rfl⟩

section
variable {debugText : Instant → String} {z : Zone} {cfg : Config} {start : Instant}
variable {items : List (Crontab × Instant)} {now : Instant → Time} {s s' : Ledger} {t : Instant}

theorem mem_jobs_backfillCall (debugText : Instant → String) :
    i ∈ (backfillCall debugText z cfg start items ts).jobs.map CrontabJob.identifier ↔
      i ∈ (toBackfill z cfg start items ts).map Crontab.identifier := by
  rw [backfillCall,identifiers_forCron]

theorem backfillRound_ok (h : backfillRound debugText z cfg start items now s ts = .ok s') :
    ∃ new, s'.2 = s.2 ++ new ∧
      (∀ t, (i,t) ∈ new ↔ t = ts ∧ i ∈ (toBackfill z cfg start items ts).map Crontab.identifier ∧
        lastExecution s.1.known i < ts) ∧
      (lastExecution s'.1.known i = lastExecution s.1.known i ∨
        (lastExecution s.1.known i < ts ∧ lastExecution s'.1.known i = ts)) := by
  unfold backfillRound at h
  dsimp only at h
  split at h
  · next he =>
    cases h
    have hno : i ∉ (toBackfill z cfg start items ts).map Crontab.identifier := by
      rw [← mem_jobs_backfillCall debugText,List.isEmpty_iff.mp he]
      simp
    exact ⟨[],(List.append_nil _).symm,by simp [hno],.inl rfl⟩
  · obtain ⟨⟨store,locked⟩,hs,rfl⟩ := map_eq_ok.mp h
    refine ⟨_,rfl,fun t => ?_,?_⟩
    · rw [mem_fires_iff hs,mem_jobs_backfillCall]
      rfl
    · have hl := (cronStatement_ok hs).1 i
      by_cases hi : i ∈ locked
      · exact .inr (hl.1 hi)
      · exact .inl (hl.2 hi)

theorem mem_fired_rounds {minutes : List Instant} (hp : minutes.Pairwise (· < ·))
    (h : minutes.foldlM (backfillRound debugText z cfg start items now) s = .ok s') :
    (i,t) ∈ s'.2 ↔ (i,t) ∈ s.2 ∨ (t ∈ minutes ∧ i ∈ (toBackfill z cfg start items t).map Crontab.identifier ∧
      lastExecution s.1.known i < t) := by
  induction minutes generalizing s with
  | nil =>
    cases h
    simp
  | cons u rest ih =>
    obtain ⟨hu,hrest⟩ := List.pairwise_cons.mp hp
    obtain ⟨s₁,h₁,hr⟩ := bind_eq_ok h
    obtain ⟨new,hs,hnew,hlast⟩ := backfillRound_ok (i := i) h₁
    -- a round at `u` changes nothing for the minutes after `u`
    have hsame : t ∈ rest → (lastExecution s₁.1.known i < t ↔ lastExecution s.1.known i < t) := by
      intro ht
      have hut : (u : WithBot Instant) < t := WithBot.coe_lt_coe.mpr (hu t ht)
      rcases hlast with he | ⟨hlt,he⟩
      · rw [he]
      · rw [he]
        exact ⟨fun _ => hlt.trans hut,fun _ => hut⟩
    rw [ih hrest hr,hs,List.mem_append,hnew t,List.mem_cons]
    constructor
    · rintro ((hm | ⟨rfl,hm,hlt⟩) | ⟨ht,hm,hlt⟩)
      · exact .inl hm
      · exact .inr ⟨.inl rfl,hm,hlt⟩
      · exact .inr ⟨.inr ht,hm,(hsame ht).mp hlt⟩
    · rintro (hm | ⟨rfl | ht,hm,hlt⟩)
      · exact .inl (.inl hm)
      · exact .inl (.inr ⟨rfl,hm,hlt⟩)
      · exact .inr ⟨ht,hm,(hsame ht).mpr hlt⟩

end

theorem minutesUntil_of_lt {ts stop : ℤ} (h : ts < stop) :
    minutesUntil ts stop = ts :: minutesUntil (ts + oneMinute) stop := by
  have hn : ((stop - ts + oneMinute - 1) / oneMinute).toNat =
      ((stop - (ts + oneMinute) + oneMinute - 1) / oneMinute).toNat + 1 := by
    unfold oneMinute oneSecond
    omega
  rw [minutesUntil,minutesUntil,hn,List.range_succ_eq_map,List.map_cons,List.map_map]
  refine congrArg₂ _ (by simp) (List.map_congr_left fun k _ => ?_)
  simp only [Function.comp_apply,Nat.succ_eq_add_one,Nat.cast_add,Nat.cast_one]
  ring

theorem minutesUntil_of_ge {ts stop : ℤ} (h : ¬ts < stop) : minutesUntil ts stop = [] := by
  have hn : ((stop - ts + oneMinute - 1) / oneMinute).toNat = 0 := by
    unfold oneMinute oneSecond
    omega
  rw [minutesUntil,hn]
  rfl

section Machine
variable {R : Type} [DecidableEq R] {debugText : Instant → String} {z : R → Zone} {cfg : R → Config} {s : Cluster R}
  {r : R} {base : List (String × Instant)} {start : Instant} {items : List (Crontab × Instant)} {l : Ledger}

structure Shows (base : List (String × Instant)) (r : R) (l : Ledger) (pc : RunnerPc) (s : Cluster R) : Prop where
  store : s.store = l.1
  fired : s.fired = base ++ l.2
  pc : (s.runners r).pc = pc

/-- How the result of the function shows in the state of the runner. -/
def Mirrors (base : List (String × Instant)) (r : R) (next : RunnerPc) (s : Cluster R) :
    Except BackfillError Ledger → Prop
  | .ok l => Shows base r l next s
  | .error .panicked => (s.runners r).pc = .panicked
  | .error (.sql _) => (s.runners r).pc = .retrying

theorem step_round (debugText : Instant → String) (z : R → Zone) (cfg : R → Config)
    (hs : Shows base r l (.backfilling start ts items) s) (hlt : ts < start)
    (now : Instant → Time) : ∃ s', clusterStep debugText z cfg s (.runner r (.backfill (now ts) .answered)) = some s' ∧
      Mirrors base r (.backfilling start (ts + oneMinute) items) s'
        ((backfillRound debugText (z r) (cfg r) start items now l ts).mapError .sql) := by
  refine ⟨_,by rw [clusterStep,hs.pc,runnerStep,if_pos hlt],?_⟩
  unfold Cluster.schedule backfillRound
  dsimp only
  split
  · exact ⟨hs.store,hs.fired,by simp⟩
  · simp only [Cluster.send,Cluster.execute,hs.store]
    cases cronStatement l.1 (backfillCall debugText (z r) (cfg r) start items ts).jobs
        (backfillCall debugText (z r) (cfg r) start items ts).ts (now ts) with
    | error e => simp [Mirrors,Except.map,Except.mapError]
    | ok p => exact ⟨rfl,by simp [Cluster.put,hs.fired],by simp⟩

theorem reaches_rounds {minutes : List Instant} (hm : minutesUntil ts start = minutes)
    (hs : Shows base r l (.backfilling start ts items) s) (now : Instant → Time) :
    ∃ s', Reaches (clusterStep debugText z cfg) (fun _ _ => True) s s' ∧
      Mirrors base r (afterBackfill (z r) start) s'
        ((minutes.foldlM (backfillRound debugText (z r) (cfg r) start items now) l).mapError .sql) := by
  induction minutes generalizing s l ts with
  | nil =>
    have hge : ¬ts < start := by
      intro hlt
      rw [minutesUntil_of_lt hlt] at hm
      cases hm
    have hstep : clusterStep debugText z cfg s (.runner r (.backfill 0 .answered)) =
        some (s.put r { s.runners r with pc := afterBackfill (z r) start }) := by
      rw [clusterStep,hs.pc,runnerStep,if_neg hge]
    exact ⟨_,.step .refl trivial hstep,hs.store,hs.fired,by simp⟩
  | cons t rest ih =>
    have hlt : ts < start := by
      by_contra hge
      rw [minutesUntil_of_ge hge] at hm
      cases hm
    rw [minutesUntil_of_lt hlt] at hm
    obtain ⟨rfl,hrest⟩ := List.cons.inj hm
    obtain ⟨s₁,hstep,hmirror⟩ := step_round debugText z cfg hs hlt now
    rw [List.foldlM_cons]
    cases hround : backfillRound debugText (z r) (cfg r) start items now l ts with
    | error e =>
      rw [hround] at hmirror
      exact ⟨s₁,.step .refl trivial hstep,hmirror⟩
    | ok l₁ =>
      rw [hround] at hmirror
      obtain ⟨s',hreach,hlast⟩ := ih hrest hmirror
      exact ⟨s',(Reaches.step .refl trivial hstep).trans hreach,hlast⟩

/-- The runner of the cluster makes the rounds of the function: from the point where it
reads the known entries it can go, with all its statements answered, to a state that shows
the result. -/
theorem registerAndBackfill_reached (hpc : (s.runners r).pc = .reading start) (now : Instant → Time) :
    ∃ s', Reaches (clusterStep debugText z cfg) (fun _ _ => True) s s' ∧
      Mirrors s.fired r (afterBackfill (z r) start) s'
        (registerAndBackfill debugText (z r) (cfg r) start now s.store) := by
  generalize hfound : getBackfillAndUnknownItems (cfg r).crontabs s.store.known = found
  obtain ⟨items,unknown⟩ := found
  -- registration, which skips the insert where nothing is unknown
  obtain ⟨s₁,hreach₁,hs₁⟩ : ∃ s₁, Reaches (clusterStep debugText z cfg) (fun _ _ => True) s s₁ ∧
      Shows s.fired r ({ s.store with known := unknown.foldl (insertUnknown start) s.store.known },[])
        (enterBackfill (z r) start items) s₁ := by
    have hread : clusterStep debugText z cfg s (.runner r (.read true)) = some (s.put r { s.runners r with
        pc := if unknown.isEmpty then enterBackfill (z r) start items else .registering start items unknown
        items := items }) := by
      rw [clusterStep,hpc,runnerStep,if_pos rfl,hfound]
    cases unknown with
    | nil => exact ⟨_,.step .refl trivial hread,rfl,(List.append_nil _).symm,by simp⟩
    | cons i rest =>
      let q : RunnerState := { s.runners r with pc := .registering start items (i :: rest), items := items }
      have hinsert : clusterStep debugText z cfg (s.put r q) (.runner r (.insert .answered)) =
          some (({ s.put r q with store := { s.store with
            known := (i :: rest).foldl (insertUnknown start) s.store.known } } : Cluster R).put r
              { q with pc := enterBackfill (z r) start items }) := by
        rw [clusterStep,Cluster.put_runners_self]
        rfl
      exact ⟨_,.step (.step .refl trivial hread) trivial hinsert,rfl,(List.append_nil _).symm,by simp⟩
  unfold registerAndBackfill
  rw [hfound]
  dsimp only
  unfold enterBackfill at hs₁
  cases hl : largestBackfill items with
  | none =>
    rw [hl] at hs₁
    exact ⟨s₁,hreach₁,hs₁⟩
  | some secs =>
    simp only [hl] at hs₁
    dsimp only
    cases hr : roundDateMinute (z r) (start - secs * oneSecond) true with
    | none =>
      rw [hr] at hs₁
      exact ⟨s₁,hreach₁,hs₁.pc⟩
    | some first =>
      rw [hr] at hs₁
      obtain ⟨s',hreach,hlast⟩ := reaches_rounds rfl hs₁ now
      exact ⟨s',hreach₁.trans hreach,hlast⟩

end Machine

theorem minutesUntil_pairwise (ts stop : Instant) : (minutesUntil ts stop).Pairwise (· < ·) := by
  rw [minutesUntil]
  refine List.pairwise_map.mpr (List.pairwise_lt_range.imp fun {a b} hab => ?_)
  have hpos := oneMinute_pos
  have hab' : (a : ℤ) < b := by exact_mod_cast hab
  nlinarith

theorem mem_minutesUntil {o first stop t : ℤ} (hw : WholeMinute o first) :
    t ∈ minutesUntil first stop ↔ WholeMinute o t ∧ first ≤ t ∧ t < stop := by
  simp only [minutesUntil,List.mem_map,List.mem_range]
  constructor
  · rintro ⟨k,hk,rfl⟩
    have hlt : (k : ℤ) < (stop - first + oneMinute - 1) / oneMinute := by omega
    refine ⟨hw.add_steps k,?_,?_⟩
    · unfold oneMinute oneSecond
      omega
    · unfold oneMinute oneSecond at hlt ⊢
      omega
  · rintro ⟨ht,hle,hlt⟩
    refine ⟨((t - first) / oneMinute).toNat,?_,?_⟩
    · unfold WholeMinute oneMinute oneSecond at *
      omega
    · unfold WholeMinute oneMinute oneSecond at *
      omega

theorem floor_add_minute_le_iff {o t x : ℤ} (ht : WholeMinute o t) :
    floorMinute o x + oneMinute ≤ t ↔ x < t := by
  unfold WholeMinute floorMinute oneMinute oneSecond at *
  omega

def InWindow (start : ℤ) (secs : ℕ) (t : ℤ) : Prop := start - (secs + 1) * oneSecond < t

theorem age_le_iff {start t : ℤ} {secs : ℕ} (h : t < start) :
    (start - t).tdiv oneSecond ≤ secs ↔ InWindow start secs t := by
  rw [Int.tdiv_eq_ediv_of_nonneg (by omega)]
  unfold InWindow oneSecond
  omega

/-- The minutes for which an entry may be backfilled, as far as its window does not matter. -/
structure Due (o : ℤ) (useLocalTime : Bool) (start : Instant) (e : Crontab) (row : KnownCrontab) (t : Instant) :
    Prop where
  whole : WholeMinute o t
  before : t < start
  notBefore : row.lastExecution.getD row.knownSince ≤ t
  notDone : ∀ done ∈ row.lastExecution, done < t
  runs : e.shouldRunAt (calendarTime (.fixed o) useLocalTime t) = true

def OnEdge (start : ℤ) (secs : ℕ) (t : ℤ) : Prop := InWindow start secs t ∧ t ≤ start - secs * oneSecond

def Widest (cfg : Config) (known : List KnownCrontab) (secs : ℕ) : Prop :=
  largestBackfill (getBackfillAndUnknownItems cfg.crontabs known).1 = some secs

section
variable {debugText : Instant → String} {start : Instant} {now : Instant → Time} {o : ℤ}
variable {e : Crontab} {row : KnownCrontab} {fill : CrontabFill} {store : Store} {s' : Ledger} (cfg : Config)

theorem mem_items_iff {crontabs : List Crontab} (hf : (known.find? fun k => k.identifier == e.identifier) = some row)
    {notBefore : Instant} : (e,notBefore) ∈ (getBackfillAndUnknownItems crontabs known).1 ↔
      e ∈ crontabs ∧ notBefore = row.lastExecution.getD row.knownSince := by
  simp only [getBackfillAndUnknownItems,List.mem_filterMap,Option.map_eq_some_iff,Prod.mk.injEq]
  constructor
  · rintro ⟨c,hc,k,hk,rfl,rfl⟩
    rw [hf] at hk
    cases hk
    exact ⟨hc,rfl⟩
  · rintro ⟨he,rfl⟩
    exact ⟨e,he,row,hf,rfl,rfl⟩

theorem mem_identifiers_iff {items : List (Crontab × Instant)} (hd : (cfg.crontabs.map Crontab.identifier).Nodup)
    (hi : (items.map Prod.fst).Sublist cfg.crontabs) (he : e ∈ cfg.crontabs) {z : Zone} :
    e.identifier ∈ (toBackfill z cfg start items ts).map Crontab.identifier ↔ e ∈ toBackfill z cfg start items ts := by
  constructor
  · intro hm
    obtain ⟨c,hc,hce⟩ := List.mem_map.mp hm
    have hmem : c ∈ cfg.crontabs := hi.subset ((toBackfill_sublist z cfg start ts items).subset hc)
    rwa [← List.inj_on_of_nodup_map hd hmem he hce]
  · exact List.mem_map_of_mem

theorem exists_largestBackfill (he : e ∈ cfg.crontabs)
    (hf : (known.find? fun k => k.identifier == e.identifier) = some row) (hfill : e.options.fill = some fill) :
    ∃ secs, largestBackfill (getBackfillAndUnknownItems cfg.crontabs known).1 = some secs ∧ fill.toSecs ≤ secs := by
  have hitem := (mem_items_iff hf).mpr ⟨he,rfl⟩
  have hm : fill.toSecs ∈ (getBackfillAndUnknownItems cfg.crontabs known).1.filterMap
      fun i => i.1.options.fill.map CrontabFill.toSecs :=
    List.mem_filterMap.mpr ⟨_,hitem,by simp [hfill]⟩
  cases hl : largestBackfill (getBackfillAndUnknownItems cfg.crontabs known).1 with
  | none =>
    rw [largestBackfill,List.max?_eq_none_iff] at hl
    rw [hl] at hm
    exact absurd hm List.not_mem_nil
  | some secs => exact ⟨secs,rfl,(List.max?_eq_some_iff.mp hl).2 _ hm⟩

/-- The minutes for which a run schedules an entry: the other entries occur in
`Widest` only. -/
theorem mem_backfilled_iff (hd : (cfg.crontabs.map Crontab.identifier).Nodup) (he : e ∈ cfg.crontabs)
    (hf : (store.known.find? fun k => k.identifier == e.identifier) = some row) (hfill : e.options.fill = some fill)
    (h : registerAndBackfill debugText (.fixed o) cfg start now store = .ok s') {t : Instant} :
    (e.identifier,t) ∈ s'.2 ↔ Due o cfg.useLocalTime start e row t ∧ InWindow start fill.toSecs t ∧
      (OnEdge start fill.toSecs t → ¬Widest cfg store.known fill.toSecs) := by
  obtain ⟨secs,hl,hle⟩ := exists_largestBackfill cfg he hf hfill
  have hw := (wholeMinute_floor o (start - secs * oneSecond)).add_steps 1
  rw [Nat.cast_one,one_mul] at hw
  have hlast : lastExecution ((getBackfillAndUnknownItems cfg.crontabs store.known).2.foldl (insertUnknown start)
      store.known) e.identifier < t ↔ ∀ done ∈ row.lastExecution, done < t := by
    rw [lastExecution_insertUnknown,lastExecution_lt_iff,executedAt,hf]
    rfl
  unfold registerAndBackfill at h
  simp only [hl,roundDateMinute_fixed,if_true] at h
  rw [mem_fired_rounds (minutesUntil_pairwise _ _) (mapError_eq_ok.mp h),mem_minutesUntil hw,
    mem_identifiers_iff cfg hd (backfillItems_sublist _ _) he,mem_toBackfill,hlast]
  -- the scan is `start - secs < t`, which follows from the entry's own test unless its window is the largest
  have hscan : WholeMinute o t → t < start → InWindow start fill.toSecs t →
      (floorMinute o (start - secs * oneSecond) + oneMinute ≤ t ↔
        (OnEdge start fill.toSecs t → ¬Widest cfg store.known fill.toSecs)) := by
    intro hwt hlt hown
    rw [floor_add_minute_le_iff hwt]
    have hwidest : Widest cfg store.known fill.toSecs ↔ secs = fill.toSecs := by
      unfold Widest
      rw [hl,Option.some_inj]
    rw [hwidest]
    constructor
    · rintro hlt ⟨-,hedge⟩ rfl
      omega
    · intro hedge
      by_contra hge
      unfold OnEdge InWindow oneSecond at *
      exact hedge ⟨hown,by omega⟩ (by omega)
  constructor
  · rintro (hm | ⟨⟨hwt,hfirst,hlt⟩,⟨notBefore,fill',hitem,hfill',hwithin,hrun⟩,hdone⟩)
    · exact absurd hm List.not_mem_nil
    · rw [hfill] at hfill'
      cases hfill'
      obtain ⟨-,rfl⟩ := (mem_items_iff hf).mp hitem
      obtain ⟨hage,hnb⟩ := withinFill_iff.mp hwithin
      have hown := (age_le_iff hlt).mp hage
      exact ⟨⟨hwt,hlt,hnb,hdone,hrun⟩,hown,(hscan hwt hlt hown).mp hfirst⟩
  · rintro ⟨hdue,hown,hedge⟩
    refine .inr ⟨⟨hdue.whole,(hscan hdue.whole hdue.before hown).mpr hedge,hdue.before⟩,?_,hdue.notDone⟩
    exact ⟨_,fill,(mem_items_iff hf).mpr ⟨he,rfl⟩,hfill,
      withinFill_iff.mpr ⟨(age_le_iff hdue.before).mpr hown,hdue.notBefore⟩,hdue.runs⟩

end

/-- An entry is scheduled for the same minutes in both runs exactly if its window is the largest in both
or in neither, or no due minute is older than its window by less than a second. -/
theorem backfill_independent (debugText : Instant → String) (o : ℤ) (start : Instant) (useLocalTime : Bool)
    {crontabs₁ crontabs₂ : List Crontab} {store₁ store₂ : Store} {now₁ now₂ : Instant → Time} {s₁ s₂ : Ledger}
    {e : Crontab} {row : KnownCrontab} {fill : CrontabFill} (hfill : e.options.fill = some fill)
    (he₁ : e ∈ crontabs₁) (he₂ : e ∈ crontabs₂) (hd₁ : (crontabs₁.map Crontab.identifier).Nodup)
    (hd₂ : (crontabs₂.map Crontab.identifier).Nodup)
    (hrow₁ : (store₁.known.find? fun k => k.identifier == e.identifier) = some row)
    (hrow₂ : (store₂.known.find? fun k => k.identifier == e.identifier) = some row)
    (h₁ : registerAndBackfill debugText (.fixed o) ⟨crontabs₁,useLocalTime⟩ start now₁ store₁ = .ok s₁)
    (h₂ : registerAndBackfill debugText (.fixed o) ⟨crontabs₂,useLocalTime⟩ start now₂ store₂ = .ok s₂) :
    (∀ t, (e.identifier,t) ∈ s₁.2 ↔ (e.identifier,t) ∈ s₂.2) ↔
      ((Widest ⟨crontabs₁,useLocalTime⟩ store₁.known fill.toSecs ↔
          Widest ⟨crontabs₂,useLocalTime⟩ store₂.known fill.toSecs) ∨
        ∀ t, Due o useLocalTime start e row t → ¬OnEdge start fill.toSecs t) := by
  have hm₁ (t : Instant) := mem_backfilled_iff ⟨crontabs₁,useLocalTime⟩ hd₁ he₁ hrow₁ hfill h₁ (t := t)
  have hm₂ (t : Instant) := mem_backfilled_iff ⟨crontabs₂,useLocalTime⟩ hd₂ he₂ hrow₂ hfill h₂ (t := t)
  constructor
  · intro hsame
    by_contra hn
    obtain ⟨hdiff,hdue⟩ := not_or.mp hn
    push Not at hdue
    obtain ⟨t,ht,hedge⟩ := hdue
    apply hdiff
    have hiff := hsame t
    rw [hm₁,hm₂] at hiff
    simp only [ht,hedge.1,hedge,true_and,true_implies] at hiff
    exact not_iff_not.mp hiff
  · rintro (hw | hno) t
    · rw [hm₁,hm₂,hw]
    · rw [hm₁,hm₂]
      constructor
      · rintro ⟨hdue,hown,-⟩
        exact ⟨hdue,hown,fun hedge => absurd hedge (hno t hdue)⟩
      · rintro ⟨hdue,hown,-⟩
        exact ⟨hdue,hown,fun hedge => absurd hedge (hno t hdue)⟩

def minuteEntry (task : String) (minutes : ℕ) : Crontab where
  taskIdentifier := task
  options := { fill := some ⟨0,0,0,minutes,0⟩ }

def neverRun : Store := ⟨.empty,[⟨"a",0,none⟩,⟨"b",0,none⟩]⟩

def backfillAt (crontabs : List Crontab) (start : ℤ) : Except BackfillError Ledger :=
  registerAndBackfill (fun _ => "") (.fixed 0) ⟨crontabs,false⟩ (start * oneSecond) (fun _ => 0) neverRun

def firedAt (crontabs : List Crontab) (start : ℤ) : Option (List (String × Instant)) :=
  (backfillAt crontabs start).toOption.map Prod.snd

theorem exists_of_firedAt {crontabs : List Crontab} {start : ℤ} {fired : List (String × Instant)}
    (h : firedAt crontabs start = some fired) : ∃ s, backfillAt crontabs start = .ok s ∧ s.2 = fired := by
  obtain ⟨s,hs,rfl⟩ := Option.map_eq_some_iff.mp h
  cases hb : backfillAt crontabs start with
  | error e =>
    rw [hb] at hs
    cases hs
  | ok =>
    rw [hb] at hs
    cases hs
    exact ⟨s,rfl,rfl⟩

theorem inside_minute_independent : ∃ s₁ s₂, backfillAt [minuteEntry "a" 1] 630 = .ok s₁ ∧
    backfillAt [minuteEntry "a" 1,minuteEntry "b" 2] 630 = .ok s₂ ∧
    s₂.2 = [("b",540 * oneSecond),("a",600 * oneSecond),("b",600 * oneSecond)] ∧
    ∀ t, ("a",t) ∈ s₁.2 ↔ ("a",t) ∈ s₂.2 := by
  have halone : firedAt [minuteEntry "a" 1] 630 = some [("a",600 * oneSecond)] := by decide +kernel
  have hboth : firedAt [minuteEntry "a" 1,minuteEntry "b" 2] 630 =
      some [("b",540 * oneSecond),("a",600 * oneSecond),("b",600 * oneSecond)] := by decide +kernel
  obtain ⟨s₁,h₁,-⟩ := exists_of_firedAt halone
  obtain ⟨s₂,h₂,hf⟩ := exists_of_firedAt hboth
  refine ⟨s₁,s₂,h₁,h₂,hf,?_⟩
  have hfill : (minuteEntry "a" 1).options.fill = some ⟨0,0,0,1,0⟩ := rfl
  have hrow : (neverRun.known.find? fun k => k.identifier == (minuteEntry "a" 1).identifier) = some ⟨"a",0,none⟩ := rfl
  have hiff := backfill_independent (fun _ => "") 0 (630 * oneSecond) false hfill (by simp) (by simp)
    (by decide +kernel) (by decide +kernel) hrow hrow h₁ h₂
  refine hiff.mpr (.inr fun t hdue hedge => ?_)
  -- no whole minute is between 61 and 60 seconds old
  have hw := hdue.whole
  have hsecs : CrontabFill.toSecs ⟨0,0,0,1,0⟩ = 60 := rfl
  unfold OnEdge InWindow at hedge
  rw [hsecs] at hedge
  unfold WholeMinute at hw
  simp only [oneMinute,oneSecond] at hw hedge
  omega

/-- At 00:10 sharp the entry is backfilled for 00:09 only beside an entry with a larger window. -/
theorem whole_minute_depends : firedAt [minuteEntry "a" 1] 600 = some [] ∧
    firedAt [minuteEntry "a" 1,minuteEntry "b" 2] 600 = some [("a",540 * oneSecond),("b",540 * oneSecond)] := by
  decide +kernel

end GraphileWorker.Cron
