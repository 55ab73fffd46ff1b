import GraphileWorker.Cron.Cluster
import GraphileWorker.Foundation.Consecutive

/-! # Backfill and live ticks

In a zone with a fixed offset the two meet, unless the start is a whole minute: then neither
of them looks at that minute.
-/
namespace GraphileWorker.Cron
open Database Foundation

theorem oneMinute_pos : 0 < oneMinute := by decide

def floorMinute (o t : ℤ) : ℤ := t - (t + o) % oneMinute

theorem roundDateMinute_fixed (o t : ℤ) (up : Bool) :
    roundDateMinute (.fixed o) t up = some (if up then floorMinute o t + oneMinute else floorMinute o t) := by
  have hs := clear_seconds_nanoseconds (t + o)
  simp only [roundDateMinute,withSecond,withNanosecond,Zone.fromUtc,Zone.fromLocal,Zone.fixed,DateTime.naiveLocal,
    Option.bind_eq_bind,Option.bind_some,Option.pure_def,floorMinute]
  simp only [zero_mul,add_zero,sub_add_cancel,hs]
  have he : t + o - (t + o) % oneMinute - o = t - (t + o) % oneMinute := by omega
  rw [he]

def WholeMinute (o t : ℤ) : Prop := (t + o) % oneMinute = 0

instance (o t : ℤ) : Decidable (WholeMinute o t) := inferInstanceAs (Decidable (_ = _))

theorem wholeMinute_floor (o t : ℤ) : WholeMinute o (floorMinute o t) := by
  unfold WholeMinute floorMinute oneMinute oneSecond
  omega

variable {o : ℤ} {q : RunnerState}

theorem WholeMinute.add_steps {t : ℤ} (h : WholeMinute o t) (k : ℕ) : WholeMinute o (t + k * oneMinute) := by
  unfold WholeMinute at h ⊢
  have he : t + k * oneMinute + o = t + o + k * oneMinute := by ring
  rw [he,Int.add_mul_emod_self_right,h]

theorem WholeMinute.eq_ceil {t m : ℤ} (hm : WholeMinute o m) (ht : ¬WholeMinute o t) (h : t ≤ m)
    (h' : m - oneMinute < t) : m = floorMinute o t + oneMinute := by
  unfold WholeMinute floorMinute oneMinute oneSecond at *
  omega

theorem WholeMinute.le_sub {t m : ℤ} (hm : WholeMinute o m) (ht : WholeMinute o t) (h : m < t) :
    m ≤ t - oneMinute := by
  unfold WholeMinute oneMinute oneSecond at *
  omega

/-- The minutes that were examined for an entry: those within its window and not before its last execution. -/
def examinedFor (q : RunnerState) (fill : CrontabFill) (notBefore : Instant) : List Instant :=
  q.examined.filter (withinFill q.start fill notBefore)

/-- Where the program counter is among the minutes that were looked at: `mid` is
the next one of the backfill, `hi` the next tick. -/
def PcAt (q : RunnerState) (mid hi : ℤ) : RunnerPc → Prop
  | .reading start => start = q.start ∧ q.examined = [] ∧ q.ticked = []
  | .registering start _ _ => start = q.start ∧ q.examined = [] ∧ q.ticked = []
  | .backfilling start ts _ => start = q.start ∧ ts = mid ∧ q.ticked = []
  | .sleeping ts => ts = hi ∧ (q.examined ≠ [] → q.start ≤ mid)
  | _ => True

/-- The minutes that a runner has looked at since it started. -/
structure Looked (o : ℤ) (q : RunnerState) (lo mid hi : ℤ) : Prop where
  whole : WholeMinute o lo
  examined : Consecutive oneMinute lo q.examined mid
  ticked : Consecutive oneMinute (floorMinute o q.start + oneMinute) q.ticked hi
  before : q.examined ≠ [] → mid - oneMinute < q.start
  passed : q.ticked ≠ [] → q.examined ≠ [] → q.start ≤ mid
  pc : PcAt q mid hi q.pc

theorem Looked.fresh (he : q.examined = []) (ht : q.ticked = []) {lo : ℤ}
    (hw : WholeMinute o lo) (hpc : PcAt q lo (floorMinute o q.start + oneMinute) q.pc) :
    Looked o q lo lo (floorMinute o q.start + oneMinute) where
  whole := hw
  examined := by rw [he]; rfl
  ticked := by rw [ht]; rfl
  before h := absurd he h
  passed h := absurd ht h
  pc := hpc

theorem afterBackfill_fixed (o : ℤ) (start : Instant) :
    afterBackfill (.fixed o) start = .sleeping (floorMinute o start + oneMinute) := by
  simp [afterBackfill,roundDateMinute_fixed]

theorem looked_enterBackfill (he : q.examined = []) (ht : q.ticked = [])
    {items : List (Crontab × Instant)} (hpc : q.pc = enterBackfill (.fixed o) q.start items) :
    ∃ lo mid hi, Looked o q lo mid hi := by
  unfold enterBackfill at hpc
  split at hpc
  · rw [afterBackfill_fixed] at hpc
    refine ⟨_,_,_,.fresh he ht (wholeMinute_floor o q.start) ?_⟩
    rw [hpc]
    exact ⟨rfl,fun h => absurd he h⟩
  · rw [roundDateMinute_fixed] at hpc
    next secs _ =>
    have hw := (wholeMinute_floor o (q.start - secs * oneSecond)).add_steps 1
    refine ⟨_,_,_,.fresh he ht hw ?_⟩
    rw [hpc]
    exact ⟨rfl,by simp,ht⟩

theorem Looked.leave {lo mid hi : ℤ} (h : Looked o q lo mid hi) {pc : RunnerPc}
    (hpc : PcAt q mid hi pc) : Looked o { q with pc := pc } lo mid hi :=
  ⟨h.whole,h.examined,h.ticked,h.before,h.passed,by cases pc <;> exact hpc⟩

theorem Looked.move {crontabs : List Crontab} {q' : RunnerState} (hm : RunnerMove (.fixed o) crontabs q q')
    (h : ∃ lo mid hi, Looked o q lo mid hi) : ∃ lo mid hi, Looked o q' lo mid hi := by
  obtain ⟨lo,mid,hi,h⟩ := h
  have hpcAt := h.pc
  cases hm with
  | start now => exact ⟨_,_,_,.fresh rfl rfl (wholeMinute_floor o now) ⟨rfl,rfl,rfl⟩⟩
  | failed | panicked | retry => exact ⟨lo,mid,hi,h.leave trivial⟩
  | read start items unknown hp _ pc hpc =>
    rw [hp] at hpcAt
    obtain ⟨rfl,he,ht⟩ := hpcAt
    rcases hpc with rfl | rfl
    · exact looked_enterBackfill he ht rfl
    · exact ⟨_,_,_,.fresh (q := { q with pc := .registering q.start items unknown, items := items }) he ht h.whole
        ⟨rfl,he,ht⟩⟩
  | registered start items unknown hp =>
    rw [hp] at hpcAt
    obtain ⟨rfl,he,ht⟩ := hpcAt
    exact looked_enterBackfill he ht rfl
  | backfill start ts items hp hts pc hpc =>
    rw [hp] at hpcAt
    obtain ⟨rfl,rfl,ht⟩ := hpcAt
    refine ⟨lo,ts + oneMinute,hi,h.whole,h.examined.concat,h.ticked,fun _ => ?_,fun hn => absurd ht hn,?_⟩
    · simpa using hts
    · rcases hpc with rfl | rfl
      · exact ⟨rfl,rfl,ht⟩
      · trivial
  | backfilled start ts items hp hts =>
    rw [hp] at hpcAt
    obtain ⟨rfl,rfl,ht⟩ := hpcAt
    rw [afterBackfill_fixed]
    refine ⟨lo,ts,floorMinute o q.start + oneMinute,h.whole,h.examined,by rw [ht]; rfl,h.before,
      fun hn => absurd ht hn,rfl,fun _ => not_lt.mp hts⟩
  | tick ts hp pc hpc =>
    rw [hp] at hpcAt
    obtain ⟨rfl,hpassed⟩ := hpcAt
    refine ⟨lo,mid,ts + oneMinute,h.whole,h.examined,h.ticked.concat,h.before,fun _ => hpassed,?_⟩
    rcases hpc with rfl | rfl
    · exact ⟨rfl,hpassed⟩
    · trivial

section
variable {o : ℤ} {q : RunnerState} {lo mid hi : ℤ} {fill : CrontabFill} {notBefore : Instant}

theorem mem_toBackfill {z : Zone} {cfg : Config} {items : List (Crontab × Instant)} {start ts : Instant}
    {c : Crontab} : c ∈ toBackfill z cfg start items ts ↔ ∃ notBefore fill, (c,notBefore) ∈ items ∧
      c.options.fill = some fill ∧ withinFill start fill notBefore ts = true ∧
      c.shouldRunAt (calendarTime z cfg.useLocalTime ts) = true := by
  unfold toBackfill
  rw [List.mem_filterMap]
  constructor
  · rintro ⟨⟨d,notBefore⟩,hd,h⟩
    obtain ⟨fill,hf,h⟩ := Option.bind_eq_some_iff.mp h
    split at h
    · next hc =>
      cases h
      exact ⟨notBefore,fill,hd,hf,Bool.and_eq_true_iff.mp hc⟩
    · cases h
  · rintro ⟨notBefore,fill,hm,hf,hc⟩
    refine ⟨(c,notBefore),hm,Option.bind_eq_some_iff.mpr ⟨fill,hf,?_⟩⟩
    rw [if_pos (Bool.and_eq_true_iff.mpr hc)]

theorem withinFill_iff {start ts : Instant} : withinFill start fill notBefore ts = true ↔
    (start - ts).tdiv oneSecond ≤ fill.toSecs ∧ notBefore ≤ ts := by
  simp [withinFill]

theorem withinFill_upward (start : Instant) (fill : CrontabFill) (notBefore a b : ℤ) (hab : a ≤ b)
    (ha : withinFill start fill notBefore a = true) : withinFill start fill notBefore b = true := by
  rw [withinFill_iff] at ha ⊢
  have hdiv : (start - b).tdiv oneSecond ≤ (start - a).tdiv oneSecond := Int.tdiv_le_tdiv (by decide) (by omega)
  exact ⟨hdiv.trans ha.1,ha.2.trans hab⟩

theorem examinedFor_eq_nil (h : Looked o q lo mid hi) (hs : WholeMinute o q.start) (hf : fill.toSecs < 60) :
    examinedFor q fill notBefore = [] := by
  refine List.filter_eq_nil_iff.mpr fun t ht => ?_
  obtain ⟨k,hk⟩ := h.examined.mem_steps ht
  have hw : WholeMinute o t := by
    rw [hk]
    exact h.whole.add_steps k
  have hlt : t < q.start := by
    have hend := (h.examined.mem_bounds oneMinute_pos ht).2
    exact (le_sub_iff_add_le.mpr hend).trans_lt (h.before (List.ne_nil_of_mem ht))
  have hle := hw.le_sub hs hlt
  have hdiv : (60 : ℤ) ≤ (q.start - t).tdiv oneSecond := by
    have hm : oneMinute.tdiv oneSecond ≤ (q.start - t).tdiv oneSecond := Int.tdiv_le_tdiv (by decide) (by omega)
    exact hm
  rw [withinFill_iff]
  omega

theorem Looked.tiles (h : Looked o q lo mid hi) (hc : ¬WholeMinute o q.start ∨ fill.toSecs < 60) :
    ∃ first last, WholeMinute o first ∧
      Consecutive oneMinute first (examinedFor q fill notBefore ++ q.ticked) last := by
  obtain ⟨k,hk⟩ := h.examined.filter oneMinute_pos (withinFill_upward q.start fill notBefore)
  have hw := h.whole.add_steps k
  by_cases he : examinedFor q fill notBefore = []
  · rw [he]
    exact ⟨_,hi,(wholeMinute_floor o q.start).add_steps 1,by simpa using h.ticked⟩
  · by_cases ht : q.ticked = []
    · rw [ht,List.append_nil]
      exact ⟨_,mid,hw,hk⟩
    · -- both loops ran: the backfill stopped at the first whole minute from the start on
      have hn : q.examined ≠ [] := by
        rintro hq
        exact he (by rw [examinedFor,hq]; rfl)
      have hs : ¬WholeMinute o q.start := by
        intro hs
        exact he (examinedFor_eq_nil h hs (hc.resolve_left (not_not_intro hs)))
      obtain ⟨m,hm⟩ := h.examined.exists_steps
      have hmid : WholeMinute o mid := by
        rw [hm]
        exact h.whole.add_steps m
      have hmeet := hmid.eq_ceil hs (h.passed ht hn) (h.before hn)
      refine ⟨_,hi,hw,hk.append ?_⟩
      rw [hmeet]
      exact h.ticked

theorem Looked.start_not_mem (h : Looked o q lo mid hi) (hs : WholeMinute o q.start) :
    q.start ∉ q.examined ++ q.ticked := by
  intro hm
  rcases List.mem_append.mp hm with hm | hm
  · have hend := (h.examined.mem_bounds oneMinute_pos hm).2
    have hbefore := h.before (List.ne_nil_of_mem hm)
    omega
  · have hfirst := (h.ticked.mem_bounds oneMinute_pos hm).1
    have hfloor : floorMinute o q.start = q.start := by
      unfold floorMinute
      rw [hs,sub_zero]
    have hpos := oneMinute_pos
    omega

end

/-- The minutes examined for an entry, followed by the ticks, are consecutive, provided that the start is
inside a minute or the window is shorter than one. -/
theorem backfill_and_ticks_tile {R : Type} [DecidableEq R] (debugText : Instant → String) (o : R → ℤ)
    (cfg : R → Config) (store : Store) {s : Cluster R}
    (h : Reaches (clusterStep debugText (fun r => .fixed (o r)) cfg) (fun _ _ => True) { store := store } s) (r : R) :
    (∀ item ∈ (s.runners r).items, ∀ fill ∈ item.1.options.fill,
      ¬WholeMinute (o r) (s.runners r).start ∨ fill.toSecs < 60 →
      ∃ first last, WholeMinute (o r) first ∧
        Consecutive oneMinute first (examinedFor (s.runners r) fill item.2 ++ (s.runners r).ticked) last ∧
        (examinedFor (s.runners r) fill item.2 ++ (s.runners r).ticked).Nodup) ∧
    (WholeMinute (o r) (s.runners r).start → (s.runners r).start ∉ (s.runners r).examined ++ (s.runners r).ticked) := by
  have hlooked : ∀ r, ∃ lo mid hi, Looked (o r) (s.runners r) lo mid hi :=
    h.invariant (I := fun s => ∀ r, ∃ lo mid hi, Looked (o r) (s.runners r) lo mid hi)
      (fun _ _ _ _ he hi => clusterStep_runners (I := fun r q => ∃ lo mid hi, Looked (o r) q lo mid hi)
        (fun _ _ _ hm hq => Looked.move hm hq) he hi)
      (fun r => ⟨_,_,_,.fresh (q := {}) rfl rfl (wholeMinute_floor (o r) 0) trivial⟩)
  obtain ⟨lo,mid,hi,hl⟩ := hlooked r
  refine ⟨fun item _ fill _ hc => ?_,hl.start_not_mem⟩
  obtain ⟨first,last,hw,ht⟩ := hl.tiles hc
  exact ⟨first,last,hw,ht,ht.nodup oneMinute_pos⟩

def twoMinuteFill : Crontab where
  taskIdentifier := "task"
  options := { fill := some ⟨0,0,0,2,0⟩ }

/-- A runner that starts at this second, finds the entry last executed at the
epoch, backfills and ticks once. -/
def startAt (seconds rounds : ℕ) : Option (Cluster Unit) :=
  exec (clusterStep (fun _ => "") (fun _ => .fixed 0) fun _ => ⟨[twoMinuteFill],false⟩) (fun _ _ => True)
    { store := ⟨.empty,[⟨"task",0,some 0⟩]⟩ }
    ([.runner () (.start (seconds * oneSecond)),.runner () (.read true)] ++
      List.replicate (rounds + 1) (.runner () (.backfill 0 .answered)) ++
      [.runner () (.wake (660 * oneSecond) 0 .answered)])

/-- When the runner started, which entries it backfills, the minutes it has
looked at for the only one of them, and what was fired. -/
def lookedAt (seconds rounds : ℕ) :
    Option (Instant × List (Option CrontabFill × Instant) × List Instant × List Instant) :=
  (startAt seconds rounds).map fun s =>
    ((s.runners ()).start,(s.runners ()).items.map (fun i => (i.1.options.fill,i.2)),
      examinedFor (s.runners ()) ⟨0,0,0,2,0⟩ 0 ++ (s.runners ()).ticked,s.fired.map Prod.snd)

theorem exists_run_of_lookedAt {seconds rounds : ℕ} {start notBefore : Instant} {fill : CrontabFill}
    {minutes fired : List Instant} (h : lookedAt seconds rounds = some (start,[(some fill,notBefore)],minutes,fired)) :
    ∃ s, startAt seconds rounds = some s ∧ (s.runners ()).start = start ∧
      (∃ item ∈ (s.runners ()).items, fill ∈ item.1.options.fill ∧ item.2 = notBefore) ∧
      examinedFor (s.runners ()) ⟨0,0,0,2,0⟩ 0 ++ (s.runners ()).ticked = minutes ∧ s.fired.map Prod.snd = fired := by
  obtain ⟨s,hs,he⟩ := Option.map_eq_some_iff.mp h
  simp only [Prod.mk.injEq] at he
  obtain ⟨hstart,hitems,hminutes,hfired⟩ := he
  obtain ⟨item,hi,hp⟩ := List.map_eq_singleton_iff.mp hitems
  obtain ⟨hfill,hb⟩ := Prod.mk.inj hp
  exact ⟨s,hs,hstart,⟨item,by rw [hi]; exact List.mem_singleton_self item,hfill,hb⟩,hminutes,hfired⟩

theorem start_inside_minute_tiles : ∃ s, startAt 610 2 = some s ∧
    examinedFor (s.runners ()) ⟨0,0,0,2,0⟩ 0 ++ (s.runners ()).ticked =
      [540 * oneSecond,600 * oneSecond,660 * oneSecond] ∧
    ∃ first last, WholeMinute 0 first ∧
      Consecutive oneMinute first (examinedFor (s.runners ()) ⟨0,0,0,2,0⟩ 0 ++ (s.runners ()).ticked) last ∧
      (examinedFor (s.runners ()) ⟨0,0,0,2,0⟩ 0 ++ (s.runners ()).ticked).Nodup := by
  have hl : lookedAt 610 2 = some (610 * oneSecond,[(some ⟨0,0,0,2,0⟩,0)],
      [540 * oneSecond,600 * oneSecond,660 * oneSecond],[540 * oneSecond,600 * oneSecond,660 * oneSecond]) := by
    decide +kernel
  obtain ⟨s,hs,hstart,⟨item,hi,hfill,hb⟩,hminutes,-⟩ := exists_run_of_lookedAt hl
  refine ⟨s,hs,hminutes,?_⟩
  have ht := (backfill_and_ticks_tile (fun _ => "") (fun _ => 0) (fun _ => ⟨[twoMinuteFill],false⟩)
    ⟨.empty,[⟨"task",0,some 0⟩]⟩ (reaches_exec hs) ()).1 item hi _ hfill (.inl (by rw [hstart]; decide))
  rwa [hb] at ht

/-- Nothing fires at the start itself, which the window contains. -/
theorem start_on_minute_skips_it : ∃ s, startAt 600 1 = some s ∧ (s.runners ()).start = 600 * oneSecond ∧
    (∃ item ∈ (s.runners ()).items, (⟨0,0,0,2,0⟩ : CrontabFill) ∈ item.1.options.fill ∧ item.2 = 0) ∧
    examinedFor (s.runners ()) ⟨0,0,0,2,0⟩ 0 ++ (s.runners ()).ticked = [540 * oneSecond,660 * oneSecond] ∧
    s.fired.map Prod.snd = [540 * oneSecond,660 * oneSecond] ∧
    ¬∃ first last, Consecutive oneMinute first
      (examinedFor (s.runners ()) ⟨0,0,0,2,0⟩ 0 ++ (s.runners ()).ticked) last := by
  have hl : lookedAt 600 1 = some (600 * oneSecond,[(some ⟨0,0,0,2,0⟩,0)],
      [540 * oneSecond,660 * oneSecond],[540 * oneSecond,660 * oneSecond]) := by
    decide +kernel
  obtain ⟨s,hs,hstart,hitem,hminutes,hfired⟩ := exists_run_of_lookedAt hl
  refine ⟨s,hs,hstart,hitem,hminutes,hfired,?_⟩
  rintro ⟨first,last,ht⟩
  rw [hminutes] at ht
  obtain ⟨rfl,hnext,-⟩ := ht
  exact absurd hnext (by decide)

end GraphileWorker.Cron
