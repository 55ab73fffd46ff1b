import GraphileWorker.Maintenance.TransactionInvariant

/-! # Cleanup keeps the references of jobs

There are no foreign keys. A transaction looks up names under table locks that it holds to its
end, and a cleanup has its table for itself until it commits.
-/
namespace GraphileWorker.Maintenance
open Foundation Database

variable {s s' : Sys} {t u : TxId} {a b : Adding} {τ : NamedTable} {p : ℕ × String} {c : Collecting} {db : Db}
  {asked : JobId → Option String}

theorem Frame.of_committed (hc : s'.committed = s.committed)
    (hl : ∀ τ, u ∈ s.locks.rowExclusive τ → u ∈ s'.locks.rowExclusive τ)
    (hj : ∀ i, s.jobHolder i = some u → s'.jobHolder i = some u)
    (hn : ∀ k, s.nameHolder k = some u → s'.nameHolder k = some u) : Frame s s' u b where
  next := fun τ => by rw [hc]
  locks := hl
  jobs := hj
  names := hn
  stays := fun τ _ p hp => by rwa [hc]
  comes := fun τ p hp => .inl (by rwa [hc] at hp)
  rows := fun r hr _ => ⟨r,by rwa [hc],rfl,fun _ => rfl⟩

theorem CollectFrame.of_jobs (hc : s'.committed.jobs.rows = s.committed.jobs.rows)
    (hl : ∀ τ, s.locks.shareRowExclusive τ = some u → s'.locks.shareRowExclusive τ = some u) :
    CollectFrame s s' u where
  locks := hl
  refs := fun τ _ r hr i hi => ⟨r,by rwa [hc] at hr,hi⟩

theorem Inv.setTx (h : Inv s) {x : OpenTx} (hself : ∀ a, x = .adding a → AddInv (s.setTx t x) t a ∧
      ∀ u b, u ≠ t → s.tx u = some (.adding b) → ∀ τ, ∀ i ∈ a.written.of τ, i ∉ b.written.of τ)
    (hselfc : ∀ c, x = .collecting c → CollectInv (s.setTx t x) t c) : Inv (s.setTx t x) := by
  have htx : (s.setTx t x).tx t = some x := Function.update_self ..
  refine h.step t h.intact h.exclusive (fun u hu => Function.update_of_ne hu ..) (fun u b _ _ => ?_)
    (fun u c _ _ => ?_) (fun a ha => ?_) fun c hc => ?_
  · exact .of_committed rfl (fun _ h => h) (fun _ h => h) fun _ h => h
  · exact .of_jobs rfl fun _ h => h
  · exact hself a (Option.some.inj (htx.symm.trans ha))
  · exact hselfc c (Option.some.inj (htx.symm.trans hc))

theorem of_nil {τ : NamedTable} {i : ℕ} : i ∉ ({} : Written).of τ := by
  cases τ <;> exact List.not_mem_nil

theorem inv_beganAdd (h : Inv s) (now : Time) : Inv (s.setTx t (.adding { now := now, mine := s.committed })) := by
  refine h.setTx (fun a ha => ?_) nofun
  cases ha
  refine ⟨⟨fun _ => le_refl _,fun _ i hi => absurd hi of_nil,fun _ _ _ => of_nil,nofun,
    fun _ p _ hw => absurd hw of_nil,fun _ p _ hw => absurd hw of_nil,fun i hi => absurd rfl hi,
    fun r _ hw => absurd hw List.not_mem_nil,{},Pledge.holds_nil _ _ _,trivial⟩,?_⟩
  exact fun _ _ _ _ _ i hi => absurd hi of_nil

theorem inv_called (h : Inv s) (ht : s.tx t = some (.adding a)) {call : AddCall} {statements : List AddStatement}
    (hc : call.statements = .ok statements) : Inv (s.setTx t (.adding { a with todo := statements })) := by
  refine h.setTx (fun b hb => ?_) nofun
  cases hb
  have hi := h.adding t a ht
  have hrows : ∀ r ∈ a.mine.jobs.rows, r.id ∈ a.written.jobs →
      Pending (s.setTx t (.adding { a with todo := statements })) t { a with todo := statements } r := by
    intro r hr hw
    cases hi.rows r hr hw with
    | kept hmem hid href hasked => exact .kept hmem hid href hasked
    | added hasked hlock htask hnone hsome => exact .added hasked hlock htask hnone hsome
  exact ⟨⟨hi.next,hi.drawn,hi.fresh,hi.held,hi.names,hi.unseen,hi.asked,hrows,{},Pledge.holds_nil _ _ _,
    Pledge.covers_statements hc⟩,fun u b hu hb => h.apart t u a b (Ne.symm hu) ht hb⟩

theorem inv_beganCleanup (h : Inv s) (table : NamedTable) (keep : List String) :
    Inv (s.setTx t (.collecting { table := table, taskIdentifiersToKeep := keep })) := by
  refine h.setTx nofun fun c hc => ?_
  cases hc
  exact ⟨fun hp => absurd rfl hp,nofun⟩

theorem inv_deleted (h : Inv s) (ht : s.tx t = some (.collecting c)) (hp : c.phase = .locked) :
    Inv (s.setTx t (.collecting
      { c with phase := .deleted (unusedIds s.committed c.taskIdentifiersToKeep c.table) })) := by
  refine h.setTx nofun fun c' hc => ?_
  cases hc
  refine ⟨fun _ => (h.collecting t c ht).locked (by rw [hp]; exact nofun),fun ids hids r hr i hi => ?_⟩
  cases hids
  exact ref_unusedIds hr hi

theorem inv_lockedTable (h : Inv s) (hlock : s.locks.admitsShare t c.table = true) :
    Inv { s.setTx t (.collecting { c with phase := .locked }) with locks := s.locks.takeShare t c.table } := by
  have htx : (s.setTx t (.collecting { c with phase := .locked })).tx t = some (.collecting { c with phase := .locked }) :=
    Function.update_self ..
  refine h.step t h.intact (TableLocks.exclusive_takeShare h.exclusive hlock) (fun u hu => Function.update_of_ne hu ..)
    (fun u b _ _ => ?_) (fun u c' _ _ => ?_) (fun a ha => ?_) fun c' hc => ?_
  · exact .of_committed rfl (fun _ h => h) (fun _ h => h) fun _ h => h
  · exact .of_jobs rfl fun τ hτ => TableLocks.share_takeShare hlock hτ
  · cases htx.symm.trans ha
  · cases htx.symm.trans hc
    exact ⟨fun _ => Function.update_self ..,nofun⟩

section Executed
variable {st : AddStatement} {rest : List AddStatement} {c : Change} {pledge : Pledge}

theorem view_after (hi : AddInv s t a) (hg : Grows (s.view a) st c) :
    p ∈ entries ((s.perform t a st c rest).view (a.after c rest)) τ ↔ p ∈ entries c.db τ := by
  have hgrow := hg.entries τ
  refine mem_entries_overlay.trans ?_
  show (p.1 ∉ (a.written.append c.written).of τ ∧ p ∈ entries (advance s.committed c.db) τ) ∨
    (p.1 ∈ (a.written.append c.written).of τ ∧ p ∈ entries c.db τ) ↔ _
  rw [Written.mem_append,entries_advance]
  constructor
  · rintro (⟨_,hp⟩ | ⟨_,hp⟩)
    · exact hgrow.old p (hi.view_of_committed hp)
    · exact hp
  · intro hp
    by_cases hw : p.1 ∈ a.written.of τ ∨ p.1 ∈ c.written.of τ
    · exact .inr ⟨hw,hp⟩
    · have hold := (hgrow.new p hp).resolve_right fun h => hw (.inr h)
      rcases mem_entries_overlay.mp hold with ⟨_,hcom⟩ | ⟨hmine,_⟩
      · exact .inl ⟨hw,hcom⟩
      · exact absurd (.inl hmine) hw

theorem own_of_after (hg : Grows (s.view a) st c) (hp : p ∈ entries c.db τ) (hw : p.1 ∈ a.written.of τ)
    (hn : p.1 ∉ c.written.of τ) : p ∈ entries a.mine τ := by
  have hold := ((hg.entries τ).new p hp).resolve_right hn
  rcases mem_entries_overlay.mp hold with ⟨hnot,_⟩ | ⟨_,hmine⟩
  · exact absurd hw hnot
  · exact hmine

theorem mem_lockedFor {o : Option NamedTable} : u ∈ (s.lockedFor t o).rowExclusive τ ↔
    (o = some τ ∧ u = t) ∨ u ∈ s.locks.rowExclusive τ := by
  cases o with
  | none => simp [Sys.lockedFor]
  | some σ =>
    rw [Sys.lockedFor,TableLocks.mem_takeRow]
    simp [eq_comm]

theorem mem_allNames (hp : p ∈ entries c.db τ) (hw : p.1 ∈ c.written.of τ) : (τ,p.2) ∈ c.allNames := by
  have hname : p.2 ∈ c.names τ := List.mem_map_of_mem (List.mem_filter.mpr ⟨hp,List.contains_iff_mem.mpr hw⟩)
  cases τ with
  | tasks => exact List.mem_append_left _ (List.mem_map_of_mem hname)
  | jobQueues => exact List.mem_append_right _ (List.mem_map_of_mem hname)

theorem holds_after (hi : AddInv s t a) (hrun : st.run (s.view a) a.now = .ok c)
    (hp : pledge.Holds s t a) : (pledge.after st).Holds (s.perform t a st c rest) t (a.after c rest) := by
  have hg := st.grows hrun
  have hlocks : ∀ τ, t ∈ s.locks.rowExclusive τ → t ∈ (s.perform t a st c rest).locks.rowExclusive τ :=
    fun τ h => mem_lockedFor.mpr (.inr h)
  have hqueues : ∀ xs, pledge.queues = some xs →
      t ∈ (s.perform t a st c rest).locks.rowExclusive .jobQueues ∧ ∀ x ∈ xs,
        ∃ i, (i,x) ∈ entries ((s.perform t a st c rest).view (a.after c rest)) .jobQueues := by
    intro xs hxs
    obtain ⟨hl,hx⟩ := hp.queues xs hxs
    refine ⟨hlocks _ hl,fun x hmem => ?_⟩
    obtain ⟨i,hentry⟩ := hx x hmem
    exact ⟨i,(view_after hi hg).mpr ((hg.entries .jobQueues).old _ hentry)⟩
  cases st with
  | insertTasks identifiers => exact ⟨fun _ => mem_lockedFor.mpr (.inl ⟨rfl,rfl⟩),hqueues⟩
  | insertQueues queueNames =>
    refine ⟨fun h => hlocks _ (hp.tasks h),fun xs hxs => ?_⟩
    cases hxs
    refine ⟨mem_lockedFor.mpr (.inl ⟨rfl,rfl⟩),fun x hmem => ?_⟩
    obtain ⟨i,hentry⟩ := entry_insertQueues hrun hmem
    exact ⟨i,(view_after hi hg).mpr hentry⟩
  | retireKeyed specs => exact ⟨fun h => hlocks _ (hp.tasks h),hqueues⟩
  | insertJobs specs preserve required => exact ⟨fun h => hlocks _ (hp.tasks h),hqueues⟩
  | insertDeduped spec => exact ⟨fun h => hlocks _ (hp.tasks h),hqueues⟩

theorem pending_after (hi : AddInv s t a) (hg : Grows (s.view a) st c) (hp : pledge.Holds s t a)
    (hprep : pledge.Prepares st.specs) {r : Job} (hr : r ∈ c.db.jobs.rows) :
    Pending (s.perform t a st c rest) t (a.after c rest) r := by
  have hlocks : ∀ τ, t ∈ s.locks.rowExclusive τ → t ∈ (s.perform t a st c rest).locks.rowExclusive τ :=
    fun τ h => mem_lockedFor.mpr (.inr h)
  have hseen : ∀ τ p, p ∈ entries (s.view a) τ →
      p ∈ entries ((s.perform t a st c rest).view (a.after c rest)) τ :=
    fun τ p h => (view_after hi hg).mpr ((hg.entries τ).old p h)
  -- a row with the references of one that the transaction saw, and not added by the statement
  have hold : ∀ r₀ ∈ (s.view a).jobs.rows, r₀.id = r.id → (∀ τ, ref r τ = ref r₀ τ) → c.asked r.id = none →
      Pending (s.perform t a st c rest) t (a.after c rest) r := by
    intro r₀ hr₀ hid href hasked
    have hrecord : (a.after c rest).asked r.id = a.asked r.id := by simp [Adding.after,hasked]
    rcases mem_jobs_overlay.mp hr₀ with ⟨hnot,hcom⟩ | ⟨hmine,hr₀⟩
    · refine .kept hcom hid href (hrecord.trans (not_not.mp fun hn => hnot ?_))
      exact hid ▸ hi.asked r.id hn
    · cases hi.rows r₀ hr₀ hmine with
      | kept hmem hid' href' hasked' =>
        refine .kept hmem (hid'.trans hid) (fun τ => (href τ).trans (href' τ)) (hrecord.trans (hid ▸ hasked'))
      | added hasked' hlock htask hnone hsome =>
        have htasks : r.taskId = r₀.taskId := Option.some.inj (href .tasks)
        have hqueue : r.jobQueueId = r₀.jobQueueId := href .jobQueues
        refine .added (hrecord.trans (hid ▸ hasked')) (hlocks _ hlock) ?_ (fun hq => hqueue.trans (hnone hq))
          fun x hx => ?_
        · obtain ⟨x,hx⟩ := htask
          exact ⟨x,htasks ▸ hseen _ _ hx⟩
        · obtain ⟨hl,i,hi',hentry⟩ := hsome x hx
          exact ⟨hlocks _ hl,i,hqueue.trans hi',hseen _ _ hentry⟩
  by_cases hcw : r.id ∈ c.written.jobs
  · cases hg.touched r hr hcw with
    | kept hmem hid href hasked => exact hold _ hmem hid href hasked
    | @added spec hspec hasked htask hqueue =>
      have hrecord : (a.after c rest).asked r.id = some spec.queueName := by simp [Adding.after,hasked]
      refine .added hrecord (hlocks _ (hp.tasks (hprep.tasks spec hspec)))
        ⟨spec.identifier,hseen _ _ (mem_entries_of_taskIdOf htask)⟩ (fun hn => ?_) fun x hx => ?_
      · rw [hqueue,hn,Option.bind_none]
      · obtain ⟨xs,hxs,hmem⟩ := hprep.queues spec hspec x hx
        obtain ⟨hl,hentries⟩ := hp.queues xs hxs
        obtain ⟨i,hfound,hentry⟩ := exists_queueIdOf (hentries x hmem)
        refine ⟨hlocks _ hl,i,?_,hseen _ _ hentry⟩
        rw [hqueue,hx,Option.bind_some,hfound]
  · have hcasked : c.asked r.id = none := not_not.mp fun hn => hcw (hg.asked r.id hn)
    exact hold r (hg.untouched r hr hcw) rfl (fun _ => rfl) hcasked

theorem addInv_after (hi : AddInv s t a) (htodo : a.todo = st :: rest) (hrun : st.run (s.view a) a.now = .ok c)
    (hfree : s.unopposed t c = true) : AddInv (s.perform t a st c rest) t (a.after c rest) := by
  have hg := st.grows hrun
  obtain ⟨hfree,_⟩ := Bool.and_eq_true_iff.mp hfree
  obtain ⟨hfreej,hfreen⟩ := Bool.and_eq_true_iff.mp hfree
  obtain ⟨pledge,hp,hcovers⟩ := hi.ready
  rw [htodo] at hcovers
  have hnext : ∀ τ, nextOf (s.perform t a st c rest).committed τ = max (nextOf s.committed τ) (nextOf c.db τ) :=
    fun τ => nextOf_advance
  have hfresh : ∀ τ, ∀ i ∈ c.written.of τ, nextOf s.committed τ ≤ i := by
    intro τ i hw
    exact hi.nextOf_view ▸ ((hg.entries τ).fresh i hw).1
  constructor
  · intro τ
    rw [hnext]
    exact le_max_right _ _
  · intro τ i hw
    rw [hnext]
    rcases Written.mem_append.mp hw with hw | hw
    · exact (hi.drawn τ i hw).trans_le (le_max_left _ _)
    · exact ((hg.entries τ).fresh i hw).2.trans_le (le_max_right _ _)
  · intro τ p hp hw
    have hsame : entries (advance s.committed c.db) τ = entries s.committed τ := entries_advance
    have hcom : p ∈ entries s.committed τ := hsame ▸ hp
    rcases Written.mem_append.mp hw with hw | hw
    · exact hi.fresh τ p hcom hw
    · exact absurd (lt_nextOf hcom) (Nat.not_lt.mpr (hfresh τ p.1 hw))
  · intro i hw
    rcases List.mem_append.mp hw with hw | hw
    · exact seize_of_held hfreej (hi.held i hw)
    · exact seize_of_mem hw
  · intro τ p hp hw
    by_cases hcw : p.1 ∈ c.written.of τ
    · exact seize_of_mem (mem_allNames hp hcw)
    · have haw := (Written.mem_append.mp hw).resolve_right hcw
      exact seize_of_held hfreen (hi.names τ p (own_of_after hg hp haw hcw) haw)
  · intro τ p hp hw q hq he
    have hq' : q ∈ entries c.db τ := (view_after hi hg).mp hq
    by_cases hcw : p.1 ∈ c.written.of τ
    · exact (hg.entries τ).unseen p hp hcw q hq' he
    · by_cases hqw : q.1 ∈ c.written.of τ
      · exact ((hg.entries τ).unseen q hq' hqw p hp he.symm).symm
      · -- both entries are of before
        have haw := (Written.mem_append.mp hw).resolve_right hcw
        have hold := ((hg.entries τ).new q hq').resolve_right hqw
        exact hi.unseen τ p (own_of_after hg hp haw hcw) haw q hold he
  · intro i hn
    show i ∈ a.written.jobs ++ c.written.jobs
    rw [List.mem_append]
    by_cases hc : c.asked i = none
    · refine .inl (hi.asked i fun ha => hn ?_)
      simp [Adding.after,hc,ha]
    · exact .inr (hg.asked i hc)
  · exact fun r hr _ => pending_after hi hg hp hcovers.1 hr
  · exact ⟨pledge.after st,holds_after hi hrun hp,hcovers.2⟩

theorem inv_executed (h : Inv s) (ht : s.tx t = some (.adding a)) (htodo : a.todo = st :: rest)
    (hlock : s.admits t st = true) (hrun : st.run (s.view a) a.now = .ok c) (hfree : s.unopposed t c = true) :
    Inv (s.perform t a st c rest) := by
  have hi := h.adding t a ht
  have hg := st.grows hrun
  have htx : (s.perform t a st c rest).tx t = some (.adding (a.after c rest)) := Function.update_self ..
  have hcom : ∀ τ, entries (s.perform t a st c rest).committed τ = entries s.committed τ := fun τ => entries_advance
  obtain ⟨hfree',_⟩ := Bool.and_eq_true_iff.mp hfree
  obtain ⟨hfreej,hfreen⟩ := Bool.and_eq_true_iff.mp hfree'
  refine h.step t ⟨fun r hr τ i href => ?_,fun r hr x hx => ?_,fun τ => ?_⟩ ?_ (fun u hu => Function.update_of_ne hu ..)
    (fun u b hu hb => ?_) (fun u c' _ _ => ?_) (fun b hb => ?_) fun c' hc' => ?_
  · rw [hcom]
    exact h.intact.refs r hr τ i href
  · rw [hcom]
    exact h.intact.asked r hr x hx
  · rw [hcom]
    exact h.intact.unique τ
  · show (s.lockedFor t st.table).Exclusive
    cases htable : st.table with
    | none => exact h.exclusive
    | some σ =>
      rw [Sys.admits,htable] at hlock
      exact TableLocks.exclusive_takeRow h.exclusive hlock
  · refine ⟨fun τ => ?_,fun τ hτ => mem_lockedFor.mpr (.inr hτ),fun i hi => seize_of_held hfreej hi,
      fun k hk => seize_of_held hfreen hk,fun τ _ p hp => ?_,fun τ p hp => ?_,fun r hr _ => ⟨r,hr,rfl,fun _ => rfl⟩⟩
    · exact (le_max_left _ _).trans nextOf_advance.ge
    · rwa [hcom]
    · exact .inl (hcom τ ▸ hp)
  · refine .of_jobs rfl fun τ hτ => ?_
    show (s.lockedFor t st.table).shareRowExclusive τ = some u
    cases st.table with
    | none => exact hτ
    | some σ => exact hτ
  · cases htx.symm.trans hb
    refine ⟨addInv_after hi htodo hrun hfree,fun u b hu hb τ i hw => ?_⟩
    rcases Written.mem_append.mp hw with hw | hw
    · exact h.apart t u a b (Ne.symm hu) ht hb τ i hw
    · -- identities that the statement has drawn are above all others
      intro hbw
      have hlt := (h.adding u b hb).drawn τ i hbw
      have hge : nextOf s.committed τ ≤ i := hi.nextOf_view ▸ ((hg.entries τ).fresh i hw).1
      exact absurd hlt (Nat.not_lt.mpr hge)
  · cases htx.symm.trans hc'

end Executed

theorem Inv.finish (h : Inv s) (hintact : Intact db asked)
    (hadd : ∀ u b, u ≠ t → s.tx u = some (.adding b) → Frame s (s.finish t db asked) u b)
    (hcol : ∀ u c, u ≠ t → s.tx u = some (.collecting c) → CollectFrame s (s.finish t db asked) u) :
    Inv (s.finish t db asked) := by
  have htx : (s.finish t db asked).tx t = none := Function.update_self ..
  refine h.step t hintact (TableLocks.exclusive_release h.exclusive) (fun u hu => Function.update_of_ne hu ..) hadd hcol
    (fun a ha => ?_) fun c hc => ?_
  · cases htx.symm.trans ha
  · cases htx.symm.trans hc

theorem inv_rolledBack (h : Inv s) : Inv (s.finish t s.committed s.asked) := by
  refine h.finish h.intact (fun u b hu _ => ?_) fun u c hu _ => ?_
  · exact .of_committed rfl (fun τ hτ => (TableLocks.mem_release hu).mpr hτ) (fun i hi => vacate_of_held hu hi)
      fun k hk => vacate_of_held hu hk
  · exact .of_jobs rfl fun τ hτ => TableLocks.share_release hu hτ

theorem intact_view (h : Inv s) (hi : AddInv s t a) : Intact (s.view a) (a.settled s.asked) := by
  refine ⟨fun r hr τ i href => ?_,fun r hr x hx => ?_,fun τ p hp q hq he => ?_⟩
  · rcases hi.ref_view hr href with ⟨r₀,hr₀,href₀⟩ | ⟨_,hentry⟩
    · obtain ⟨x,hx⟩ := h.intact.refs r₀ hr₀ τ i href₀
      exact ⟨x,hi.view_of_committed hx⟩
    · exact hentry
  · -- a committed row, or one with its references
    have hold : ∀ r₀ ∈ s.committed.jobs.rows, r₀.id = r.id → ref r .jobQueues = ref r₀ .jobQueues →
        a.asked r.id = none → ∃ i, r.jobQueueId = some i ∧ (i,x) ∈ entries (s.view a) .jobQueues := by
      intro r₀ hr₀ hid href hasked
      rw [Adding.settled,hasked,Option.getD_none,← hid] at hx
      obtain ⟨i,hq,hentry⟩ := h.intact.asked r₀ hr₀ x hx
      exact ⟨i,href.trans hq,hi.view_of_committed hentry⟩
    rcases mem_jobs_overlay.mp hr with ⟨hw,hr⟩ | ⟨hw,hr⟩
    · exact hold r hr rfl rfl (not_not.mp fun hn => hw (hi.asked r.id hn))
    · cases hi.rows r hr hw with
      | kept hmem hid href hasked => exact hold _ hmem hid (href .jobQueues) hasked
      | added hasked hlock htask hnone hsome =>
        rw [Adding.settled,hasked,Option.getD_some] at hx
        exact (hsome x hx).2
  · rcases mem_entries_overlay.mp hp with ⟨_,hp'⟩ | ⟨hpw,hp'⟩
    · rcases mem_entries_overlay.mp hq with ⟨_,hq'⟩ | ⟨hqw,hq'⟩
      · exact h.intact.unique τ p hp' q hq' he
      · exact (hi.unseen τ q hq' hqw p hp he.symm).symm
    · exact hi.unseen τ p hp' hpw q hq he

theorem inv_committedAdd (h : Inv s) (ht : s.tx t = some (.adding a)) :
    Inv (s.finish t (s.view a) (a.settled s.asked)) := by
  have hi := h.adding t a ht
  refine h.finish (intact_view h hi) (fun u b hu hb => ?_) fun u c hu _ => ?_
  · have hib := h.adding u b hb
    refine ⟨fun τ => hi.nextOf_view.ge,fun τ hτ => (TableLocks.mem_release hu).mpr hτ,
      fun i hi => vacate_of_held hu hi,fun k hk => vacate_of_held hu hk,fun τ _ p hp => hi.view_of_committed hp,
      fun τ p hp => ?_,fun r hr hheld => ⟨r,?_,rfl,fun _ => rfl⟩⟩
    · rcases mem_entries_overlay.mp hp with ⟨_,hp⟩ | ⟨hw,hp⟩
      · exact .inl hp
      · refine .inr ⟨h.apart t u a b (Ne.symm hu) ht hb τ p.1 hw,?_⟩
        rw [hi.names τ p hp hw]
        exact fun he => hu (Option.some.inj he).symm
    · refine mem_jobs_overlay.mpr (.inl ⟨fun hw => ?_,hr⟩)
      exact hu (Option.some.inj (hheld.symm.trans (hi.held r.id hw)))
  · refine ⟨fun τ hτ => TableLocks.share_release hu hτ,fun τ hτ r hr i href => ?_⟩
    rcases hi.ref_view hr href with hold | ⟨hlock,_⟩
    · exact hold
    · -- `t` could not have taken the lock
      exact absurd (h.exclusive τ u hτ t hlock).symm hu

theorem inv_committedCleanup (h : Inv s) {ids : List ℕ} (ht : s.tx t = some (.collecting c))
    (hp : c.phase = .deleted ids) : Inv (s.finish t (deleteEntries s.committed ids c.table) s.asked) := by
  have hi := h.collecting t c ht
  have hshare := hi.locked (by rw [hp]; exact nofun)
  -- an entry that a committed job refers to is not deleted
  have hkeep : ∀ r ∈ s.committed.jobs.rows, ∀ τ i x, ref r τ = some i → (i,x) ∈ entries s.committed τ →
      (i,x) ∈ entries (deleteEntries s.committed ids c.table) τ := by
    intro r hr τ i x href hx
    refine mem_entries_deleteEntries.mpr ⟨hx,?_⟩
    rintro rfl
    exact hi.unused ids hp r hr i href
  refine h.finish ⟨fun r hr τ i href => ?_,fun r hr x hx => ?_,fun τ p hp q hq he => ?_⟩ (fun u b hu _ => ?_)
    fun u c hu _ => ?_
  · rw [jobs_deleteEntries] at hr
    obtain ⟨x,hx⟩ := h.intact.refs r hr τ i href
    exact ⟨x,hkeep r hr τ i x href hx⟩
  · rw [jobs_deleteEntries] at hr
    obtain ⟨i,hq,hentry⟩ := h.intact.asked r hr x hx
    exact ⟨i,hq,hkeep r hr .jobQueues i x hq hentry⟩
  · exact h.intact.unique τ p (mem_entries_deleteEntries.mp hp).1 q (mem_entries_deleteEntries.mp hq).1 he
  · refine ⟨fun τ => nextOf_deleteEntries.ge,fun τ hτ => (TableLocks.mem_release hu).mpr hτ,
      fun i hi => vacate_of_held hu hi,fun k hk => vacate_of_held hu hk,fun τ hτ p hp => ?_,
      fun τ p hp => .inl (mem_entries_deleteEntries.mp hp).1,fun r hr _ => ⟨r,?_,rfl,fun _ => rfl⟩⟩
    · -- a transaction that writes the table excludes this one
      refine mem_entries_deleteEntries.mpr ⟨hp,?_⟩
      rintro rfl
      exact absurd (h.exclusive _ t hshare u hτ) hu
    · have hsame : (deleteEntries s.committed ids c.table).jobs = s.committed.jobs := jobs_deleteEntries
      exact hsame.symm ▸ hr
  · exact .of_jobs (congrArg IdTable.rows jobs_deleteEntries) fun τ hτ => TableLocks.share_release hu hτ

theorem rows_of_keepsHeld (h : s.keepsHeld db = true) {r : Job} (hr : r ∈ s.committed.jobs.rows)
    (hheld : s.jobHolder r.id = some t) : ∃ r' ∈ db.jobs.rows, r'.id = r.id ∧ ∀ τ, ref r' τ = ref r τ := by
  have hrow := List.all_eq_true.mp h r hr
  rw [hheld,Option.isNone_some,Bool.false_or,List.any_eq_true] at hrow
  obtain ⟨r',hr',he⟩ := hrow
  have hstamp := of_decide_eq_true he
  refine ⟨r',hr',congrArg Stamp.id hstamp,fun τ => ?_⟩
  cases τ with
  | tasks => exact congrArg (fun v => some v.taskId) hstamp
  | jobQueues => exact congrArg Stamp.jobQueueId hstamp

theorem inv_single (h : Inv s) {c : Single} (ha : c.adds = false) (hk : s.keepsHeld (c.run s.committed) = true) :
    Inv { s with committed := c.run s.committed } := by
  have htends := tends_single s.committed ha
  have hframe : ∀ u b, Frame s { s with committed := c.run s.committed } u b := by
    intro u b
    refine ⟨fun τ => (htends.next τ).ge,fun _ h => h,fun _ h => h,fun _ h => h,fun τ _ p hp => ?_,fun τ p hp => ?_,
      fun r hr hheld => rows_of_keepsHeld hk hr hheld⟩
    · rwa [htends.entries τ]
    · exact .inl (htends.entries τ ▸ hp)
  have hcol : ∀ u, CollectFrame s { s with committed := c.run s.committed } u := by
    intro u
    refine ⟨fun _ h => h,fun τ _ r' hr' i href => ?_⟩
    obtain ⟨r,hr,_,heq⟩ := htends.rows r' hr'
    exact ⟨r,hr,(heq τ).symm.trans href⟩
  refine ⟨⟨fun r' hr' τ i href => ?_,fun r' hr' x hx => ?_,fun τ => ?_⟩,h.exclusive,
    fun u b hu => (h.adding u b hu).frame (hframe u b),h.apart,fun u c hu => (h.collecting u c hu).frame (hcol u)⟩
  · obtain ⟨r,hr,_,heq⟩ := htends.rows r' hr'
    rw [htends.entries τ]
    exact h.intact.refs r hr τ i ((heq τ).symm.trans href)
  · obtain ⟨r,hr,hid,heq⟩ := htends.rows r' hr'
    obtain ⟨i,hq,hentry⟩ := h.intact.asked r hr x (hid ▸ hx)
    rw [htends.entries .jobQueues]
    exact ⟨i,(heq .jobQueues).trans hq,hentry⟩
  · rw [htends.entries τ]
    exact h.intact.unique τ

theorem inv_moves (h : Inv s) (hm : Moves s s') : Inv s' := by
  cases hm with
  | beganAdd ht => exact inv_beganAdd h _
  | called ht hc => exact inv_called h ht hc
  | executed ht htodo hlock hrun hfree => exact inv_executed h ht htodo hlock hrun hfree
  | beganCleanup ht => exact inv_beganCleanup h _ _
  | lockedTable ht hp hlock => exact inv_lockedTable h hlock
  | deleted ht hp => exact inv_deleted h ht hp
  | committedAdd ht => exact inv_committedAdd h ht
  | committedCleanup ht hp => exact inv_committedCleanup h ht hp
  | rolledBack => exact inv_rolledBack h
  | single ha hk => exact inv_single h ha hk

/-- What the tables promise without a foreign key; `asked` gives the queue name that a job
was last added with. -/
structure References (db : Db) (asked : JobId → Option String) : Prop where
  task : ∀ r ∈ db.jobs.rows, ∃ t ∈ db.tasks.rows, t.id = r.taskId
  queue : ∀ r ∈ db.jobs.rows, ∀ g, r.jobQueueId = some g → ∃ q ∈ db.jobQueues.rows, q.id = g
  named : ∀ r ∈ db.jobs.rows, ∀ x, asked r.id = some x → ∃ q ∈ db.jobQueues.rows, r.jobQueueId = some q.id ∧
    q.queueName = x ∧ ∀ q' ∈ db.jobQueues.rows, q'.queueName = x → q' = q

/-- The unique indexes of the two tables. -/
structure UniqueNames (db : Db) : Prop where
  tasks : (db.tasks.rows.map Task.identifier).Nodup
  queues : (db.jobQueues.rows.map JobQueue.queueName).Nodup

theorem intact_of_references (hn : UniqueNames db) (h : References db asked) : Intact db asked := by
  refine ⟨fun r hr τ i href => ?_,fun r hr x hx => ?_,fun τ p hp q hq he => ?_⟩
  · cases τ with
    | tasks =>
      obtain ⟨t,ht,hid⟩ := h.task r hr
      have hti : t.id = i := hid.trans (Option.some.inj href)
      exact ⟨t.identifier,List.mem_map.mpr ⟨t,ht,by rw [hti]⟩⟩
    | jobQueues =>
      obtain ⟨q,hq,hid⟩ := h.queue r hr i href
      exact ⟨q.queueName,List.mem_map.mpr ⟨q,hq,by rw [hid]⟩⟩
  · obtain ⟨q,hq,hid,hname,_⟩ := h.named r hr x hx
    exact ⟨q.id,hid,List.mem_map.mpr ⟨q,hq,by rw [hname]⟩⟩
  · cases τ with
    | tasks =>
      obtain ⟨t,ht,rfl⟩ := List.mem_map.mp hp
      obtain ⟨t',ht',rfl⟩ := List.mem_map.mp hq
      rw [List.inj_on_of_nodup_map hn.tasks ht' ht he]
    | jobQueues =>
      obtain ⟨g,hg,rfl⟩ := List.mem_map.mp hp
      obtain ⟨g',hg',rfl⟩ := List.mem_map.mp hq
      rw [List.inj_on_of_nodup_map hn.queues hg' hg he]

theorem Intact.references (h : Intact db asked) : References db asked := by
  refine ⟨fun r hr => ?_,fun r hr g hg => ?_,fun r hr x hx => ?_⟩
  · obtain ⟨x,hx⟩ := h.refs r hr .tasks r.taskId rfl
    obtain ⟨t,ht,he⟩ := List.mem_map.mp hx
    exact ⟨t,ht,congrArg Prod.fst he⟩
  · obtain ⟨x,hx⟩ := h.refs r hr .jobQueues g hg
    obtain ⟨q,hq,he⟩ := List.mem_map.mp hx
    exact ⟨q,hq,congrArg Prod.fst he⟩
  · obtain ⟨i,hi,hentry⟩ := h.asked r hr x hx
    obtain ⟨q,hq,he⟩ := List.mem_map.mp hentry
    have hid : q.id = i := congrArg Prod.fst he
    have hname : q.queueName = x := congrArg Prod.snd he
    refine ⟨q,hq,by rw [hid,hi],hname,fun q' hq' hname' => ?_⟩
    have hsame := h.unique .jobQueues _ (List.mem_map_of_mem hq) _ (List.mem_map_of_mem hq') (hname'.trans hname.symm)
    exact IdTable.eq_of_rowId hq' hq (congrArg Prod.fst hsame)

def Sys.start (db : Db) (asked : JobId → Option String) : Sys := { committed := db, asked := asked }

theorem inv_start (h : Intact db asked) : Inv (Sys.start db asked) where
  intact := h
  exclusive := nofun
  adding := nofun
  apart := nofun
  collecting := nofun

/-- Whatever the order of the statements, the references of every committed job are intact. -/
theorem cleanup_keeps_references {db : Db} {asked : JobId → Option String} {s : Sys} (hn : UniqueNames db)
    (hr : References db asked) (h : Reaches txStep (fun _ _ => True) (Sys.start db asked) s) :
    References s.committed s.asked := by
  have hinv : Inv s := by
    refine h.invariant (fun t action u _ hstep hi => ?_) (inv_start (intact_of_references hn hr))
    exact inv_moves hi (moves_of_txStep hstep)
  exact hinv.intact.references

def addToQueue : AddCall := .addJobs [⟨"send",none,some "mail",none,none,none,none,none⟩] false

/-- The queue is inserted and the cleanup of queues has begun. -/
def queueInserted : List TxAction :=
  [.beginCleanup 1 .jobQueues [],.beginAdd 2 0,.call 2 addToQueue,.execute 2,.execute 2]

def cleanedUp : List TxAction :=
  queueInserted ++ [.execute 2,.execute 2,.commit 2,.lockTable 1,.delete 1,.commit 1]

def runFromEmpty (actions : List TxAction) : Option Sys :=
  exec txStep (fun _ _ => True) (Sys.start Db.empty fun _ => none) actions

theorem cleanedUp_runs : (runFromEmpty cleanedUp).isSome = true := by decide

/-- The cleanup cannot lock the table while the new queue has no job yet. -/
theorem cleanup_waits_for_addition :
    ((runFromEmpty queueInserted).map fun s => (txStep s (.lockTable 1)).isNone) = some true ∧
      ∃ s, runFromEmpty cleanedUp = some s ∧ s.committed.jobs.rows.map (fun r => (r.id,r.jobQueueId)) = [(1,some 1)] ∧
        s.asked 1 = some "mail" ∧ References s.committed s.asked := by
  have hrun : runFromEmpty cleanedUp = some ((runFromEmpty cleanedUp).get cleanedUp_runs) :=
    (Option.some_get cleanedUp_runs).symm
  refine ⟨by decide,_,hrun,by decide,by decide,?_⟩
  have hnames : UniqueNames Db.empty := ⟨List.nodup_nil,List.nodup_nil⟩
  have hempty : References Db.empty fun _ => none :=
    ⟨fun r hr => absurd hr List.not_mem_nil,fun r hr => absurd hr List.not_mem_nil,
      fun r hr => absurd hr List.not_mem_nil⟩
  exact cleanup_keeps_references hnames hempty (reaches_exec hrun)

end GraphileWorker.Maintenance
