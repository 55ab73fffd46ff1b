import GraphileWorker.Maintenance.Entries
import GraphileWorker.Maintenance.StatementWrites

/-! # The invariant of additions and cleanups

A transaction holds the locks of the tables that the jobs it has added refer to, its entries
are its own, and no committed job refers to what a cleanup has deleted.
-/
namespace GraphileWorker.Maintenance
open Foundation Database

/-- Jobs refer to entries that exist, a job added with a queue name to the entry of that
name, and no two entries of a table have the same name. -/
structure Intact (db : Db) (asked : JobId → Option String) : Prop where
  refs : ∀ r ∈ db.jobs.rows, ∀ τ i, ref r τ = some i → ∃ x, (i,x) ∈ entries db τ
  asked : ∀ r ∈ db.jobs.rows, ∀ x, asked r.id = some x → ∃ i, r.jobQueueId = some i ∧ (i,x) ∈ entries db .jobQueues
  unique : ∀ τ, ∀ p ∈ entries db τ, ∀ q ∈ entries db τ, q.2 = p.2 → q = p

/-- A row that the transaction has written: it has the references of the committed row, or
the transaction has added it and holds the locks of the tables it refers to. -/
inductive Pending (s : Sys) (t : TxId) (a : Adding) (r : Job) : Prop
  | kept {r₀ : Job} (hmem : r₀ ∈ s.committed.jobs.rows) (hid : r₀.id = r.id) (href : ∀ τ, ref r τ = ref r₀ τ)
      (hasked : a.asked r.id = none)
  | added {q : Option String} (hasked : a.asked r.id = some q) (hlock : t ∈ s.locks.rowExclusive .tasks)
      (htask : ∃ x, (r.taskId,x) ∈ entries (s.view a) .tasks) (hnone : q = none → r.jobQueueId = none)
      (hsome : ∀ x, q = some x → t ∈ s.locks.rowExclusive .jobQueues ∧
        ∃ i, r.jobQueueId = some i ∧ (i,x) ∈ entries (s.view a) .jobQueues)

/-- What the statements run so far have prepared: the lock on tasks, and the names of the
last insert of queues. -/
structure Pledge where
  tasks : Bool := false
  queues : Option (List String) := none

namespace Pledge

structure Holds (pledge : Pledge) (s : Sys) (t : TxId) (a : Adding) : Prop where
  tasks : pledge.tasks = true → t ∈ s.locks.rowExclusive .tasks
  queues : ∀ xs, pledge.queues = some xs → t ∈ s.locks.rowExclusive .jobQueues ∧
    ∀ x ∈ xs, ∃ i, (i,x) ∈ entries (s.view a) .jobQueues

def after (pledge : Pledge) : AddStatement → Pledge
  | .insertTasks _ => { pledge with tasks := true }
  | .insertQueues queueNames => { pledge with queues := some queueNames }
  | _ => pledge

/-- Jobs are added only once their names are prepared. -/
structure Prepares (pledge : Pledge) (specs : List DbJobSpec) : Prop where
  tasks : ∀ spec ∈ specs, pledge.tasks = true
  queues : ∀ spec ∈ specs, ∀ x, spec.queueName = some x → ∃ xs, pledge.queues = some xs ∧ x ∈ xs

def Covers : Pledge → List AddStatement → Prop
  | _, [] => True
  | pledge, st :: rest => pledge.Prepares st.specs ∧ (pledge.after st).Covers rest

theorem holds_nil (s : Sys) (t : TxId) (a : Adding) : ({} : Pledge).Holds s t a where
  tasks := nofun
  queues := nofun

theorem prepares_nil (pledge : Pledge) : pledge.Prepares [] :=
  ⟨nofun,nofun⟩

theorem covers_addJobsStatements (specs : List DbJobSpec) (preserve required : Bool) :
    ({} : Pledge).Covers (addJobsStatements specs preserve required) := by
  refine ⟨prepares_nil _,prepares_nil _,prepares_nil _,⟨fun _ _ => rfl,fun spec hs x hx => ?_⟩,trivial⟩
  exact ⟨_,rfl,List.mem_dedup.mpr (List.mem_filterMap.mpr ⟨spec,hs,hx⟩)⟩

theorem covers_dedupeStatements (spec : DbJobSpec) : ({} : Pledge).Covers (dedupeStatements spec) := by
  unfold dedupeStatements
  cases hq : spec.queueName with
  | none =>
    refine ⟨prepares_nil _,⟨fun _ _ => rfl,fun spec' hs x hx => ?_⟩,trivial⟩
    rw [List.mem_singleton.mp hs,hq] at hx
    cases hx
  | some q =>
    refine ⟨prepares_nil _,prepares_nil _,⟨fun _ _ => rfl,fun spec' hs x hx => ⟨[q],rfl,?_⟩⟩,trivial⟩
    rw [List.mem_singleton.mp hs,hq] at hx
    exact List.mem_singleton.mpr (Option.some.inj hx).symm

/-- Both functions insert the names before the jobs, in every mode. -/
theorem covers_statements {call : AddCall} {statements : List AddStatement} (h : call.statements = .ok statements) :
    ({} : Pledge).Covers statements := by
  rcases AddCall.statements_cases h with ⟨specs,preserve,required,rfl⟩ | ⟨spec,rfl⟩
  · exact covers_addJobsStatements specs preserve required
  · exact covers_dedupeStatements spec

end Pledge

structure AddInv (s : Sys) (t : TxId) (a : Adding) : Prop where
  next : ∀ τ, nextOf a.mine τ ≤ nextOf s.committed τ
  drawn : ∀ τ, ∀ i ∈ a.written.of τ, i < nextOf s.committed τ
  fresh : ∀ τ, ∀ p ∈ entries s.committed τ, p.1 ∉ a.written.of τ
  held : ∀ i ∈ a.written.jobs, s.jobHolder i = some t
  names : ∀ τ, ∀ p ∈ entries a.mine τ, p.1 ∈ a.written.of τ → s.nameHolder (τ,p.2) = some t
  unseen : ∀ τ, ∀ p ∈ entries a.mine τ, p.1 ∈ a.written.of τ → ∀ q ∈ entries (s.view a) τ, q.2 = p.2 → q = p
  asked : ∀ i, a.asked i ≠ none → i ∈ a.written.jobs
  rows : ∀ r ∈ a.mine.jobs.rows, r.id ∈ a.written.jobs → Pending s t a r
  ready : ∃ pledge : Pledge, pledge.Holds s t a ∧ pledge.Covers a.todo

structure CollectInv (s : Sys) (t : TxId) (c : Collecting) : Prop where
  locked : c.phase ≠ .begun → s.locks.shareRowExclusive c.table = some t
  unused : ∀ ids, c.phase = .deleted ids → ∀ r ∈ s.committed.jobs.rows, ∀ i, ref r c.table = some i → i ∉ ids

structure Inv (s : Sys) : Prop where
  intact : Intact s.committed s.asked
  exclusive : s.locks.Exclusive
  adding : ∀ t a, s.tx t = some (.adding a) → AddInv s t a
  apart : ∀ t u a b, t ≠ u → s.tx t = some (.adding a) → s.tx u = some (.adding b) →
    ∀ τ, ∀ i ∈ a.written.of τ, i ∉ b.written.of τ
  collecting : ∀ t c, s.tx t = some (.collecting c) → CollectInv s t c

variable {s s' : Sys} {t u : TxId} {a b : Adding} {τ : NamedTable} {p : ℕ × String}

theorem AddInv.view_of_committed (h : AddInv s t a) (hp : p ∈ entries s.committed τ) : p ∈ entries (s.view a) τ :=
  mem_entries_overlay.mpr (.inl ⟨h.fresh τ p hp,hp⟩)

theorem AddInv.nextOf_view (h : AddInv s t a) : nextOf (s.view a) τ = nextOf s.committed τ := by
  rw [Sys.view,nextOf_overlay]
  exact max_eq_left (h.next τ)

theorem AddInv.ref_view (h : AddInv s t a) {r : Job} {i : ℕ} (hr : r ∈ (s.view a).jobs.rows) (hi : ref r τ = some i) :
    (∃ r₀ ∈ s.committed.jobs.rows, ref r₀ τ = some i) ∨
      (t ∈ s.locks.rowExclusive τ ∧ ∃ x, (i,x) ∈ entries (s.view a) τ) := by
  rcases mem_jobs_overlay.mp hr with ⟨_,hr⟩ | ⟨hw,hr⟩
  · exact .inl ⟨r,hr,hi⟩
  · cases h.rows r hr hw with
    | kept hmem hid href hasked => exact .inl ⟨_,hmem,(href τ).symm.trans hi⟩
    | @added q hasked hlock htask hnone hsome =>
      cases τ with
      | tasks =>
        cases hi
        exact .inr ⟨hlock,htask⟩
      | jobQueues =>
        cases q with
        | none =>
          rw [ref,hnone rfl] at hi
          cases hi
        | some x =>
          obtain ⟨hl,j,hj,hx⟩ := hsome x rfl
          cases Option.some.inj (hj.symm.trans hi)
          exact .inr ⟨hl,x,hx⟩

/-- What the step of another transaction leaves to this one. -/
structure Frame (s s' : Sys) (t : TxId) (a : Adding) : Prop where
  next : ∀ τ, nextOf s.committed τ ≤ nextOf s'.committed τ
  locks : ∀ τ, t ∈ s.locks.rowExclusive τ → t ∈ s'.locks.rowExclusive τ
  jobs : ∀ i, s.jobHolder i = some t → s'.jobHolder i = some t
  names : ∀ k, s.nameHolder k = some t → s'.nameHolder k = some t
  stays : ∀ τ, t ∈ s.locks.rowExclusive τ → ∀ p ∈ entries s.committed τ, p ∈ entries s'.committed τ
  comes : ∀ τ, ∀ p ∈ entries s'.committed τ, p ∈ entries s.committed τ ∨
    (p.1 ∉ a.written.of τ ∧ s.nameHolder (τ,p.2) ≠ some t)
  rows : ∀ r ∈ s.committed.jobs.rows, s.jobHolder r.id = some t →
    ∃ r' ∈ s'.committed.jobs.rows, r'.id = r.id ∧ ∀ τ, ref r' τ = ref r τ

theorem Frame.view (h : Frame s s' t a) (ht : t ∈ s.locks.rowExclusive τ) (hp : p ∈ entries (s.view a) τ) :
    p ∈ entries (s'.view a) τ := by
  rcases mem_entries_overlay.mp hp with ⟨hw,hp⟩ | ⟨hw,hp⟩
  · exact mem_entries_overlay.mpr (.inl ⟨hw,h.stays τ ht p hp⟩)
  · exact mem_entries_overlay.mpr (.inr ⟨hw,hp⟩)

theorem Frame.pending (h : Frame s s' t a) {r : Job} (hr : s.jobHolder r.id = some t) (hp : Pending s t a r) :
    Pending s' t a r := by
  cases hp with
  | kept hmem hid href hasked =>
    obtain ⟨r',hr',hid',href'⟩ := h.rows _ hmem (hid ▸ hr)
    exact .kept hr' (hid'.trans hid) (fun τ => (href τ).trans (href' τ).symm) hasked
  | added hasked hlock htask hnone hsome =>
    refine .added hasked (h.locks _ hlock) ?_ hnone fun x hx => ?_
    · obtain ⟨x,hx⟩ := htask
      exact ⟨x,h.view hlock hx⟩
    · obtain ⟨hl,i,hi,hx⟩ := hsome x hx
      exact ⟨h.locks _ hl,i,hi,h.view hl hx⟩

theorem Frame.holds (h : Frame s s' t a) {pledge : Pledge} (hp : pledge.Holds s t a) : pledge.Holds s' t a := by
  refine ⟨fun ht => h.locks _ (hp.tasks ht),fun xs hxs => ?_⟩
  obtain ⟨hl,hx⟩ := hp.queues xs hxs
  refine ⟨h.locks _ hl,fun x hmem => ?_⟩
  obtain ⟨i,hi⟩ := hx x hmem
  exact ⟨i,h.view hl hi⟩

theorem AddInv.frame (hi : AddInv s t a) (h : Frame s s' t a) : AddInv s' t a where
  next := fun τ => (hi.next τ).trans (h.next τ)
  drawn := fun τ i hw => (hi.drawn τ i hw).trans_le (h.next τ)
  fresh := by
    intro τ p hp
    rcases h.comes τ p hp with hold | ⟨hnew,_⟩
    · exact hi.fresh τ p hold
    · exact hnew
  held := fun i hw => h.jobs i (hi.held i hw)
  names := fun τ p hp hw => h.names _ (hi.names τ p hp hw)
  unseen := by
    intro τ p hp hw q hq he
    refine hi.unseen τ p hp hw q ?_ he
    rcases mem_entries_overlay.mp hq with ⟨hqw,hq⟩ | hq
    · rcases h.comes τ q hq with hold | ⟨_,hnot⟩
      · exact mem_entries_overlay.mpr (.inl ⟨hqw,hold⟩)
      · -- the name of `p` is held by this transaction, so no other commits it
        rw [he] at hnot
        exact absurd (hi.names τ p hp hw) hnot
    · exact mem_entries_overlay.mpr (.inr hq)
  asked := hi.asked
  rows := fun r hr hw => h.pending (hi.held r.id hw) (hi.rows r hr hw)
  ready := by
    obtain ⟨pledge,hp,hc⟩ := hi.ready
    exact ⟨pledge,h.holds hp,hc⟩

structure CollectFrame (s s' : Sys) (t : TxId) : Prop where
  locks : ∀ τ, s.locks.shareRowExclusive τ = some t → s'.locks.shareRowExclusive τ = some t
  refs : ∀ τ, s.locks.shareRowExclusive τ = some t → ∀ r' ∈ s'.committed.jobs.rows, ∀ i, ref r' τ = some i →
    ∃ r ∈ s.committed.jobs.rows, ref r τ = some i

theorem CollectInv.frame {c : Collecting} (hi : CollectInv s t c) (h : CollectFrame s s' t) : CollectInv s' t c := by
  refine ⟨fun hp => h.locks _ (hi.locked hp),fun ids hids r' hr' i href => ?_⟩
  have hl := hi.locked (by rw [hids]; exact nofun)
  obtain ⟨r,hr,href⟩ := h.refs _ hl r' hr' i href
  exact hi.unused ids hids r hr i href

/-- A step of `t`: what holds of the other transactions is kept, so only the tables, the
table locks and `t` itself have to be looked at. -/
theorem Inv.step (h : Inv s) (t : TxId) (hintact : Intact s'.committed s'.asked) (hexcl : s'.locks.Exclusive)
    (htx : ∀ u, u ≠ t → s'.tx u = s.tx u) (hadd : ∀ u b, u ≠ t → s.tx u = some (.adding b) → Frame s s' u b)
    (hcol : ∀ u c, u ≠ t → s.tx u = some (.collecting c) → CollectFrame s s' u)
    (hself : ∀ a, s'.tx t = some (.adding a) → AddInv s' t a ∧ ∀ u b, u ≠ t → s.tx u = some (.adding b) →
      ∀ τ, ∀ i ∈ a.written.of τ, i ∉ b.written.of τ)
    (hselfc : ∀ c, s'.tx t = some (.collecting c) → CollectInv s' t c) : Inv s' where
  intact := hintact
  exclusive := hexcl
  adding := by
    intro u b hu
    by_cases hut : u = t
    · subst hut
      exact (hself b hu).1
    · rw [htx u hut] at hu
      exact (h.adding u b hu).frame (hadd u b hut hu)
  apart := by
    intro u v b d huv hu hv τ i hi hi'
    by_cases hut : u = t
    · subst hut
      rw [htx v (Ne.symm huv)] at hv
      exact (hself b hu).2 v d (Ne.symm huv) hv τ i hi hi'
    · by_cases hvt : v = t
      · subst hvt
        rw [htx u hut] at hu
        exact (hself d hv).2 u b hut hu τ i hi' hi
      · rw [htx u hut] at hu
        rw [htx v hvt] at hv
        exact h.apart u v b d huv hu hv τ i hi hi'
  collecting := by
    intro u c hu
    by_cases hut : u = t
    · subst hut
      exact hselfc c hu
    · rw [htx u hut] at hu
      exact (h.collecting u c hu).frame (hcol u c hut hu)

end GraphileWorker.Maintenance
