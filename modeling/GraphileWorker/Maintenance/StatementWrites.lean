import GraphileWorker.Maintenance.AddStatements

/-! # What a statement of an addition can write

The two inserts of names add entries under fresh identities; the other statements write jobs
only. A written row keeps its references or was added for a spec.
-/
namespace GraphileWorker.Maintenance
open Foundation Database

variable {db db' : Db} {now : Time} {specs : List DbJobSpec} {spec : DbJobSpec} {preserve : Bool} {c : Change}
  {queueNames : List String} {touched : List JobId} {x : String}

/-- Entries have been added under the identities of `w`, with names of their own. -/
structure EntriesGrow (es es' : List (ℕ × String)) (n n' : ℕ) (w : List ℕ) : Prop where
  old : ∀ p ∈ es, p ∈ es'
  new : ∀ p ∈ es', p ∈ es ∨ p.1 ∈ w
  fresh : ∀ i ∈ w, n ≤ i ∧ i < n'
  unseen : ∀ p ∈ es', p.1 ∈ w → ∀ q ∈ es', q.2 = p.2 → q = p
  next : n ≤ n'

theorem EntriesGrow.refl (es : List (ℕ × String)) (n : ℕ) : EntriesGrow es es n n [] where
  old := fun _ hp => hp
  new := fun _ hp => .inl hp
  fresh := nofun
  unseen := nofun
  next := le_refl n

theorem entriesGrow_registerAll {α : Type} [RowId α] (c : NameColumn α String) (t : IdTable α) (xs : List String)
    {e : α → ℕ × String} (he : ∀ r, e r = (rowId r,c.name r)) :
    EntriesGrow (t.rows.map e) ((c.registerAll t xs).rows.map e) t.next (c.registerAll t xs).next
      ((((c.registerAll t xs).rows.map e).map Prod.fst).filter fun i => decide (t.next ≤ i)) := by
  obtain ⟨fresh,hg,-⟩ := NameColumn.exists_grown (c := c) t xs
  have hid : ∀ r, (e r).1 = rowId r := fun r => by rw [he]
  have hname : ∀ r, (e r).2 = c.name r := fun r => by rw [he]
  constructor
  · intro p hp
    obtain ⟨r,hr,rfl⟩ := List.mem_map.mp hp
    exact List.mem_map_of_mem (hg.mem_rows.mpr (.inl hr))
  · intro p hp
    obtain ⟨r,hr,rfl⟩ := List.mem_map.mp hp
    rcases hg.mem_rows.mp hr with hold | ⟨x,hx,rfl⟩
    · exact .inl (List.mem_map_of_mem hold)
    · refine .inr (List.mem_filter.mpr ⟨List.mem_map_of_mem hp,?_⟩)
      rw [hid,c.rowId_newRow]
      exact decide_eq_true (Nat.le_add_right _ _)
  · intro i hi
    obtain ⟨hm,hn⟩ := List.mem_filter.mp hi
    obtain ⟨p,hp,rfl⟩ := List.mem_map.mp hm
    obtain ⟨r,hr,rfl⟩ := List.mem_map.mp hp
    refine ⟨of_decide_eq_true hn,?_⟩
    rw [hid]
    exact (c.registerAll t xs).lt_next r hr
  · intro p hp hw q hq hpq
    obtain ⟨r,hr,rfl⟩ := List.mem_map.mp hp
    obtain ⟨s,hs,rfl⟩ := List.mem_map.mp hq
    have hn : t.next ≤ rowId r := by
      rw [← hid]
      exact of_decide_eq_true (List.mem_filter.mp hw).2
    rw [hname,hname] at hpq
    rw [hg.eq_of_name hr hn hs hpq]
  · rw [hg.next]
    exact Nat.le_add_right _ _

/-- What a row that the statement has written comes from: a row with the same references, or
a spec whose names it has looked up. -/
inductive Rewritten (db : Db) (st : AddStatement) (c : Change) (r : Job) : Prop
  | kept {r₀ : Job} (hmem : r₀ ∈ db.jobs.rows) (hid : r₀.id = r.id) (href : ∀ τ, ref r τ = ref r₀ τ)
      (hasked : c.asked r.id = none)
  | added {spec : DbJobSpec} (hspec : spec ∈ st.specs) (hasked : c.asked r.id = some spec.queueName)
      (htask : taskIdOf db spec.identifier = some r.taskId)
      (hqueue : r.jobQueueId = spec.queueName.bind (queueIdOf db))

structure Grows (db : Db) (st : AddStatement) (c : Change) : Prop where
  entries : ∀ τ, EntriesGrow (entries db τ) (entries c.db τ) (nextOf db τ) (nextOf c.db τ) (c.written.of τ)
  untouched : ∀ r ∈ c.db.jobs.rows, r.id ∉ c.written.jobs → r ∈ db.jobs.rows
  touched : ∀ r ∈ c.db.jobs.rows, r.id ∈ c.written.jobs → Rewritten db st c r
  asked : ∀ i, c.asked i ≠ none → i ∈ c.written.jobs

theorem entriesGrow_of_eq (ht : c.db.tasks = db.tasks) (hq : c.db.jobQueues = db.jobQueues)
    (hwt : c.written.tasks = []) (hwq : c.written.jobQueues = []) (τ : NamedTable) :
    EntriesGrow (entries db τ) (entries c.db τ) (nextOf db τ) (nextOf c.db τ) (c.written.of τ) := by
  cases τ with
  | tasks =>
    rw [entries,entries,nextOf,nextOf,Written.of,ht,hwt]
    exact .refl _ _
  | jobQueues =>
    rw [entries,entries,nextOf,nextOf,Written.of,hq,hwq]
    exact .refl _ _

theorem grows_insertTasks {identifiers : List String}
    (h : (AddStatement.insertTasks identifiers).run db now = .ok c) : Grows db (.insertTasks identifiers) c := by
  obtain ⟨d,hd,h⟩ := bind_eq_ok h
  obtain ⟨hok,hadm⟩ := insertTasks_ok_iff db identifiers
  have hdb := Except.ok.inj (hd.symm.trans (hok (hadm d hd)))
  cases h
  subst hdb
  refine ⟨fun τ => ?_,fun r hr _ => hr,fun r _ hw => absurd hw List.not_mem_nil,fun i hi => absurd rfl hi⟩
  cases τ with
  | tasks => exact entriesGrow_registerAll taskNames db.tasks identifiers fun _ => rfl
  | jobQueues => exact .refl _ _

theorem grows_insertQueues
    (h : (AddStatement.insertQueues queueNames).run db now = .ok c) : Grows db (.insertQueues queueNames) c := by
  obtain ⟨d,hd,h⟩ := bind_eq_ok h
  obtain ⟨hok,hadm⟩ := insertQueues_ok_iff db queueNames
  have hdb := Except.ok.inj (hd.symm.trans (hok (hadm d hd)))
  cases h
  subst hdb
  refine ⟨fun τ => ?_,fun r hr _ => hr,fun r _ hw => absurd hw List.not_mem_nil,fun i hi => absurd rfl hi⟩
  cases τ with
  | tasks => exact .refl _ _
  | jobQueues => exact entriesGrow_registerAll Database.queueNames db.jobQueues queueNames fun _ => rfl

theorem grows_retireKeyed (h : (AddStatement.retireKeyed specs).run db now = .ok c) :
    Grows db (.retireKeyed specs) c := by
  cases h
  refine ⟨entriesGrow_of_eq rfl rfl rfl rfl,fun r hr hw => ?_,fun r hr hw => ?_,fun i hi => absurd rfl hi⟩
  · obtain ⟨s,hs,rfl⟩ := List.mem_map.mp hr
    cases hp : retires specs s with
    | false => simpa [hp] using hs
    | true =>
      refine absurd (List.mem_map.mpr ⟨s,List.mem_filter.mpr ⟨hs,hp⟩,?_⟩) hw
      simp [hp,Job.retire]
  · obtain ⟨s,hs,rfl⟩ := List.mem_map.mp hr
    refine .kept hs ?_ (fun τ => ?_) rfl
    · cases retires specs s <;> rfl
    · cases retires specs s <;> cases τ <;> rfl

/-! ### The insert of jobs -/

/-- One row of the insert, or none. -/
structure InsertsOne (db db' : Db) (touched : List JobId) (spec : DbJobSpec) (row : Option Job) : Prop where
  tasks : db'.tasks = db.tasks
  jobQueues : db'.jobQueues = db.jobQueues
  next : db.jobs.next ≤ db'.jobs.next
  stays : ∀ r ∈ db'.jobs.rows, r ∈ db.jobs.rows ∨ row = some r
  row : ∀ r, row = some r → r ∈ db'.jobs.rows ∧ taskIdOf db spec.identifier = some r.taskId ∧
    r.jobQueueId = spec.queueName.bind (queueIdOf db) ∧ ((∀ i ∈ touched, i < db.jobs.next) → r.id ∉ touched)

theorem insertsOne {row : Option Job}
    (h : insertOne db touched spec preserve now = .ok (db',row)) : InsertsOne db db' touched spec row := by
  cases insertOne_cases h with
  | unknown => exact ⟨rfl,rfl,le_refl _,fun r hr => .inl hr,fun r hr => by cases hr⟩
  | skipped => exact ⟨rfl,rfl,Nat.le_succ _,fun r hr => .inl hr,nofun⟩
  | inserted taskId ht =>
    refine ⟨rfl,rfl,Nat.le_succ _,fun r hr => ?_,fun r hr => ?_⟩
    · rcases List.mem_append.mp hr with hr | hr
      · exact .inl hr
      · exact .inr (congrArg some (List.mem_singleton.mp hr).symm)
    · cases hr
      exact ⟨List.mem_append_right _ (List.mem_singleton_self _),ht,rfl,fun hlt hm => Nat.lt_irrefl _ (hlt _ hm)⟩
  | replaced taskId r ht _ hc htouched hl =>
    have hr := (conflicting_eq_some hc).1
    refine ⟨rfl,rfl,Nat.le_succ _,fun r' hr' => ?_,fun r' hr' => ?_⟩
    · obtain ⟨s,hs,rfl⟩ := List.mem_map.mp hr'
      split
      · next hp =>
        have hsr : s = r := IdTable.eq_of_rowId hs hr (by simpa using (Bool.and_eq_true_iff.mp hp).1)
        exact .inr (by rw [hsr])
      · exact .inl hs
    · cases hr'
      exact ⟨List.mem_map.mpr ⟨r,hr,if_pos (by simp [hl])⟩,ht,rfl,fun _ => htouched⟩

/-- The rows that the insert returns have distinct identities, none of them touched before,
and every other row is one of before. -/
structure InsertsRows (db db' : Db) (touched : List JobId) (specs : List DbJobSpec)
    (added : List (DbJobSpec × Job)) : Prop where
  tasks : db'.tasks = db.tasks
  jobQueues : db'.jobQueues = db.jobQueues
  nodup : (added.map fun p => p.2.id).Nodup
  apart : ∀ p ∈ added, p.2.id ∉ touched
  rows : ∀ r ∈ db'.jobs.rows, (r ∈ db.jobs.rows ∧ r.id ∉ added.map fun p => p.2.id) ∨ ∃ spec ∈ specs,
    (spec,r) ∈ added ∧ taskIdOf db spec.identifier = some r.taskId ∧ r.jobQueueId = spec.queueName.bind (queueIdOf db)

theorem taskIdOf_congr (h : db'.tasks = db.tasks) : taskIdOf db' = taskIdOf db := by
  unfold taskIdOf
  rw [h]

theorem queueIdOf_congr (h : db'.jobQueues = db.jobQueues) : queueIdOf db' = queueIdOf db := by
  unfold queueIdOf
  rw [h]

theorem insertsRows {added : List (DbJobSpec × Job)}
    (hlt : ∀ i ∈ touched, i < db.jobs.next) (h : insertRows preserve now db touched specs = .ok (db',added)) :
    InsertsRows db db' touched specs added := by
  induction specs generalizing db touched added with
  | nil =>
    cases h
    exact ⟨rfl,rfl,List.nodup_nil,fun p hp => absurd hp List.not_mem_nil,
      fun r hr => .inl ⟨hr,List.not_mem_nil⟩⟩
  | cons spec rest ih =>
    obtain ⟨⟨db₁,row⟩,h₁,h⟩ := bind_eq_ok h
    obtain ⟨⟨db₂,rows⟩,h₂,h⟩ := bind_eq_ok h
    cases h
    have hone := insertsOne h₁
    have hlt₁ : ∀ i ∈ touched ++ row.toList.map Job.id, i < db₁.jobs.next := by
      intro i hi
      rcases List.mem_append.mp hi with hi | hi
      · exact (hlt i hi).trans_le hone.next
      · obtain ⟨r,hr,rfl⟩ := List.mem_map.mp hi
        exact db₁.jobs.lt_next r (hone.row r (Option.mem_toList.mp hr)).1
    have hrest := ih hlt₁ h₂
    have hnot : ∀ r, row = some r → r.id ∉ rows.map fun p => p.2.id := by
      rintro r rfl hm
      obtain ⟨p,hp,he⟩ := List.mem_map.mp hm
      refine hrest.apart p hp (List.mem_append_right _ ?_)
      simp [he]
    refine ⟨hrest.tasks.trans hone.tasks,hrest.jobQueues.trans hone.jobQueues,?_,?_,?_⟩
    · cases row with
      | none => exact hrest.nodup
      | some r => exact List.nodup_cons.mpr ⟨hnot r rfl,hrest.nodup⟩
    · intro p hp
      rcases List.mem_append.mp hp with hp | hp
      · obtain ⟨r,hr,rfl⟩ := List.mem_map.mp hp
        exact (hone.row r (Option.mem_toList.mp hr)).2.2.2 hlt
      · exact fun hm => hrest.apart p hp (List.mem_append_left _ hm)
    · intro r hr
      rcases hrest.rows r hr with ⟨hold,hnr⟩ | ⟨spec',hs,hp,htask,hqueue⟩
      · by_cases hrow : row = some r
        · obtain ⟨_,htask,hqueue,_⟩ := hone.row r hrow
          exact .inr ⟨spec,List.mem_cons_self,by simp [hrow],htask,hqueue⟩
        · have hdb : r ∈ db.jobs.rows := (hone.stays r hold).resolve_right hrow
          refine .inl ⟨hdb,?_⟩
          rw [List.map_append,List.mem_append,not_or]
          refine ⟨?_,hnr⟩
          cases row with
          | none => exact List.not_mem_nil
          | some r' =>
            intro hm
            have hid : r.id = r'.id := by simpa using hm
            exact hrow (congrArg some (IdTable.eq_of_rowId (hone.row r' rfl).1 hold hid.symm))
      · rw [taskIdOf_congr hone.tasks] at htask
        rw [queueIdOf_congr hone.jobQueues] at hqueue
        exact .inr ⟨spec',List.mem_cons_of_mem _ hs,List.mem_append_right _ hp,htask,hqueue⟩

theorem asked_of_mem {r : Job} (hn : (c.added.map fun p => p.2.id).Nodup) (h : (spec,r) ∈ c.added) :
    c.asked r.id = some spec.queueName := by
  obtain ⟨p,hp⟩ : ∃ p, c.added.find? (fun p => p.2.id == r.id) = some p :=
    Option.isSome_iff_exists.mp (List.find?_isSome.mpr ⟨_,h,by simp⟩)
  have hid : p.2.id = r.id := by simpa using List.find?_some hp
  have he : p = (spec,r) := List.inj_on_of_nodup_map hn (List.mem_of_find?_eq_some hp) h hid
  rw [Change.asked,hp,he,Option.map_some]

theorem mem_of_asked {i : JobId} (h : c.asked i ≠ none) : i ∈ c.added.map fun p => p.2.id := by
  obtain ⟨q,hq⟩ := Option.ne_none_iff_exists'.mp h
  obtain ⟨p,hp,-⟩ := Option.map_eq_some_iff.mp hq
  have hid : p.2.id = i := by simpa using List.find?_some hp
  exact hid ▸ List.mem_map_of_mem (List.mem_of_find?_eq_some hp)

theorem grows_insertJobs {required : Bool}
    (h : (AddStatement.insertJobs specs preserve required).run db now = .ok c) :
    Grows db (.insertJobs specs preserve required) c := by
  obtain ⟨⟨d,added⟩,hd,h⟩ := bind_eq_ok h
  have hrows := insertsRows (fun i hi => absurd hi List.not_mem_nil) hd
  have hc : c = { db := d, written := { jobs := added.map fun p => p.2.id }, added := added } := by
    dsimp only at h
    split at h
    · cases h
    · cases h
      rfl
  subst hc
  refine ⟨entriesGrow_of_eq hrows.tasks hrows.jobQueues rfl rfl,fun r hr hw => ?_,fun r hr hw => ?_,
    fun i hi => mem_of_asked hi⟩
  · rcases hrows.rows r hr with ⟨hold,_⟩ | ⟨spec,_,hp,_⟩
    · exact hold
    · exact absurd (List.mem_map_of_mem hp) hw
  · rcases hrows.rows r hr with ⟨_,hn⟩ | ⟨spec,hs,hp,htask,hqueue⟩
    · exact absurd hw hn
    · exact .added hs (asked_of_mem hrows.nodup hp) htask hqueue

theorem grows_insertDeduped (h : (AddStatement.insertDeduped spec).run db now = .ok c) :
    Grows db (.insertDeduped spec) c := by
  obtain ⟨⟨d,row⟩,hd,h⟩ := bind_eq_ok h
  cases h
  unfold dedupeRow at hd
  cases ht : taskIdOf db spec.identifier with
  | none =>
    simp only [ht] at hd
    cases hd
    have hnone : dedupedAs db spec none = [] := by
      unfold dedupedAs
      split <;> rfl
    rw [hnone]
    exact ⟨entriesGrow_of_eq rfl rfl rfl rfl,fun r hr _ => hr,fun r _ hw => absurd hw List.not_mem_nil,
      fun i hi => absurd rfl hi⟩
  | some taskId =>
    simp only [ht] at hd
    obtain ⟨_,_,hd⟩ := bind_eq_ok hd
    cases hc : conflicting db spec.jobKey with
    | none =>
      simp only [hc] at hd
      cases hd
      have hadded : dedupedAs db spec (some (proposedJob db spec taskId now db.jobs.next)) =
          [(spec,proposedJob db spec taskId now db.jobs.next)] := by
        rw [dedupedAs,hc]
        rfl
      rw [hadded]
      refine ⟨entriesGrow_of_eq rfl rfl rfl rfl,fun r hr hw => ?_,fun r hr hw => ?_,
        fun i hi => mem_of_asked hi⟩
      · rcases List.mem_append.mp hr with hr | hr
        · exact hr
        · exact absurd (List.mem_map_of_mem hr) hw
      · rcases List.mem_append.mp hr with hr | hr
        · have hid : r.id = db.jobs.next := List.mem_singleton.mp hw
          exact absurd (db.jobs.lt_next r hr) (hid ▸ Nat.lt_irrefl _)
        · rw [List.mem_singleton.mp hr]
          exact .added List.mem_cons_self (asked_of_mem (List.nodup_singleton _) List.mem_cons_self) ht rfl
    | some r₀ =>
      simp only [hc] at hd
      split at hd
      · cases hd
      · cases hd
        have hadded : dedupedAs db spec (some (r₀.dedupe now)) = [] := by
          rw [dedupedAs,hc]
          rfl
        rw [hadded]
        refine ⟨entriesGrow_of_eq rfl rfl rfl rfl,fun r hr hw => ?_,fun r hr hw => ?_,
          fun i hi => absurd rfl hi⟩
        · obtain ⟨s,hs,rfl⟩ := List.mem_map.mp hr
          have hid : (if s.id == r₀.id then s.dedupe now else s).id = s.id := by split <;> rfl
          by_cases he : s.id = r₀.id
          · exact absurd (List.mem_singleton.mpr (hid.trans he)) hw
          · have hstays : (if s.id == r₀.id then s.dedupe now else s) = s := if_neg (by simpa using he)
            exact hstays.symm ▸ hs
        · obtain ⟨s,hs,rfl⟩ := List.mem_map.mp hr
          refine .kept hs ?_ (fun τ => ?_) rfl
          · dsimp only
            split <;> rfl
          · dsimp only
            split <;> cases τ <;> rfl

theorem AddStatement.grows {st : AddStatement} (h : st.run db now = .ok c) : Grows db st c := by
  cases st with
  | insertTasks identifiers => exact grows_insertTasks h
  | insertQueues queueNames => exact grows_insertQueues h
  | retireKeyed specs => exact grows_retireKeyed h
  | insertJobs specs preserve required => exact grows_insertJobs h
  | insertDeduped spec => exact grows_insertDeduped h

theorem entry_insertQueues (h : (AddStatement.insertQueues queueNames).run db now = .ok c) (hx : x ∈ queueNames) :
    ∃ i, (i,x) ∈ entries c.db .jobQueues := by
  obtain ⟨d,hd,h⟩ := bind_eq_ok h
  obtain ⟨hok,hadm⟩ := insertQueues_ok_iff db queueNames
  have hdb := Except.ok.inj (hd.symm.trans (hok (hadm d hd)))
  cases h
  subst hdb
  have hknown : (Database.queueNames.idOf (Database.queueNames.registerAll db.jobQueues queueNames) x).isSome = true :=
    NameColumn.isSome_idOf_registerAll.mpr (.inr hx)
  rw [NameColumn.idOf,Option.isSome_map] at hknown
  obtain ⟨q,hq⟩ := Option.isSome_iff_exists.mp hknown
  refine ⟨q.id,List.mem_map.mpr ⟨q,List.mem_of_find?_eq_some hq,?_⟩⟩
  have hbeq : (Database.queueNames.name q == x) = true :=
    List.find?_some (p := fun r => Database.queueNames.name r == x) hq
  exact congrArg (Prod.mk q.id) (eq_of_beq hbeq)

theorem mem_entries_of_taskIdOf {i : TaskId} (h : taskIdOf db x = some i) : (i,x) ∈ entries db .tasks := by
  obtain ⟨t,ht,rfl⟩ := Option.map_eq_some_iff.mp h
  have hname : t.identifier = x := by simpa using List.find?_some ht
  exact List.mem_map.mpr ⟨t,List.mem_of_find?_eq_some ht,by rw [hname]⟩

theorem exists_queueIdOf (h : ∃ i, (i,x) ∈ entries db .jobQueues) :
    ∃ i, queueIdOf db x = some i ∧ (i,x) ∈ entries db .jobQueues := by
  obtain ⟨i,hi⟩ := h
  obtain ⟨q,hq,he⟩ := List.mem_map.mp hi
  have hname : q.queueName = x := congrArg Prod.snd he
  obtain ⟨q',hq'⟩ : ∃ q', db.jobQueues.rows.find? (fun q => q.queueName == x) = some q' :=
    Option.isSome_iff_exists.mp (List.find?_isSome.mpr ⟨q,hq,by simp [hname]⟩)
  have hname' : q'.queueName = x := by simpa using List.find?_some hq'
  refine ⟨q'.id,by rw [queueIdOf,hq',Option.map_some],List.mem_map.mpr ⟨q',List.mem_of_find?_eq_some hq',?_⟩⟩
  rw [hname']

end GraphileWorker.Maintenance
