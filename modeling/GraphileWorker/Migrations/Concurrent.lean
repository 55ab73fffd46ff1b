import GraphileWorker.Migrations.Migrate
import Mathlib.Data.List.Infix

/-! # Concurrent runs of `migrate`

A run skips a migration only when it is committed: its first reading said so, or its insert
clashed with a committed row.
-/
namespace GraphileWorker.Migrations
open Foundation

def Numbered (migrations : List GraphileWorkerMigration) : Prop :=
  migrations.map GraphileWorkerMigration.migrationNumber = List.range' 1 migrations.length

theorem generatedMigration_number (sql : ℕ → List String) {n : ℕ} (hn : n ∈ List.range' 1 22) :
    (generatedMigration sql n).migrationNumber = n := by
  have hnames : ∀ n ∈ List.range' 1 22, (parseU32 (((migrationName n).drop 1).take 6)).getD 0 = n := by decide +kernel
  exact hnames n hn

theorem graphileWorkerMigrations_numbered (sql : ℕ → List String) : Numbered (graphileWorkerMigrations sql) := by
  simp only [Numbered,graphileWorkerMigrations,List.map_map,List.length_map,List.length_range']
  exact (List.map_congr_left fun n hn => generatedMigration_number sql hn).trans (List.map_id _)

theorem Numbered.number_eq {done rest : List GraphileWorkerMigration} {m : GraphileWorkerMigration}
    (h : Numbered (done ++ m :: rest)) : m.migrationNumber = done.length + 1 := by
  have hget := congrArg (fun l => l[done.length]?) h
  simp only [List.map_append,List.map_cons,List.length_append,List.length_cons] at hget
  rw [List.getElem?_append_right (by simp),List.getElem?_range' (by omega)] at hget
  simpa [Nat.add_comm] using hget

def Statement.ofMigration : Statement → Option (ℕ × String)
  | .migration number sql => some (number,sql)
  | _ => none

def Db.committed {R : Type} (db : Db R) : List (ℕ × String) := db.log.filterMap Statement.ofMigration

section
variable (render : String → String) {todo : List GraphileWorkerMigration} {i : Iteration} {last : LastMigration}

def GraphileWorkerMigration.statements (m : GraphileWorkerMigration) : List (ℕ × String) :=
  m.stmts.map fun stmt => (m.migrationNumber,render stmt)

/-- The transaction of a migration after the statements `done`. -/
def migrationTx (m : GraphileWorkerMigration) (done : List String) : Tx MigrationRow Statement :=
  ⟨[row m],done.map fun stmt => .migration m.migrationNumber (render stmt)⟩

variable (migrations : List GraphileWorkerMigration)

/-- All migrations before `todo` are among the first `k`. -/
def Past (k : ℕ) (todo : List GraphileWorkerMigration) : Prop :=
  ∃ done, migrations = done ++ todo ∧ done.length ≤ k

/-- What the loop knows when `k` migrations are committed. -/
structure Iteration.Valid (k : ℕ) (i : Iteration) : Prop where
  past : Past migrations k (i.migration :: i.rest)
  last : ∀ id, i.last.id = some id → id ≤ k

/-- Where a run can stand when `k` migrations are committed, with its open transaction. -/
def At (k : ℕ) : Pc → Option (Tx MigrationRow Statement) → Prop
  | .fetchLastMigration _, tx | .fetchPostgresVersion _, tx | .beginInstall _, tx => tx = none
  | .createSchema _, tx => tx = some {}
  | .createTable _, tx => tx = some ⟨[],[.createSchema]⟩
  | .commitInstall _, tx => tx = some ⟨[],[.createSchema,.createMigrationTable]⟩
  | .begin i, tx => i.Valid migrations k ∧ tx = none
  | .insert i, tx => i.Valid migrations k ∧ tx = some {}
  | .execute i stmts, tx => i.Valid migrations k ∧
      ∃ done, i.migration.stmts = done ++ stmts ∧ tx = some (migrationTx render i.migration done)
  | .commit i, tx => i.Valid migrations k ∧ tx = some (migrationTx render i.migration i.migration.stmts)
  | .returned (.ok _), _ => k = migrations.length
  | .returned (.error _), _ | .crashed, _ => True

/-- The committed rows are the first ones of the registry, the committed
statements are theirs, and every run is where it can be. -/
structure Inv {R : Type} (s : System R) : Prop where
  rows : s.db.rows <+: migrations.map row
  log : s.db.committed = (migrations.take s.db.rows.length).flatMap (·.statements render)
  exclusive : s.db.Exclusive MigrationRow.id
  at_pc : ∀ r, At render migrations s.db.rows.length (s.pc r) (s.db.active r)

variable {render migrations} {k k' : ℕ}

theorem Past.mono (h : Past migrations k todo) (hk : k ≤ k') : Past migrations k' todo := by
  obtain ⟨done,he,hle⟩ := h
  exact ⟨done,he,hle.trans hk⟩

theorem Iteration.Valid.mono (h : i.Valid migrations k) (hk : k ≤ k') : i.Valid migrations k' where
  past := h.past.mono hk
  last id hid := Int.le_trans (h.last id hid) (Int.ofNat_le.mpr hk)

theorem At.mono {pc : Pc} {tx : Option (Tx MigrationRow Statement)} (h : At render migrations k pc tx)
    (hk : k ≤ k') (hle : k' ≤ migrations.length) : At render migrations k' pc tx := by
  cases pc with
  | fetchLastMigration | fetchPostgresVersion | beginInstall | createSchema | createTable | commitInstall => exact h
  | begin | insert | execute | commit => exact ⟨h.1.mono hk,h.2⟩
  | returned result =>
    cases result with
    | ok =>
      have hk' : k = migrations.length := h
      exact le_antisymm hle (hk' ▸ hk)
    | error => exact trivial
  | crashed => exact trivial

theorem Past.skip {m : GraphileWorkerMigration} {rest : List GraphileWorkerMigration} (hn : Numbered migrations)
    (h : Past migrations k (m :: rest)) (hm : m.migrationNumber ≤ k) : Past migrations k rest := by
  obtain ⟨done,rfl,-⟩ := h
  refine ⟨done ++ [m],by simp,?_⟩
  rw [hn.number_eq] at hm
  simpa using hm

theorem le_of_not_isBeforeNumber {n : ℕ} (h : last.isBeforeNumber n = false)
    (hlast : ∀ id, last.id = some id → id ≤ k) : n ≤ k := by
  unfold LastMigration.isBeforeNumber at h
  cases hid : last.id with
  | none => simp [hid] at h
  | some id =>
    have hle := hlast id hid
    simp only [hid,Option.isNone_some,Bool.false_or,Option.bind_some,decide_eq_false_iff_not] at h
    split at h
    · simp only [Option.getD_some] at h
      omega
    · simp only [Option.getD_none] at h
      omega

theorem at_migrationsFrom (hn : Numbered migrations) (highest : ℕ)
    (h : Past migrations k todo) (hlast : ∀ id, last.id = some id → id ≤ k)
    (hk : k ≤ migrations.length) : At render migrations k (migrationsFrom last highest todo) none := by
  induction todo generalizing highest with
  | nil =>
    obtain ⟨done,rfl,hle⟩ := h
    rw [migrationsFrom]
    cases checkCompatibleRevision last.id last.biggestBreakingId highest with
    | ok => exact le_antisymm hk (by simpa using hle)
    | error => exact trivial
  | cons m rest ih =>
    simp only [migrationsFrom]
    split
    · exact ⟨⟨h,hlast⟩,rfl⟩
    · next hb => exact ih _ (h.skip hn (le_of_not_isBeforeNumber (by simpa using hb) hlast))

theorem Iteration.Valid.next (hn : Numbered migrations) (h : i.Valid migrations k)
    (hm : i.migration.migrationNumber ≤ k) (hk : k ≤ migrations.length) : At render migrations k i.next none :=
  at_migrationsFrom hn _ (h.past.skip hn hm) h.last hk

theorem at_gotLastMigration (hn : Numbered migrations)
    (hlast : ∀ id, last.id = some id → id ≤ k) (hk : k ≤ migrations.length) :
    At render migrations k (Pc.gotLastMigration migrations last) none := by
  unfold Pc.gotLastMigration
  split
  · exact trivial
  · exact at_migrationsFrom hn 0 ⟨[],rfl,Nat.zero_le k⟩ hlast hk

theorem Iteration.execute_inTransaction (i : Iteration) (stmts : List String) :
    (i.execute stmts).inTransaction = true := by
  cases stmts <;> rfl

theorem Iteration.Valid.execute (render : String → String) (h : i.Valid migrations k)
    {done stmts : List String} (hs : i.migration.stmts = done ++ stmts) :
    At render migrations k (i.execute stmts) (some (migrationTx render i.migration done)) := by
  cases stmts with
  | nil => exact ⟨h,by rw [hs,List.append_nil]⟩
  | cons stmt rest => exact ⟨h,done,hs,rfl⟩

section Steps
variable {R : Type} {version : List Char} {s : System R} {db : Db R} {r : R} {pc : Pc} {request : Request}
  {answer : Except DbError Reply} {e : DbError} {i : Iteration}

/-- The step of `r` commits no migration. -/
structure Quiet (db db' : Db R) (r : R) : Prop where
  rows : db'.rows = db.rows
  committed : db'.committed = db.committed
  active : ∀ u, u ≠ r → db'.active u = db.active u
  exclusive : db.Exclusive MigrationRow.id → db'.Exclusive MigrationRow.id

theorem Quiet.refl (db : Db R) (r : R) : Quiet db db r := ⟨rfl,rfl,fun _ _ => rfl,id⟩

variable [DecidableEq R]

theorem Quiet.rollback {db' : Db R} (h : Quiet db db' r) : Quiet db (db'.rollback r) r where
  rows := h.rows
  committed := h.committed
  active u hu := (TxStore.rollback_active_of_ne hu).trans (h.active u hu)
  exclusive he := (h.exclusive he).rollback

omit [DecidableEq R] in
theorem Inv.length_le (h : Inv render migrations s) : s.db.rows.length ≤ migrations.length := by
  simpa using h.rows.length_le

theorem Inv.quiet (h : Inv render migrations s) (hq : Quiet s.db db r)
    (hat : At render migrations s.db.rows.length pc (db.active r)) :
    Inv render migrations ⟨db,Function.update s.pc r pc⟩ where
  rows := by
    rw [hq.rows]
    exact h.rows
  log := by
    rw [hq.rows,hq.committed]
    exact h.log
  exclusive := hq.exclusive h.exclusive
  at_pc u := by
    rw [hq.rows]
    by_cases hu : u = r
    · subst hu
      dsimp only
      rw [Function.update_self]
      exact hat
    · dsimp only
      rw [Function.update_of_ne hu,hq.active u hu]
      exact h.at_pc u

theorem serve_quiet (hr : request ≠ .commit)
    (hs : s.db.serve version r request = some (db,answer)) : Quiet s.db db r := by
  cases request with
  | lastMigration | postgresVersion =>
    cases hs
    exact .refl _ r
  | begin =>
    cases hs
    exact ⟨rfl,rfl,fun u hu => TxStore.begin_active_of_ne hu,TxStore.Exclusive.begin⟩
  | execute statement =>
    cases hs
    exact ⟨rfl,rfl,fun u hu => TxStore.append_active_of_ne hu,fun h => h.append⟩
  | insert row =>
    simp only [Db.serve] at hs
    split at hs
    · split at hs
      · cases hs
      · cases hs
        exact .refl _ r
      · next db' hi =>
        cases hs
        obtain ⟨-,-,rfl⟩ := TxStore.insert_inserted hi
        exact ⟨rfl,rfl,fun u hu => Function.update_of_ne hu ..,fun he => he.insert hi⟩
    · cases hs
      exact .refl _ r
  | commit => exact absurd rfl hr

omit [DecidableEq R] in
theorem At.of_ended {tx : Option (Tx MigrationRow Statement)} (h : At render migrations k pc tx)
    (hpc : pc.ended = true) (tx' : Option (Tx MigrationRow Statement)) : At render migrations k pc tx' := by
  cases pc with
  | returned result => cases result <;> exact h
  | crashed => exact trivial
  | fetchLastMigration | fetchPostgresVersion | beginInstall | createSchema | createTable | commitInstall | begin
  | insert | execute | commit => cases hpc

theorem migrationsFrom_inTransaction (last : LastMigration) (highest : ℕ) (todo : List GraphileWorkerMigration) :
    (migrationsFrom last highest todo).inTransaction = false := by
  induction todo generalizing highest with
  | nil => rfl
  | cons m rest ih =>
    simp only [migrationsFrom]
    split
    · rfl
    · exact ih _

theorem gotLastMigration_inTransaction (last : LastMigration) :
    (Pc.gotLastMigration migrations last).inTransaction = false := by
  unfold Pc.gotLastMigration
  split
  · rfl
  · exact migrationsFrom_inTransaction ..

theorem resume_error (migrations : List GraphileWorkerMigration)
    (hr : pc.request render = some request) (hi : pc.inserting = true → isClashError e = false) :
    (∃ result, pc.resume migrations (.error e) = .returned (.error result)) ∨
      (∃ delays, pc.resume migrations (.error e) = .fetchLastMigration delays) ∨
      ∃ delays, pc.resume migrations (.error e) = .fetchPostgresVersion delays := by
  have hinstall : ∀ delays, (∃ result, installFailed delays e = .returned (.error result)) ∨
      (∃ ds, installFailed delays e = .fetchLastMigration ds) ∨
      ∃ ds, installFailed delays e = .fetchPostgresVersion ds := by
    intro delays
    unfold installFailed
    split
    · cases delays with
      | nil => exact .inl ⟨_,rfl⟩
      | cons d rest => exact .inr (.inl ⟨rest,rfl⟩)
    · exact .inl ⟨_,rfl⟩
  cases pc with
  | fetchLastMigration delays =>
    simp only [Pc.resume]
    split
    · exact .inr (.inr ⟨delays,rfl⟩)
    · exact .inl ⟨_,rfl⟩
  | fetchPostgresVersion delays | beginInstall delays | createSchema delays | createTable delays
  | commitInstall delays => exact hinstall delays
  | insert i =>
    simp only [Pc.resume,hi rfl]
    exact .inl ⟨_,rfl⟩
  | begin | execute | commit => exact .inl ⟨_,rfl⟩
  | returned | crashed => cases hr

theorem commitInstall_quiet (h : s.db.active r = some ⟨[],[.createSchema,.createMigrationTable]⟩) :
    Quiet s.db (s.db.commit r) r where
  rows := by rw [TxStore.commit_rows h,List.append_nil]
  committed := by simp [Db.committed,TxStore.commit_log h,Statement.ofMigration]
  active u hu := TxStore.commit_active_of_ne hu
  exclusive := TxStore.Exclusive.commit

section
variable (h : Inv render migrations s)
include h

theorem Inv.resume_inside (pc : Pc)
    (hq : Quiet s.db db r) (hpc : (s.pc r).resume migrations answer = pc) (hin : pc.inTransaction = true)
    (hat : At render migrations s.db.rows.length pc (db.active r)) :
    Inv render migrations (s.resume migrations r db answer) := by
  subst hpc
  rw [System.resume,if_pos (by rw [hin,Bool.true_or])]
  exact h.quiet hq hat

theorem Inv.resume_outside (pc : Pc)
    (hq : Quiet s.db db r) (hpc : (s.pc r).resume migrations answer = pc) (hin : pc.inTransaction = false)
    (hat : At render migrations s.db.rows.length pc none) :
    Inv render migrations (s.resume migrations r db answer) := by
  subst hpc
  cases hend : ((s.pc r).resume migrations answer).ended with
  | true =>
    rw [System.resume,if_pos (by rw [hend,Bool.or_true])]
    exact h.quiet hq (hat.of_ended hend _)
  | false =>
    rw [System.resume,if_neg (by rw [hin,hend]; decide)]
    refine h.quiet hq.rollback ?_
    rw [TxStore.rollback_active_self]
    exact hat

theorem Inv.failed (hq : Quiet s.db db r)
    (hr : (s.pc r).request render = some request) (hi : (s.pc r).inserting = true → isClashError e = false) :
    Inv render migrations (s.resume migrations r db (.error e)) := by
  obtain ⟨result,hpc⟩ | ⟨delays,hpc⟩ | ⟨delays,hpc⟩ := resume_error migrations hr hi
  · exact h.resume_outside _ hq hpc rfl trivial
  · exact h.resume_outside _ hq hpc rfl rfl
  · exact h.resume_outside _ hq hpc rfl rfl

omit [DecidableEq R] in
theorem Inv.id_le (hn : Numbered migrations) {x : MigrationRow} (hx : x ∈ s.db.rows) :
    x.id ≤ s.db.rows.length := by
  obtain ⟨before,after,he⟩ := List.append_of_mem hx
  obtain ⟨tail,ht⟩ := h.rows
  rw [he,List.append_assoc,List.cons_append] at ht
  obtain ⟨done,rest,rfl,hdone,hrest⟩ := List.map_eq_append_iff.mp ht.symm
  obtain ⟨m,rest',rfl,rfl,-⟩ := List.map_eq_cons_iff.mp hrest
  have hnum := hn.number_eq
  have hlen : done.length = before.length := by rw [← hdone,List.length_map]
  have hid : (row m).id = (before.length + 1 : ℕ) := by rw [row,hnum,hlen]
  rw [hid,he,List.length_append,List.length_cons]
  omega

omit [DecidableEq R] in
theorem Inv.last_le (hn : Numbered migrations) (id : ℤ)
    (hid : (s.db.lastMigration version).id = some id) : id ≤ s.db.rows.length := by
  obtain ⟨x,hx,rfl⟩ := List.mem_map.mp (List.max?_mem hid)
  exact h.id_le hn hx

omit [DecidableEq R] in
theorem Inv.next_of_commit (hi : i.Valid migrations s.db.rows.length)
    (htx : s.db.active r = some (migrationTx render i.migration i.migration.stmts)) :
    ∃ done, migrations = done ++ i.migration :: i.rest ∧ done.length = s.db.rows.length := by
  obtain ⟨done,he,hle⟩ := hi.past
  refine ⟨done,he,le_antisymm hle ?_⟩
  -- otherwise its row would be among the committed ones
  by_contra hlt
  have hrow : row i.migration ∈ s.db.rows := by
    obtain ⟨tail,ht⟩ := h.rows
    have hget : (migrations.map row)[done.length]? = some (row i.migration) := by simp [he]
    rw [← ht,List.getElem?_append_left (by omega)] at hget
    exact List.mem_of_getElem? hget
  exact (h.exclusive r _ htx (row i.migration) (by simp [migrationTx])).2 _ hrow rfl

theorem Inv.committed (hn : Numbered migrations)
    (hi : i.Valid migrations s.db.rows.length)
    (htx : s.db.active r = some (migrationTx render i.migration i.migration.stmts))
    (hat : ∀ k, k ≤ migrations.length → i.Valid migrations k → i.migration.migrationNumber ≤ k →
      At render migrations k pc none) :
    Inv render migrations ⟨s.db.commit r,Function.update s.pc r pc⟩ := by
  obtain ⟨done,he,hlen⟩ := h.next_of_commit hi htx
  have hrows : (s.db.commit r).rows = s.db.rows ++ [row i.migration] := TxStore.commit_rows htx
  have hinitial : s.db.rows = done.map row := by
    have hp := List.prefix_iff_eq_take.mp h.rows
    rw [hp,he,← hlen]
    simp
  have hle : (s.db.rows ++ [row i.migration]).length ≤ migrations.length := by
    rw [he,hinitial]
    simp
  refine ⟨?_,?_,h.exclusive.commit,fun u => ?_⟩
  · rw [hrows,he,hinitial]
    exact ⟨i.rest.map row,by simp⟩
  · have hlog : Db.committed (s.db.commit r) = s.db.committed ++ i.migration.statements render := by
      simp [Db.committed,TxStore.commit_log htx,migrationTx,GraphileWorkerMigration.statements,List.filterMap_map,
        Function.comp_def,Statement.ofMigration]
    rw [hlog,h.log,hrows,he,← hlen,List.length_append,← hlen]
    simp [List.take_append,List.take_of_length_le]
  · dsimp only
    rw [hrows]
    by_cases hu : u = r
    · subst hu
      rw [Function.update_self,TxStore.commit_active_self]
      refine hat _ hle (hi.mono (by simp)) ?_
      rw [he] at hn
      rw [hn.number_eq,hlen]
      simp
    · rw [Function.update_of_ne hu,TxStore.commit_active_of_ne hu]
      exact (h.at_pc u).mono (by simp) hle

theorem Inv.rollback (hend : (s.pc r).ended = true) :
    Inv render migrations { s with db := s.db.rollback r } where
  rows := h.rows
  log := h.log
  exclusive := h.exclusive.rollback
  at_pc u := by
    by_cases hu : u = r
    · subst hu
      exact (h.at_pc u).of_ended hend _
    · dsimp only
      rw [TxStore.rollback_active_of_ne hu]
      exact h.at_pc u

theorem Inv.resume_commit (hn : Numbered migrations)
    (hpc : s.pc r = .commit i) (answer : Except DbError Reply) :
    Inv render migrations (s.resume migrations r (s.db.commit r) answer) := by
  have hat := h.at_pc r
  rw [hpc] at hat
  have hnext : ∀ k, k ≤ migrations.length → i.Valid migrations k → i.migration.migrationNumber ≤ k →
      At render migrations k ((s.pc r).resume migrations answer) none := by
    intro k hk hi hm
    rw [hpc]
    cases answer with
    | ok reply => exact hi.next hn hm hk
    | error e => exact trivial
  have hinv := h.committed hn hat.1 hat.2 hnext
  unfold System.resume
  dsimp only
  split
  · exact hinv
  · refine ⟨hinv.rows,hinv.log,hinv.exclusive.rollback,fun u => ?_⟩
    have hu := hinv.at_pc u
    dsimp only at hu ⊢
    by_cases hur : u = r
    · subst hur
      rwa [TxStore.commit_active_self,← TxStore.rollback_active_self (s := s.db.commit u)] at hu
    · rwa [TxStore.rollback_active_of_ne hur]

theorem Inv.served_insert (hn : Numbered migrations)
    (hpc : s.pc r = .insert i) (hr : (s.pc r).request render = some request)
    (hs : s.db.serve version r request = some (db,answer)) :
    Inv render migrations (s.resume migrations r db answer) := by
  have hat := h.at_pc r
  rw [hpc] at hr hat
  cases hr
  have hq := serve_quiet (by simp) hs
  simp only [Db.serve] at hs
  split at hs
  · split at hs
    · cases hs
    · next hdup =>
      -- the row that is there already is a committed one
      cases hs
      obtain ⟨y,hy,hid⟩ := TxStore.insert_duplicate hdup
      have hle := h.id_le hn hy
      rw [hid] at hle
      exact h.resume_outside i.next hq (by rw [hpc]; rfl) (migrationsFrom_inTransaction ..)
        (hat.1.next hn (Int.ofNat_le.mp hle) h.length_le)
    · next db' hins =>
      cases hs
      obtain ⟨-,-,rfl⟩ := TxStore.insert_inserted hins
      refine h.resume_inside (i.execute i.migration.stmts) hq (by rw [hpc]; rfl) (i.execute_inTransaction _) ?_
      have htx := hat.1.execute render (List.nil_append i.migration.stmts).symm
      simpa only [Function.update_self,hat.2,Option.map_some,List.nil_append,migrationTx,List.map_nil] using htx
  · cases hs
    exact h.failed hq (by rw [hpc]; rfl) fun _ => by decide

theorem Inv.served (hn : Numbered migrations)
    (hr : (s.pc r).request render = some request) (hs : s.db.serve version r request = some (db,answer)) :
    Inv render migrations (s.resume migrations r db answer) := by
  have hat := h.at_pc r
  cases hpc : s.pc r with
  | fetchLastMigration delays =>
    rw [hpc] at hr
    cases hr
    simp only [Db.serve] at hs
    cases hs
    split
    · refine h.resume_outside (Pc.gotLastMigration migrations (s.db.lastMigration version)) (.refl _ r)
        (by rw [hpc]; rfl) (gotLastMigration_inTransaction _) ?_
      exact at_gotLastMigration hn (h.last_le hn) h.length_le
    · refine h.failed (.refl _ r) (by rw [hpc]; rfl) fun hi => ?_
      rw [hpc] at hi
      cases hi
  | fetchPostgresVersion delays =>
    rw [hpc] at hr
    cases hr
    cases hs
    cases hv : checkPostgresVersion version with
    | error e =>
      exact h.resume_outside (.returned (.error e)) (.refl _ r) (by simp only [hpc,Pc.resume,hv]) rfl trivial
    | ok v => exact h.resume_outside (.beginInstall delays) (.refl _ r) (by simp only [hpc,Pc.resume,hv]) rfl rfl
  | beginInstall delays =>
    rw [hpc] at hr
    cases hr
    have hq := serve_quiet (by simp) hs
    cases hs
    exact h.resume_inside (.createSchema delays) hq (by rw [hpc]; rfl) rfl TxStore.begin_active_self
  | createSchema delays =>
    rw [hpc] at hr hat
    cases hr
    have hq := serve_quiet (by simp) hs
    cases hs
    have htx : s.db.active r = some {} := hat
    refine h.resume_inside (.createTable delays) hq (by rw [hpc]; rfl) rfl ?_
    simp only [At,TxStore.append_active_self,htx,Option.map_some,List.nil_append]
  | createTable delays =>
    rw [hpc] at hr hat
    cases hr
    have hq := serve_quiet (by simp) hs
    cases hs
    have htx : s.db.active r = some ⟨[],[.createSchema]⟩ := hat
    refine h.resume_inside (.commitInstall delays) hq (by rw [hpc]; rfl) rfl ?_
    simp only [At,TxStore.append_active_self,htx,Option.map_some,List.cons_append,List.nil_append]
  | commitInstall delays =>
    rw [hpc] at hr hat
    cases hr
    cases hs
    refine h.resume_outside (Pc.gotLastMigration migrations {}) (commitInstall_quiet hat) (by rw [hpc]; rfl)
      (gotLastMigration_inTransaction _) ?_
    exact at_gotLastMigration hn nofun h.length_le
  | begin i =>
    rw [hpc] at hr hat
    cases hr
    have hq := serve_quiet (by simp) hs
    cases hs
    exact h.resume_inside (.insert i) hq (by rw [hpc]; rfl) rfl ⟨hat.1,TxStore.begin_active_self⟩
  | insert i => exact h.served_insert hn hpc hr hs
  | execute i stmts =>
    rw [hpc] at hr hat
    cases stmts with
    | nil => cases hr
    | cons stmt rest =>
      cases hr
      have hq := serve_quiet (by simp) hs
      cases hs
      obtain ⟨hi,done,hdone,htx⟩ := hat
      refine h.resume_inside (i.execute rest) hq (by rw [hpc]; rfl) (i.execute_inTransaction rest) ?_
      have hnext := hi.execute render (hdone.trans (List.append_cons done stmt rest))
      simpa only [TxStore.append_active_self,htx,Option.map_some,migrationTx,List.map_append,List.map_cons,
        List.map_nil] using hnext
  | commit i =>
    rw [hpc] at hr
    cases hr
    cases hs
    exact h.resume_commit hn hpc _
  | returned result =>
    rw [hpc] at hr
    cases hr
  | crashed =>
    rw [hpc] at hr
    cases hr

end

omit [DecidableEq R] in
theorem request_commit (h : pc.request render = some .commit) :
    (∃ delays, pc = .commitInstall delays) ∨ ∃ i, pc = .commit i := by
  cases pc with
  | commitInstall delays => exact .inl ⟨delays,rfl⟩
  | commit i => exact .inr ⟨i,rfl⟩
  | execute i stmts => cases stmts <;> cases h
  | fetchLastMigration | fetchPostgresVersion | beginInstall | createSchema | createTable | begin | insert
  | returned | crashed => cases h

theorem inv_step (hn : Numbered migrations) {a : Action R} {s' : System R} (ha : Admissible s a)
    (hs : migrateStep render version migrations s a = some s') (h : Inv render migrations s) :
    Inv render migrations s' := by
  cases a with
  | serve r =>
    simp only [migrateStep,Option.bind_eq_bind,Option.bind_eq_some_iff] at hs
    obtain ⟨request,hr,⟨db,answer⟩,hserve,hs⟩ := hs
    cases hs
    exact h.served hn hr hserve
  | fail r executed e =>
    simp only [migrateStep,Option.bind_eq_bind,Option.bind_eq_some_iff] at hs
    obtain ⟨request,hr,hs⟩ := hs
    cases executed with
    | false =>
      cases hs
      exact h.failed (.refl _ r) hr ha
    | true =>
      simp only [if_true,Option.bind_eq_some_iff] at hs
      obtain ⟨⟨db,answer⟩,hserve,hs⟩ := hs
      cases hs
      by_cases hc : request = .commit
      · -- the commit took place, but the run is told otherwise
        subst hc
        cases hserve
        obtain ⟨delays,hpc⟩ | ⟨i,hpc⟩ := request_commit hr
        · have hat := h.at_pc r
          rw [hpc] at hat
          exact h.failed (commitInstall_quiet hat) hr ha
        · exact h.resume_commit hn hpc _
      · exact h.failed (serve_quiet hc hserve) hr ha
  | crash r =>
    simp only [migrateStep] at hs
    split at hs
    · cases hs
    · cases hs
      exact h.quiet (.refl _ r) trivial
  | rollback r =>
    simp only [migrateStep] at hs
    split at hs
    · next hend =>
      cases hs
      exact h.rollback hend
    · cases hs

end Steps

end

theorem take_graphileWorkerMigrations (sql : ℕ → List String) {k : ℕ} (hk : k ≤ 22) :
    (graphileWorkerMigrations sql).take k = (List.range' 1 k).map (generatedMigration sql) := by
  have hsplit : List.range' 1 k ++ List.range' (1 + k) (22 - k) = List.range' 1 22 := by
    rw [List.range'_append_1,Nat.add_sub_cancel' hk]
  rw [graphileWorkerMigrations,← List.map_take,← hsplit,List.take_left' List.length_range']

/-- The rows of `migrations` are `1` to `k`, the committed statements are theirs, in order and each once, and a
run that has returned `Ok` leaves no migration out. -/
theorem committed_migrations_are_initial (sql : ℕ → List String) (render : String → String) (version : List Char)
    {R : Type} [DecidableEq R] {s : System R}
    (h : Reaches (migrateStep render version (graphileWorkerMigrations sql)) Admissible {} s) :
    ∃ k ≤ 22, s.db.rows.map MigrationRow.id = (List.range' 1 k).map Nat.cast ∧
      s.db.committed = (List.range' 1 k).flatMap (fun n => (sql n).map fun stmt => (n,render stmt)) ∧
      (∀ n stmt, (n,stmt) ∈ s.db.committed → n ≤ k) ∧ ∀ r, s.pc r = .returned (.ok ()) → k = 22 := by
  have hinit : Inv render (graphileWorkerMigrations sql) ({} : System R) :=
    ⟨List.nil_prefix,rfl,fun _ _ htx => (by cases htx),fun _ => rfl⟩
  have hinv := h.invariant (fun _ _ _ ha hs => inv_step (graphileWorkerMigrations_numbered sql) ha hs) hinit
  have hk : s.db.rows.length ≤ 22 := by simpa [graphileWorkerMigrations] using hinv.length_le
  have hnumber : ∀ n ∈ List.range' 1 s.db.rows.length, (generatedMigration sql n).migrationNumber = n := by
    intro n hn
    refine generatedMigration_number sql ?_
    simp only [List.mem_range'_1] at hn ⊢
    omega
  have hlog : s.db.committed = (List.range' 1 s.db.rows.length).flatMap
      (fun n => (sql n).map fun stmt => (n,render stmt)) := by
    rw [hinv.log,take_graphileWorkerMigrations sql hk,List.flatMap_map]
    refine List.flatMap_congr fun n hn => ?_
    rw [GraphileWorkerMigration.statements,hnumber n hn]
    rfl
  refine ⟨s.db.rows.length,hk,?_,hlog,fun n stmt hmem => ?_,fun r hr => ?_⟩
  · have hrows := List.prefix_iff_eq_take.mp hinv.rows
    rw [← List.map_take,take_graphileWorkerMigrations sql hk] at hrows
    rw [hrows,List.length_map,List.length_map,List.length_range',List.map_map,List.map_map]
    refine List.map_congr_left fun n hn => ?_
    exact congrArg Nat.cast (hnumber n hn)
  · rw [hlog] at hmem
    obtain ⟨n',hn',hmem⟩ := List.mem_flatMap.mp hmem
    obtain ⟨stmt',-,he⟩ := List.mem_map.mp hmem
    cases he
    have := List.mem_range'_1.mp hn'
    omega
  · have hat := hinv.at_pc r
    rw [hr] at hat
    simpa [graphileWorkerMigrations] using (show s.db.rows.length = _ from hat)

theorem Pc.eq_of_returnedOk {pc : Pc} (h : pc.returnedOk = true) : pc = .returned (.ok ()) := by
  unfold Pc.returnedOk at h
  split at h
  · rfl
  · cases h

/-- Two runs install the schema at once and one of them clashes; the other crashes
inside the first migration. -/
def threeRuns {R : Type} (p q r : R) : List (Action R) :=
  List.replicate 4 (Action.serve p) ++ List.replicate 3 (Action.serve q) ++ [Action.fail q false ⟨some "42P06"⟩] ++
  List.replicate 4 (Action.serve p) ++ [Action.serve q,.serve q,.serve r,.crash p,.rollback p] ++
  List.replicate 87 (Action.serve q) ++ List.replicate 44 (Action.serve r)

def threeRunsStep : System (Fin 3) → Action (Fin 3) → Option (System (Fin 3)) :=
  migrateStep id ['1','6','0','0','0','4'] (graphileWorkerMigrations fun _ => ["select 1"])

theorem three_runs_reach_last :
    ∃ s, Reaches threeRunsStep Admissible {} s ∧ s.pc 1 = .returned (.ok ()) ∧ s.pc 2 = .returned (.ok ()) ∧
      s.db.rows.map MigrationRow.id = (List.range' 1 22).map Nat.cast := by
  obtain ⟨s,hreach,hok⟩ : ∃ s, Reaches threeRunsStep Admissible {} s ∧
      (s.pc 1).returnedOk = true ∧ (s.pc 2).returnedOk = true :=
    exists_reaches_of_exec (threeRuns 0 1 2) (by decide +kernel)
  have h1 := Pc.eq_of_returnedOk hok.1
  obtain ⟨k,-,hrows,-,-,hlast⟩ := committed_migrations_are_initial (fun _ => ["select 1"]) id _ hreach
  obtain rfl := hlast 1 h1
  exact ⟨s,hreach,h1,Pc.eq_of_returnedOk hok.2,hrows⟩

end GraphileWorker.Migrations
