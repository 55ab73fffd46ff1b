import GraphileWorker.Foundation.Parsing
import GraphileWorker.Foundation.Runs
import GraphileWorker.Foundation.Transactions
import Mathlib.Data.Int.Notation

/-! # `migrate` at the grain of single statements

`request` is what a run asks next and `resume` what the code does with the answer. A request
may also fail, before or after it was executed, and a run may crash at any point.
-/
namespace GraphileWorker.Migrations
open Foundation

structure DbError where
  code : Option String
  deriving DecidableEq

def clashCodes : List String := ["23505","42P06","42P07","42710"]

def isClashError (error : DbError) : Bool := error.code.any fun code => clashCodes.contains code

inductive MigrateError
  | parseVersionError
  | incompatibleVersion (version : ℕ)
  | incompatbleRevision (latestMigration latestBreakingMigration : ℤ) (highestMigration : ℕ)
  | sqlError (error : DbError)
  | lockedJobInMigration11
  deriving DecidableEq

structure GraphileWorkerMigration where
  name : List Char
  isBreaking : Bool
  stmts : List String

def parseU32 (text : List Char) : Option ℕ :=
  match Parsing.u32 (if text.head? = some '+' then text.tail else text) with
  | .ok ([],n) => some n
  | _ => none

/-- The six digits after the first letter; every generated name has them. -/
def GraphileWorkerMigration.migrationNumber (m : GraphileWorkerMigration) : ℕ :=
  (parseU32 ((m.name.drop 1).take 6)).getD 0

/-- `format!("m{number:06}")`. -/
def migrationName (number : ℕ) : List Char := 'm' :: (Nat.toDigits 10 number).leftpad 6 '0'

/-- What is generated from a migration's file; `sql` gives the statements of each. -/
def generatedMigration (sql : ℕ → List String) (n : ℕ) : GraphileWorkerMigration :=
  ⟨migrationName n,[1,3,11,13,14,16].contains n,sql n⟩

/-- The files `m000001.sql` to `m000022.sql`. -/
def graphileWorkerMigrations (sql : ℕ → List String) : List GraphileWorkerMigration :=
  (List.range' 1 22).map (generatedMigration sql)

structure LastMigration where
  serverVersionNum : List Char := ['1','2','0','0','0','0']
  id : Option ℤ := none
  biggestBreakingId : Option ℤ := none

def LastMigration.isBeforeNumber (last : LastMigration) (migrationNumber : ℕ) : Bool :=
  let migrationId := last.id.bind fun id => if 0 ≤ id then some id.toNat else none
  last.id.isNone || decide (migrationNumber > migrationId.getD 0)

def checkPostgresVersion (version : List Char) : Except MigrateError ℕ :=
  match parseU32 version with
  | none => .error .parseVersionError
  | some v => if v < 120000 then .error (.incompatibleVersion v) else .ok v

def checkCompatibleRevision (latestMigration latestBreakingMigration : Option ℤ) (highestMigration : ℕ) :
    Except MigrateError Unit :=
  match latestBreakingMigration with
  | none => .ok ()
  | some breaking =>
    if highestMigration < (breaking % 4294967296).toNat then
      .error (.incompatbleRevision (latestMigration.getD 0) breaking highestMigration)
    else .ok ()

/-- The error that `check_migration_error` makes of a failed statement. -/
def migrationError (migrationNumber : ℕ) (error : DbError) : MigrateError :=
  if migrationNumber = 11 ∧ error.code = some "22012" then .lockedJobInMigration11 else .sqlError error

structure MigrationRow where
  id : ℤ
  breaking : Bool
  deriving DecidableEq

inductive Statement
  | createSchema
  | createMigrationTable
  /-- A statement of a migration, with the schema's name filled in. -/
  | migration (number : ℕ) (sql : String)
  deriving DecidableEq

inductive Request
  | lastMigration
  | postgresVersion
  | begin
  | execute (statement : Statement)
  | insert (row : MigrationRow)
  | commit

inductive Reply
  | done
  | lastMigration (last : LastMigration)
  | postgresVersion (version : List Char)

/-- The committed rows of `migrations`, the committed statements, and the open transactions. -/
abbrev Db (R : Type) := TxStore R MigrationRow Statement ℤ

namespace Db
variable {R : Type} [DecidableEq R]

def installed (db : Db R) : Bool := db.log.contains .createMigrationTable

def lastMigration (version : List Char) (db : Db R) : LastMigration where
  serverVersionNum := version
  id := (db.rows.map MigrationRow.id).max?
  biggestBreakingId := ((db.rows.filter MigrationRow.breaking).map MigrationRow.id).max?

/-- What the database does with a request and answers; `none` while the request has to wait. -/
def serve (version : List Char) (db : Db R) (r : R) : Request → Option (Db R × Except DbError Reply)
  | .lastMigration =>
    some (db,if db.installed then .ok (.lastMigration (db.lastMigration version)) else .error ⟨some "42P01"⟩)
  | .postgresVersion => some (db,.ok (.postgresVersion version))
  | .begin => some (db.begin r,.ok .done)
  | .execute statement => some (db.append r statement,.ok .done)
  | .insert row =>
    if db.installed then
      match db.insert MigrationRow.id r row with
      | .blocked => none
      | .duplicate => some (db,.error ⟨some "23505"⟩)
      | .inserted db' => some (db',.ok .done)
    else some (db,.error ⟨some "42P01"⟩)
  | .commit => some (db.commit r,.ok .done)

end Db

/-- The `for` loop of `migrate` at `migration`. -/
structure Iteration where
  last : LastMigration
  migration : GraphileWorkerMigration
  rest : List GraphileWorkerMigration
  highestMigration : ℕ

/-- Where a run stands. While it installs the schema it knows the delays that are
left; the sleep before the next attempt does nothing but let the others go on. -/
inductive Pc
  | fetchLastMigration (retryDelays : List ℕ)
  | fetchPostgresVersion (retryDelays : List ℕ)
  | beginInstall (retryDelays : List ℕ)
  | createSchema (retryDelays : List ℕ)
  | createTable (retryDelays : List ℕ)
  | commitInstall (retryDelays : List ℕ)
  | begin (i : Iteration)
  | insert (i : Iteration)
  | execute (i : Iteration) (stmts : List String)
  | commit (i : Iteration)
  | returned (result : Except MigrateError Unit)
  | crashed

def installRetryDelays : List ℕ := [50,100,200]

def row (m : GraphileWorkerMigration) : MigrationRow := ⟨m.migrationNumber,m.isBreaking⟩

/-- The `for` loop up to the next migration that is to be run. -/
def migrationsFrom (last : LastMigration) (highestMigration : ℕ) : List GraphileWorkerMigration → Pc
  | [] => .returned (checkCompatibleRevision last.id last.biggestBreakingId highestMigration)
  | m :: rest =>
    let highest := if m.migrationNumber > highestMigration then m.migrationNumber else highestMigration
    if last.isBeforeNumber m.migrationNumber then .begin ⟨last,m,rest,highest⟩ else migrationsFrom last highest rest

def Iteration.next (i : Iteration) : Pc := migrationsFrom i.last i.highestMigration i.rest

def Iteration.execute (i : Iteration) : List String → Pc
  | [] => .commit i
  | stmts => .execute i stmts

def installFailed (retryDelays : List ℕ) (error : DbError) : Pc :=
  if isClashError error then
    match retryDelays with
    | [] => .returned (.error (.sqlError error))
    | _ :: rest => .fetchLastMigration rest
  else .returned (.error (.sqlError error))

namespace Pc

def ended : Pc → Bool
  | .returned _ | .crashed => true
  | _ => false

def inTransaction : Pc → Bool
  | .createSchema _ | .createTable _ | .commitInstall _ | .insert _ | .execute _ _ | .commit _ => true
  | _ => false

def inserting : Pc → Bool
  | .insert _ => true
  | _ => false

def returnedOk : Pc → Bool
  | .returned (.ok _) => true
  | _ => false

section
variable (render : String → String) (migrations : List GraphileWorkerMigration)

def request : Pc → Option Request
  | .fetchLastMigration _ => some .lastMigration
  | .fetchPostgresVersion _ => some .postgresVersion
  | .beginInstall _ => some .begin
  | .createSchema _ => some (.execute .createSchema)
  | .createTable _ => some (.execute .createMigrationTable)
  | .commitInstall _ => some .commit
  | .begin _ => some .begin
  | .insert i => some (.insert (row i.migration))
  | .execute i stmts => stmts.head?.map fun stmt => .execute (.migration i.migration.migrationNumber (render stmt))
  | .commit _ => some .commit
  | .returned _ | .crashed => none

/-- `migrate` from the point where `get_last_migration` has returned. -/
def gotLastMigration (last : LastMigration) : Pc :=
  match checkPostgresVersion last.serverVersionNum with
  | .error e => .returned (.error e)
  | .ok _ => migrationsFrom last 0 migrations

def resume : Pc → Except DbError Reply → Pc
  | .fetchLastMigration _, .ok (.lastMigration last) => gotLastMigration migrations last
  | .fetchLastMigration delays, .error e =>
    if e.code = some "42P01" then .fetchPostgresVersion delays else .returned (.error (.sqlError e))
  | .fetchPostgresVersion delays, .ok (.postgresVersion version) =>
    match checkPostgresVersion version with
    | .error e => .returned (.error e)
    | .ok _ => .beginInstall delays
  | .beginInstall delays, .ok _ => .createSchema delays
  | .createSchema delays, .ok _ => .createTable delays
  | .createTable delays, .ok _ => .commitInstall delays
  | .commitInstall _, .ok _ => gotLastMigration migrations {}
  | .fetchPostgresVersion delays, .error e | .beginInstall delays, .error e | .createSchema delays, .error e
  | .createTable delays, .error e | .commitInstall delays, .error e => installFailed delays e
  | .begin i, .ok _ => .insert i
  | .insert i, .ok _ => i.execute i.migration.stmts
  | .insert i, .error e => if isClashError e then i.next else .returned (.error (.sqlError e))
  | .execute i stmts, .ok _ => i.execute stmts.tail
  | .execute i _, .error e => .returned (.error (migrationError i.migration.migrationNumber e))
  | .commit i, .ok _ => i.next
  | .begin _, .error e | .commit _, .error e => .returned (.error (.sqlError e))
  | pc, _ => pc

end

end Pc

structure System (R : Type) where
  db : Db R := {}
  pc : R → Pc := fun _ => .fetchLastMigration installRetryDelays

inductive Action (R : Type)
  | serve (r : R)
  /-- The request fails for a reason of its own, possibly after it was executed. -/
  | fail (r : R) (executed : Bool) (error : DbError)
  | crash (r : R)
  /-- The transaction of a run that is over is rolled back. -/
  | rollback (r : R)

section
variable (render : String → String) (version : List Char) (migrations : List GraphileWorkerMigration)
  {R : Type} [DecidableEq R]

/-- A transaction that goes out of scope while its run goes on has inserted no
row, so it does not matter when its rollback takes place. -/
def System.resume (s : System R) (r : R) (db : Db R) (answer : Except DbError Reply) : System R :=
  let pc := (s.pc r).resume migrations answer
  ⟨if pc.inTransaction || pc.ended then db else db.rollback r,Function.update s.pc r pc⟩

def migrateStep (s : System R) : Action R → Option (System R)
  | .serve r => do
    let request ← (s.pc r).request render
    let (db,answer) ← s.db.serve version r request
    some (s.resume migrations r db answer)
  | .fail r executed error => do
    let request ← (s.pc r).request render
    if executed then
      let (db,_) ← s.db.serve version r request
      some (s.resume migrations r db (.error error))
    else some (s.resume migrations r s.db (.error error))
  | .crash r => if (s.pc r).ended then none else some { s with pc := Function.update s.pc r .crashed }
  | .rollback r => if (s.pc r).ended then some { s with db := s.db.rollback r } else none

end

/-- Of the errors that tell a clash, an insert reports only its own: that the key exists. -/
def Admissible {R : Type} (s : System R) : Action R → Prop
  | .fail r _ error => (s.pc r).inserting = true → isClashError error = false
  | _ => True

instance {R : Type} (s : System R) (a : Action R) : Decidable (Admissible s a) := by
  cases a <;> unfold Admissible <;> infer_instance

end GraphileWorker.Migrations
