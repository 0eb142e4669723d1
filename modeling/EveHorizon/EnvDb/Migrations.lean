import EveHorizon.EnvDb.Reset
import EveHorizon.Library.Interference
import EveHorizon.Library.ReadCommitted

/-!
# Migrations of several deployers

The calls of `migrate` on one environment database, whose statements interleave. Each migration has
a transaction of its own; of what its text does, the model keeps that it was run, and what it does
to `schema_migrations`.
-/

namespace EveHorizon.EnvDb

open Interleaving ReadCommitted

structure AppliedSql where
  session : Nat
  index : Nat
  name : Text
  sql : Text

structure Ledger where
  schemaMigrations : Option (List MigrationRow) := none
  applied : List AppliedSql := []

def Ledger.rows (ledger : Ledger) : List MigrationRow := ledger.schemaMigrations.getD []

inductive LedgerQuery where
  /-- The settings and the search path of the session. -/
  | openSession
  | findTable
  | findMigration (name : Text)

inductive LedgerWrite where
  | createTable
  | runSql (applied : AppliedSql)
  | insertRow (row : MigrationRow)
  -- Only a migration's text deletes rows.
  | deleteRow (name : Text)

namespace LedgerWrite

def apply : LedgerWrite → Ledger → Ledger
  | .createTable, ledger => { ledger with schemaMigrations := some ledger.rows }
  | .runSql applied, ledger => { ledger with applied := ledger.applied ++ [applied] }
  | .insertRow row, ledger => { ledger with schemaMigrations := some (ledger.rows ++ [row]) }
  | .deleteRow name, ledger =>
    { ledger with schemaMigrations := some (ledger.rows.filter (·.name != name)) }

/-- The table is there already, or is missing; a name is the primary key. -/
def rejected : LedgerWrite → Ledger → Bool
  | .createTable, ledger => ledger.schemaMigrations.isSome
  | .runSql _, _ => false
  | .insertRow row, ledger =>
    ledger.schemaMigrations.isNone || ledger.rows.any (·.name == row.name)
  | .deleteRow _, ledger => ledger.schemaMigrations.isNone

def blocks : LedgerWrite → LedgerWrite → Bool
  | .createTable, .createTable => true
  | .insertRow held, .insertRow row => held.name == row.name
  | .insertRow held, .deleteRow name => held.name == name
  | .deleteRow name, .insertRow row => name == row.name
  | .deleteRow held, .deleteRow name => held == name
  | _, _ => false

end LedgerWrite

instance : Write LedgerWrite Ledger where
  apply := LedgerWrite.apply
  rejected := LedgerWrite.rejected
  blocks := LedgerWrite.blocks

abbrev LedgerDb := Database LedgerWrite Ledger

abbrev LedgerStatement := Request LedgerQuery LedgerWrite

abbrev LedgerCall := Call LedgerStatement LedgerDb EnvDbError

structure MigrateRequest where
  migrations : List Migration
  faults : Nat → Option (Nat × EnvDbError) := fun _ => none

def relationExists : Text := "relation \"schema_migrations\" already exists".toList

/-- What Node and the server make of a text: its digest, and what it does to `schema_migrations`. -/
structure TextReading where
  sha256 : Text → Text
  rewrites : Text → List LedgerWrite
  now : Nat → Nat → Timestamp

section

variable (reading : TextReading) (session : Nat)

def ensureTable : LedgerCall Unit := do
  let present ← query session .findTable fun ledger => ledger.schemaMigrations.isSome
  if present then return () else write session .createTable (.error relationExists)

def migrationBody (index : Nat) (migration : Migration) : LedgerCall MigrationRow := do
  query session .openSession fun _ => ()
  ensureTable session
  let existing ← query session (.findMigration migration.name) fun ledger =>
    ledger.rows.find? (·.name == migration.name)
  match existing with
  | some row =>
    if row.checksum = reading.sha256 migration.sql then return row
    else .raise (.badRequest (changedChecksum migration))
  | none => do
    write session (.runSql ⟨session, index, migration.name, migration.sql⟩)
      (.error (migrationFailed migration))
    Call.forEach (reading.rewrites migration.sql) fun change =>
      write session change (.error (migrationFailed migration))
    let row := ⟨migration.name, reading.sha256 migration.sql, reading.now session index⟩
    write session (.insertRow row) (.error duplicateMigration)
    return row

def failing {α : Type} (fault : Option (Nat × EnvDbError)) (call : LedgerCall α) : LedgerCall α :=
  match fault with
  | none => call
  | some (number, error) => call.failingAt error number

def migrateFrom (faults : Nat → Option (Nat × EnvDbError)) : Nat → List Migration → LedgerCall (List MigrationRow)
  | _, [] => return []
  | index, migration :: rest => do
    let row ← transaction session
      (failing (faults index) (migrationBody reading session index migration))
    let later ← migrateFrom faults (index + 1) rest
    return row :: later

def migrateCall (request : MigrateRequest) : LedgerCall (List MigrationRow) :=
  migrateFrom reading session request.faults 0 request.migrations

end

def runMigrations (reading : TextReading) (schedule : List (Choice MigrateRequest)) :
    System LedgerStatement LedgerDb EnvDbError (List MigrationRow) :=
  System.run (fun session request => migrateCall reading session request) { committed := {} } schedule

/-- Every recorded name has had a text of its checksum run once, and no other text was run. -/
structure AppliedOnce (sha256 : Text → Text) (ledger : Ledger) : Prop where
  recorded : ∀ row ∈ ledger.rows, ∃ applied,
    ledger.applied.filter (·.name == row.name) = [applied] ∧ row.checksum = sha256 applied.sql
  unrecorded : ∀ applied ∈ ledger.applied, ∃ row ∈ ledger.rows, row.name = applied.name

/-- A call whose list has a name that is recorded with another checksum does not return, and none
of its texts from there on is run. -/
def RefusesChanged (reading : TextReading) (schedule : List (Choice MigrateRequest)) : Prop :=
  ∀ session request, (operations schedule)[session]? = some request →
    ∀ index migration, request.migrations[index]? = some migration →
      ∀ row ∈ (runMigrations reading schedule).store.committed.rows, row.name = migration.name →
        row.checksum ≠ reading.sha256 migration.sql →
          (∀ applied ∈ (runMigrations reading schedule).store.committed.applied,
            applied.session = session → applied.index < index) ∧
          ∀ ending ∈ (runMigrations reading schedule).ended, ending.session = session →
            ∃ error, ending.result = .error error

structure MigrationsSound (reading : TextReading) (schedule : List (Choice MigrateRequest)) : Prop where
  once : AppliedOnce reading.sha256 (runMigrations reading schedule).store.committed
  refuses : RefusesChanged reading schedule

end EveHorizon.EnvDb
