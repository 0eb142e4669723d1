import EveHorizon.EnvDb.Sessions

/-!
# Migrations and resets, one call at a time

What `migrate` and `reset` make of the schemas of the databases when nothing else runs. What
Postgres does with a migration's text is a parameter: the text names what it works on without a
schema, so that it works on the schema of the search path.
-/

namespace EveHorizon.EnvDb

abbrev Timestamp := Int

structure Migration where
  name : Text
  sql : Text

structure MigrationRow where
  name : Text
  checksum : Text
  appliedAt : Timestamp

structure Contents (δ : Type) where
  objects : δ
  schemaMigrations : Option (List MigrationRow) := none

structure Postgres (δ : Type) where
  /-- The database that a connection string names. -/
  locate : Text → Text
  /-- The objects of a new schema. -/
  nothing : δ
  /-- What a text makes of the schema of the search path; none when it fails. -/
  exec : Text → Contents δ → Option (Contents δ)
  sha256 : Text → Text

structure SnapshotRequest where
  tenantId : String
  orgId : String
  projectId : String
  envId : String

/-- The schemas of every database. The rows by which the platform keeps track of its safety
snapshots stand apart. -/
structure World (δ : Type) where
  databases : Text → Text → Option (Contents δ)
  snapshots : List SnapshotRequest

variable {δ : Type}

def Postgres.newSchema (postgres : Postgres δ) : Contents δ where
  objects := postgres.nothing

def World.put (world : World δ) (database schema : Text) (contents : Option (Contents δ)) : World δ :=
  { world with
    databases := fun found name =>
      if found = database ∧ name = schema then contents else world.databases found name }

structure Session (δ : Type) where
  schemas : Text → Option (Contents δ)
  searchPath : Text

def Session.put (session : Session δ) (schema : Text) (contents : Option (Contents δ)) : Session δ :=
  { session with schemas := fun name => if name = schema then contents else session.schemas name }

def schemaExists (schema : Text) : Text := "schema \"".toList ++ schema ++ "\" already exists".toList

section

variable (postgres : Postgres δ)

def SessionStatement.run (session : Session δ) : SessionStatement → Except EnvDbError (Session δ)
  | .setReadOnly => .ok session
  | .ensureSchema schema =>
    match session.schemas schema with
    | some _ => .ok session
    | none => .ok (session.put schema (some postgres.newSchema))
  | .setSearchPath schema => .ok { session with searchPath := schema }
  | .setConfig _ _ => .ok session
  | .dropSchema schema => .ok (session.put schema none)
  | .createSchema schema =>
    match session.schemas schema with
    | some _ => .error (.error (schemaExists schema))
    | none => .ok (session.put schema (some postgres.newSchema))

def runStatements (statements : List SessionStatement) (session : Session δ) : Except EnvDbError (Session δ) :=
  statements.foldlM (SessionStatement.run postgres) session

/-- A transaction that may write: committed when the action returns, rolled back when it fails. -/
def withClient {α : Type} (config : EnvDbConfig) (context : DbContext)
    (action : Session δ → Except EnvDbError (α × Session δ)) (world : World δ) :
    Except EnvDbError α × World δ :=
  let database := postgres.locate config.url
  let opened : Session δ := { schemas := world.databases database, searchPath := publicSchema }
  match (do action (← runStatements postgres (openSession config context true false) opened)) with
  | .error error => (.error error, world)
  | .ok (value, session) =>
    (.ok value,
      { world with
        databases := fun found name =>
          if found = database then session.schemas name else world.databases found name })

def noSchemaSelected : Text := "no schema has been selected to create in".toList

def migrationsMissing : Text := "relation \"schema_migrations\" does not exist".toList

def migrationFailed (migration : Migration) : Text :=
  "migration ".toList ++ migration.name ++ " failed".toList

def duplicateMigration : Text :=
  "duplicate key value violates unique constraint \"schema_migrations_pkey\"".toList

def changedChecksum (migration : Migration) : Text :=
  "Migration ".toList ++ migration.name ++ " has changed checksum".toList

def applyMigration (now : Timestamp) (migration : Migration) (contents : Contents δ) :
    Except EnvDbError (MigrationRow × Contents δ) :=
  let rows := contents.schemaMigrations.getD []
  let ensured := { contents with schemaMigrations := some rows }
  match rows.find? (·.name == migration.name) with
  | some existing =>
    if existing.checksum = postgres.sha256 migration.sql then .ok (existing, ensured)
    else .error (.badRequest (changedChecksum migration))
  | none =>
    match postgres.exec migration.sql ensured with
    | none => .error (.error (migrationFailed migration))
    | some reached =>
      match reached.schemaMigrations with
      | none => .error (.error migrationsMissing)
      | some rows =>
        if rows.any (·.name == migration.name) then .error (.error duplicateMigration)
        else
          let row := ⟨migration.name, postgres.sha256 migration.sql, now⟩
          .ok (row, { reached with schemaMigrations := some (rows ++ [row]) })

def applyInSession (now : Timestamp) (migration : Migration) (session : Session δ) :
    Except EnvDbError (MigrationRow × Session δ) :=
  match session.schemas session.searchPath with
  | none => .error (.error noSchemaSelected)
  | some contents => do
    let (row, reached) ← applyMigration postgres now migration contents
    return (row, session.put session.searchPath (some reached))

def migrateAll (config : EnvDbConfig) (context : DbContext) (clock : Nat → Timestamp) :
    Nat → List Migration → World δ → Except EnvDbError (List MigrationRow) × World δ
  | _, [], world => (.ok [], world)
  | index, migration :: rest, world =>
    match withClient postgres config context (applyInSession postgres (clock index) migration)
      world with
    | (.error error, reached) => (.error error, reached)
    | (.ok row, reached) =>
      let (later, final) := migrateAll config context clock (index + 1) rest reached
      (later.map (row :: ·), final)

def applyAll (clock : Nat → Timestamp) :
    Nat → List Migration → Contents δ → Except EnvDbError (List MigrationRow) × Contents δ
  | _, [], contents => (.ok [], contents)
  | index, migration :: rest, contents =>
    match applyMigration postgres (clock index) migration contents with
    | .error error => (.error error, contents)
    | .ok (row, reached) =>
      let (later, final) := applyAll clock (index + 1) rest reached
      (later.map (row :: ·), final)

/-- What one of the migrations meets, once the ones before it are applied, is met by the first one or by a later one. -/
theorem reached_cons {meets : Migration → Contents δ → Prop} {clock : Nat → Timestamp} {index : Nat}
    {migration : Migration} {rest : List Migration} {contents : Contents δ} :
    (∃ before found after, migration :: rest = before ++ found :: after ∧ ∃ rows reached,
        applyAll postgres clock index before contents = (.ok rows, reached) ∧ meets found reached) ↔
      meets migration contents ∨ ∃ row next,
        applyMigration postgres (clock index) migration contents = .ok (row, next) ∧
          ∃ before found after, rest = before ++ found :: after ∧ ∃ rows reached,
            applyAll postgres clock (index + 1) before next = (.ok rows, reached) ∧ meets found reached := by
  constructor
  · rintro ⟨before, found, after, split, rows, reached, ran, met⟩
    cases before with
    | nil =>
      cases split
      cases ran
      exact .inl met
    | cons head before =>
      cases split
      rw [applyAll] at ran
      split at ran
      · cases ran
      · next row next applied =>
        dsimp only at ran
        rcases result : applyAll postgres clock (index + 1) before next with ⟨_ | later, last⟩
        · rw [result] at ran
          cases ran
        · rw [result] at ran
          cases ran
          exact .inr ⟨row, next, applied, before, found, after, rfl, later, _, result, met⟩
  · rintro (met | ⟨row, next, applied, before, found, after, rfl, rows, reached, ran, met⟩)
    · exact ⟨[], migration, rest, rfl, [], contents, rfl, met⟩
    · refine ⟨migration :: before, found, after, rfl, row :: rows, reached, ?_, met⟩
      rw [applyAll, applied]
      dsimp only
      rw [ran]
      rfl

end

structure ResetOptions where
  migrations : Option (List Migration) := none
  noMigrate : Bool := false
  force : Bool := false
  dangerResetProduction : Bool := false
  skipSnapshot : Bool := false

structure ResetResult where
  reset : Bool
  migrationsApplied : List MigrationRow

structure SnapshotTenant where
  id : String
  envId : String
  status : Text
  dbClass : Text
  snapshotOnReset : Option Bool
  credentialSecretRef : Option Text

structure ResetContext where
  groupsOf : String → PrincipalType → Text → List Text
  tenants : String → List SnapshotTenant
  /-- `createSnapshotStorageClient()` gives a client. -/
  snapshotStorage : Bool
  clock : Nat → Timestamp

def isProductionEnvName (name : Text) : Bool :=
  let normalized := Kubernetes.toLowerCase (Text.trim name)
  normalized == "production".toList || normalized == "prod".toList

def productionNeedsDanger : Text := "Resetting production requires danger_reset_production=true".toList

def resetNeedsForce : Text := "Reset requires force=true for non-production environments".toList

def migrationsRequired : Text := "migrations are required unless no_migrate=true".toList

def checkOptions (envName : Text) (options : ResetOptions) : Except EnvDbError Unit :=
  if isProductionEnvName envName then
    if options.dangerResetProduction then .ok () else .error (.badRequest productionNeedsDanger)
  else if options.force then .ok ()
  else .error (.badRequest resetNeedsForce)

def resolveSnapshotBooleanSetting (enabled : Option Bool) (dbClass : Text) : Bool :=
  enabled.getD (dbClass == "db.p2".toList || dbClass == "db.p3".toList)

section

variable (catalog : Catalog) (reading : ResetContext)

def preResetSnapshot (projectId : String) (envName : Text) (options : ResetOptions) : Option SnapshotRequest := do
  guard !options.skipSnapshot
  let env ← catalog.environment projectId envName
  let project ← catalog.project projectId
  let _ ← catalog.orgSlug project.orgId
  let tenant ← (reading.tenants project.orgId).find? fun tenant =>
    tenant.envId == env.id && tenant.status == "ready".toList
  guard (resolveSnapshotBooleanSetting tenant.snapshotOnReset tenant.dbClass)
  let _ ← truthy tenant.credentialSecretRef
  guard reading.snapshotStorage
  return { tenantId := tenant.id, orgId := project.orgId, projectId := project.id, envId := env.id }

variable (postgres : Postgres δ)

def migrate (projectId : String) (envName : Text) (migrations : List Migration)
    (context : DbContext) (world : World δ) : Except EnvDbError (List MigrationRow) × World δ :=
  match resolveEnvDb catalog projectId envName with
  | .error error => (.error error, world)
  | .ok resolved =>
    migrateAll postgres resolved.config (enrichContext reading.groupsOf context resolved.orgId)
      reading.clock 0 migrations world

def dropsPlatform (config : EnvDbConfig) : Bool :=
  postgres.locate config.url == postgres.locate catalog.databaseUrl

def platformMissing : Text := "relation \"projects\" does not exist".toList

def dropAll (resolved : ResolvedEnvDb) (context : DbContext) (world : World δ) : Except EnvDbError Unit × World δ :=
  withClient postgres resolved.config (enrichContext reading.groupsOf context resolved.orgId)
    (fun session => do return ((), ← runStatements postgres resetStatements session)) world

def reset (projectId : String) (envName : Text) (options : ResetOptions) (context : DbContext)
    (world : World δ) : Except EnvDbError ResetResult × World δ :=
  match checkOptions envName options with
  | .error error => (.error error, world)
  | .ok () =>
    let snapped := { world with
      snapshots := world.snapshots ++
        (preResetSnapshot catalog reading projectId envName options).toList }
    match resolveEnvDb catalog projectId envName with
    | .error error => (.error error, snapped)
    | .ok resolved =>
      match dropAll reading postgres resolved context snapped with
      | (.error error, reached) => (.error error, reached)
      | (.ok (), dropped) =>
        if options.noMigrate then (.ok ⟨true, []⟩, dropped)
        else if options.migrations.getD [] = [] then
          (.error (.badRequest migrationsRequired), dropped)
        -- `migrate` reads the tables of the platform again.
        else if dropsPlatform catalog postgres resolved.config then
          (.error (.error platformMissing), dropped)
        else
          let (applied, final) := migrate catalog reading postgres projectId envName
            (options.migrations.getD []) context dropped
          (applied.map (⟨true, ·⟩), final)

end

end EveHorizon.EnvDb
