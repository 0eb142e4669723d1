import EveHorizon.Auth.PermissionGuard
import EveHorizon.EnvDb.ResetSafety

/-!
# The endpoints of environment databases

What a request has to pass before the service runs it, and the objects of the database that it
reads or writes then.
-/

namespace EveHorizon.EnvDb

open Access (AccessBindingScope AccessPrincipal AccessResourceContext EnvDbAdmits RawGrant)
open Auth (Refusal)

inductive EnvDbRequest where
  | schema
  | rls
  | sql (sql : Text) (allowWrite : Option Bool)
  | migrate (migrations : List Migration)
  | reset (options : ResetOptions)

namespace EnvDbRequest

def permission : EnvDbRequest → Text
  | .schema | .rls => "envdb:read".toList
  | .sql _ _ | .migrate _ | .reset _ => "envdb:write".toList

def action : EnvDbRequest → Access.AccessResourceAction
  | .schema | .rls => .read
  | .sql _ _ | .migrate _ | .reset _ => .write

def allowWrite : EnvDbRequest → Bool
  | .schema | .rls => false
  | .sql _ allowWrite => allowWrite.getD false
  | .migrate _ | .reset _ => true

end EnvDbRequest

structure Authorities where
  enabled : Bool
  /-- The permissions of the job token in the header. -/
  verifyJobToken : Text → Except Refusal (Option (List Text))
  grantsOf : AccessPrincipal → List RawGrant
  db : Auth.RbacDb

structure Caller where
  user : Option Auth.AuthUser
  jobToken : Option Text := none

def scopedUser (user : Auth.AuthUser) : Access.AuthUser where
  userId := user.userId
  isJobToken := user.isJobToken
  isServicePrincipal := user.isServicePrincipal
  permissions := user.permissions
  scope := user.scope

section

variable (authorities : Authorities)

def can (permission : Text) (user : Option Auth.AuthUser) (resource : Option AccessResourceContext) :
    Except String Bool :=
  Access.can authorities.enabled
    (fun principal =>
      (Access.evaluatePermission permission (authorities.grantsOf principal) resource).allowed)
    permission (user.map scopedUser) resource

def accessDenied (permission : Text) : Text := "Access denied for permission: ".toList ++ permission

def assertPermission (permission : Text) (user : Option Auth.AuthUser) : Except Refusal Unit :=
  match can authorities permission user none with
  | .error message => .error (.unauthorized message.toList)
  | .ok true => .ok ()
  | .ok false => .error (.forbidden (accessDenied permission))

def resolveEffectivePermissions (caller : Caller) : Except Refusal (Option (List Text) × Bool) :=
  match truthy caller.jobToken with
  | none => .ok (caller.user.bind Auth.AuthUser.permissions, false)
  | some jobToken => do
    match ← authorities.verifyJobToken jobToken with
    | some (permission :: rest) => return (some (permission :: rest), true)
    | some [] | none => return (caller.user.bind Auth.AuthUser.permissions, true)

def mayWrite (permissions : Option (List Text)) : Bool :=
  (permissions.getD []).contains "envdb:write".toList ||
    (permissions.getD []).contains "db.write".toList

def administers (user : Option Auth.AuthUser) : Bool :=
  user.any fun user => user.isAdmin || user.role == some "owner".toList ||
    user.role == some "admin".toList || user.role == some "system_admin".toList

def ensureWriteAllowed (allowWrite tokenProvided : Bool) (permissions : Option (List Text))
    (user : Option Auth.AuthUser) : Except Refusal Unit :=
  if !allowWrite || !authorities.enabled then .ok ()
  else if tokenProvided then
    if mayWrite permissions then .ok ()
    else .error (.forbidden "Job token missing envdb:write permission".toList)
  else if administers user then .ok ()
  else if mayWrite permissions then .ok ()
  else .error (.forbidden "Write access requires admin role or job token with envdb:write permission".toList)

variable {PublicKey PrivateKey : Type} (runtime : Auth.Runtime PublicKey PrivateKey)
  (driver : Auth.Driver) (catalog : Catalog)

def guardedRequest (projectId : String) : Auth.GuardedRequest where
  params := { id := some projectId.toList }
  routeUrl := some "/projects/:id/envs/:name/db".toList

def authorize (request : EnvDbRequest) (caller : Caller) (projectId : String) :
    Except Refusal (Option (List Text)) := do
  let _ ← Auth.canActivate authorities.db runtime driver authorities.enabled
    { required := some [request.permission] } caller.user (guardedRequest projectId)
  if (catalog.project projectId).isNone then
    .error (.notFound (projectNotFound projectId))
  else do
    assertPermission authorities request.permission caller.user
    let (permissions, tokenProvided) ← resolveEffectivePermissions authorities caller
    ensureWriteAllowed authorities request.allowWrite tokenProvided permissions caller.user
    return permissions

end

structure ObjectServer (δ : Type) extends Postgres δ where
  /-- The tables and views of a schema. -/
  relations : Contents δ → List Text
  /-- What a text reads or writes, from a search path. -/
  touches : Text → Text → List Text

def tableName (schema table : Text) : Text := schema ++ '.' :: table

def migrationsTable : Text := "schema_migrations".toList

def systemSchemas : List Text := ["pg_catalog".toList, "information_schema".toList]

section

variable {δ : Type} (server : ObjectServer δ)

def Lists (resolved : ResolvedEnvDb) (world : World δ) (object : Text) : Prop :=
  ∃ schema table contents, world.databases (server.locate resolved.config.url) schema = some contents ∧
      table ∈ server.relations contents ∧ schema ∉ systemSchemas ∧
      (∀ filter, resolved.schemaFilter = some filter → schema = filter) ∧ object = tableName schema table

def sqlTouches (config : EnvDbConfig) (sql : Text) (allowWrite : Bool) : List Text :=
  (if allowWrite then config.schema.toList else []) ++ server.touches config.home sql

def migrationTouches (config : EnvDbConfig) (contents : Contents δ) (migration : Migration) : List Text :=
  config.schema.toList ++ tableName config.home migrationsTable ::
    match (contents.schemaMigrations.getD []).find? (·.name == migration.name) with
    | some _ => []
    | none => server.touches config.home migration.sql

def migrateTouches (config : EnvDbConfig) (context : DbContext) (clock : Nat → Timestamp) :
    Nat → List Migration → World δ → List Text
  | _, [], _ => []
  | index, migration :: rest, world =>
    match (preparedSession server.toPostgres config world).schemas config.home with
    | none => []
    | some contents =>
      migrationTouches server config contents migration ++
        match withClient server.toPostgres config context
          (applyInSession server.toPostgres (clock index) migration) world with
        | (.error _, _) => []
        | (.ok _, reached) => migrateTouches config context clock (index + 1) rest reached

variable (catalog : Catalog) (reading : ResetContext)

def resetTouches (resolved : ResolvedEnvDb) (envName : Text) (options : ResetOptions)
    (context : DbContext) (world : World δ) : List Text :=
  match checkOptions envName options with
  | .error _ => []
  | .ok () =>
    resolved.config.schema.toList ++ publicSchema ::
      if dropsPlatform catalog server.toPostgres resolved.config then []
      else migrateTouches server resolved.config
        (enrichContext reading.groupsOf context resolved.orgId) reading.clock 0 options.supplied
        (dropAll reading server.toPostgres resolved context world).2

def Touches (request : EnvDbRequest) (resolved : ResolvedEnvDb) (envName : Text)
    (context : DbContext) (world : World δ) (object : Text) : Prop :=
  match request with
  | .schema | .rls => Lists server resolved world object
  | .sql sql allowWrite =>
    object ∈ sqlTouches server resolved.config sql (allowWrite.getD false)
  | .migrate migrations =>
    object ∈ migrateTouches server resolved.config
      (enrichContext reading.groupsOf context resolved.orgId) reading.clock 0 migrations world
  | .reset options =>
    object ∈ resetTouches server catalog reading resolved envName options context world

def callerContext (caller : Caller) (projectId : String) (envName : Text)
    (permissions : Option (List Text)) : DbContext where
  userId := caller.user.map Auth.AuthUser.userId
  projectId := some projectId.toList
  envName := some envName
  principalType := some
    (if caller.user.any Auth.AuthUser.isServicePrincipal then .servicePrincipal else .user)
  permissions := permissions

def RequestTouches {PublicKey PrivateKey : Type} (runtime : Auth.Runtime PublicKey PrivateKey)
    (driver : Auth.Driver) (authorities : Authorities) (request : EnvDbRequest) (caller : Caller)
    (projectId : String) (envName : Text) (world : World δ) (object : Text) : Prop :=
  ∃ permissions resolved, authorize authorities runtime driver catalog request caller projectId = .ok permissions ∧
      resolveEnvDb catalog projectId envName = .ok resolved ∧ Touches server catalog reading request resolved envName
        (callerContext caller projectId envName permissions) world object

end

end EveHorizon.EnvDb
