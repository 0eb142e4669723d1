import EveHorizon.EnvDb.Endpoints

/-!
# What a database scope enforces

The endpoints assert a permission and no resource, so that a scope admits every request as soon as
it has a pattern.
-/

namespace EveHorizon.EnvDb

open List
open Access (AccessBindingScope AccessPrincipal AccessResourceContext EnvDbAdmits)

section

variable (authorities : Authorities)

/-- The scopes of the caller's grants that hold the permission; none when nothing restricts the
caller. -/
def callerScopes (permission : Text) (user : Option Auth.AuthUser) : Option (List AccessBindingScope) :=
  match Access.jobPermissions (user.map scopedUser) with
  | some permissions =>
    if permissions.contains permission then
      (user.bind Auth.AuthUser.scope).map ([·])
    else some []
  | none =>
    match Access.resolvePrincipal authorities.enabled (user.map scopedUser) with
    | .error _ => some []
    | .ok none => none
    | .ok (some principal) =>
      some (Access.heldScopes (authorities.grantsOf principal) permission)

def InScopes (scopes : List AccessBindingScope) (object : Text) : Prop :=
  Text.trim object ≠ [] ∧ ∃ scope ∈ scopes, EnvDbAdmits scope.envdb object

variable (request : EnvDbRequest)

def Admits (user : Option Auth.AuthUser) (object : Text) : Prop :=
  can authorities request.permission user (some ⟨.envdb, object, request.action⟩) = .ok true

variable {authorities}

theorem permissionResourceType_permission : Access.permissionResourceType request.permission = some .envdb := by
  cases request with
  | schema | rls | sql sql allowWrite | migrate migrations | reset options => rfl

theorem admits_iff (user : Option Auth.AuthUser) (object : Text) :
    Admits authorities request user object ↔ ∀ scopes, callerScopes authorities request.permission user = some scopes →
        InScopes scopes object := by
  have concerns := permissionResourceType_permission request
  have matched (scope : AccessBindingScope) :
      (Access.evaluateFacet scope .envdb (some ⟨.envdb, object, request.action⟩)).scopeMatched =
        true ↔ Text.trim object ≠ [] ∧ EnvDbAdmits scope.envdb object := by
    change (Access.evaluateEnvDbScope scope.envdb _).scopeMatched = true ↔ _
    rw [Access.evaluateEnvDbScope_matched]
    exact and_iff_right rfl
  unfold Admits can Access.can callerScopes
  cases carried : Access.jobPermissions (user.map scopedUser) with
  | some permissions =>
    dsimp only
    by_cases held : permissions.contains request.permission = true
    · rw [if_neg (by rw [held]; exact Bool.false_ne_true), if_pos held]
      have scopeOf : (user.map scopedUser).bind Access.AuthUser.scope = user.bind Auth.AuthUser.scope := by
        cases user with
        | none | some user => rfl
      rw [scopeOf]
      cases found : user.bind Auth.AuthUser.scope with
      | none => simp [pure, Except.pure]
      | some scope =>
        have evaluated : Access.evaluateScope (some scope) request.permission (some ⟨.envdb, object, request.action⟩) =
            Access.evaluateFacet scope .envdb (some ⟨.envdb, object, request.action⟩) := by
          unfold Access.evaluateScope
          rw [concerns]
        dsimp only
        rw [evaluated, Access.evaluateFacet_scopeRequired]
        simp only [Bool.not_true, Bool.false_or, pure, Except.pure, Except.ok.injEq, matched,
          Option.map_some, Option.some.injEq, forall_eq', InScopes, mem_singleton, exists_eq_left]
    · rw [if_pos (by rw [Bool.eq_false_iff.mpr held]; rfl), if_neg held]
      simp [pure, Except.pure, InScopes]
  | none =>
    dsimp only
    cases resolved : Access.resolvePrincipal authorities.enabled (user.map scopedUser) with
    | error message => simp [bind, Except.bind, InScopes]
    | ok found =>
      cases found with
      | none => simp [bind, Except.bind, pure, Except.pure]
      | some principal =>
        simp only [bind, Except.bind, pure, Except.pure, Except.ok.injEq,
          Access.evaluatePermission_allowed_iff concerns, matched, Option.some.injEq, forall_eq', InScopes]
        constructor
        · intro admitted
          obtain ⟨scope, member, visible, admits⟩ := admitted
          exact ⟨visible, scope, member, admits⟩
        · intro admitted
          obtain ⟨visible, scope, member, admits⟩ := admitted
          exact ⟨scope, member, visible, admits⟩

end

section

variable {δ : Type} (server : ObjectServer δ)

def MigrationTouches (config : EnvDbConfig) (clock : Nat → Timestamp) (index : Nat)
    (migrations : List Migration) (contents : Contents δ) (object : Text) : Prop :=
  ∃ before migration after rows reached, migrations = before ++ migration :: after ∧
    applyAll server.toPostgres clock index before contents = (.ok rows, reached) ∧
      object ∈ migrationTouches server config reached migration

variable {server}

theorem migrationTouches_cons {config : EnvDbConfig} {clock : Nat → Timestamp} {index : Nat}
    {migration : Migration} {rest : List Migration} {contents : Contents δ} {object : Text} :
    MigrationTouches server config clock index (migration :: rest) contents object ↔
      object ∈ migrationTouches server config contents migration ∨
        ∃ row reached, applyMigration server.toPostgres (clock index) migration contents = .ok (row, reached) ∧
          MigrationTouches server config clock (index + 1) rest reached object := by
  simp only [MigrationTouches, exists_and_left]
  exact reached_cons server.toPostgres

theorem mem_migrateTouches_iff (config : EnvDbConfig) (context : DbContext)
    (clock : Nat → Timestamp) (object : Text) (migrations : List Migration) :
    ∀ (index : Nat) (world : World δ), object ∈ migrateTouches server config context clock index migrations world ↔
        ∃ contents, (preparedSession server.toPostgres config world).schemas config.home = some contents ∧
          MigrationTouches server config clock index migrations contents object := by
  induction migrations with
  | nil =>
    intro index world
    constructor
    · intro member
      cases member
    · intro touches
      obtain ⟨contents, -, before, migration, after, rows, reached, split, -⟩ := touches
      cases before with
      | nil | cons head tail => cases split
  | cons migration rest inductionHypothesis =>
    intro index world
    rw [migrateTouches]
    cases present : (preparedSession server.toPostgres config world).schemas config.home with
    | none =>
      constructor
      · intro member
        cases member
      · intro touches
        obtain ⟨contents, isNone, -⟩ := touches
        cases isNone
    | some contents =>
      rw [mem_append, withClient_applyInSession server.toPostgres present]
      cases applied : applyMigration server.toPostgres (clock index) migration contents with
      | error error =>
        simp only [not_mem_nil, or_false, Option.some.injEq, exists_eq_left',
          migrationTouches_cons, applied, reduceCtorEq, false_and, exists_false, or_false]
      | ok pair =>
        obtain ⟨row, reached⟩ := pair
        -- The next transaction finds the schema that this one has left.
        have left : ((world.ensure server.toPostgres config).put
            (server.locate config.url) config.home (some reached)).databases
              (server.locate config.url) config.home = some reached :=
          World.databases_put_self _ _ _ _
        have found : (preparedSession server.toPostgres config
            ((world.ensure server.toPostgres config).put (server.locate config.url)
              config.home (some reached))).schemas config.home = some reached := by
          unfold preparedSession
          rw [ensure_eq_self server.toPostgres left]
          exact left
        dsimp only
        rw [inductionHypothesis, found]
        simp only [Option.some.injEq, exists_eq_left', migrationTouches_cons, applied,
          Except.ok.injEq, Prod.mk.injEq, existsAndEq, true_and]

end

section

variable {δ : Type} (server : ObjectServer δ) (catalog : Catalog) (reading : ResetContext)

def MigrationsInScopes (config : EnvDbConfig) (migrations : List Migration) (contents : Contents δ)
    (scopes : List AccessBindingScope) : Prop :=
  ∀ before migration after rows reached, migrations = before ++ migration :: after →
    applyAll server.toPostgres reading.clock 0 before contents = (.ok rows, reached) →
      (∀ schema, config.schema = some schema → InScopes scopes schema) ∧
      InScopes scopes (tableName config.home migrationsTable) ∧
      ((reached.schemaMigrations.getD []).find? (·.name == migration.name) = none →
        ∀ object ∈ server.touches config.home migration.sql, InScopes scopes object)

/-- The scopes match what the request names: the tables of the database, the objects of its text,
the selected schema and the table of its migrations, the public schema. -/
def ObjectsInScopes (request : EnvDbRequest) (resolved : ResolvedEnvDb) (envName : Text)
    (world : World δ) (scopes : List AccessBindingScope) : Prop :=
  match request with
  | .schema | .rls =>
    ∀ schema table contents, world.databases (server.locate resolved.config.url) schema = some contents →
      table ∈ server.relations contents → schema ∉ systemSchemas →
      (∀ filter, resolved.schemaFilter = some filter → schema = filter) → InScopes scopes (tableName schema table)
  | .sql sql allowWrite =>
    (allowWrite = some true → ∀ schema, resolved.config.schema = some schema → InScopes scopes schema) ∧
    ∀ object ∈ server.touches resolved.config.home sql, InScopes scopes object
  | .migrate migrations =>
    ∀ contents, (world.ensure server.toPostgres resolved.config).databases
        (server.locate resolved.config.url) resolved.config.home = some contents →
      MigrationsInScopes server reading resolved.config migrations contents scopes
  | .reset options =>
    checkOptions envName options = .ok () → (∀ schema, resolved.config.schema = some schema → InScopes scopes schema) ∧
      InScopes scopes publicSchema ∧ (dropsPlatform catalog server.toPostgres resolved.config = false →
        MigrationsInScopes server reading resolved.config options.supplied
          (world.left server.toPostgres resolved.config) scopes)

theorem migrationsInScopes_iff {config : EnvDbConfig} {migrations : List Migration}
    {contents : Contents δ} {scopes : List AccessBindingScope} :
    MigrationsInScopes server reading config migrations contents scopes ↔
      ∀ object, MigrationTouches server config reading.clock 0 migrations contents object → InScopes scopes object := by
  constructor
  · intro within object touches
    obtain ⟨before, migration, after, rows, reached, split, ran, member⟩ := touches
    obtain ⟨schemas, table, texts⟩ := within before migration after rows reached split ran
    unfold migrationTouches at member
    cases mem_append.mp member with
    | inl isSchema => exact schemas object (Option.mem_toList.mp isSchema)
    | inr later =>
      cases mem_cons.mp later with
      | inl isTable => exact isTable ▸ table
      | inr inText =>
        cases found : (reached.schemaMigrations.getD []).find? (·.name == migration.name) with
        | some row =>
          rw [found] at inText
          cases inText
        | none =>
          rw [found] at inText
          exact texts found object inText
  · intro within before migration after rows reached split ran
    have touches (object : Text) (member : object ∈ migrationTouches server config reached migration) :
        InScopes scopes object :=
      within object ⟨before, migration, after, rows, reached, split, ran, member⟩
    unfold migrationTouches at touches
    refine ⟨fun schema selected => ?_, ?_, fun unrecorded object member => ?_⟩
    · exact touches schema (mem_append_left _ (Option.mem_toList.mpr selected))
    · exact touches _ (mem_append_right _ mem_cons_self)
    · apply touches
      rw [unrecorded]
      exact mem_append_right _ (mem_cons_of_mem _ member)

theorem touches_within_iff (request : EnvDbRequest) (resolved : ResolvedEnvDb) (envName : Text)
    (context : DbContext) (world : World δ) (scopes : List AccessBindingScope) :
    (∀ object, Touches server catalog reading request resolved envName context world object → InScopes scopes object) ↔
      ObjectsInScopes server catalog reading request resolved envName world scopes := by
  have lists : (∀ object, Lists server resolved world object → InScopes scopes object) ↔ ∀ schema table contents,
        world.databases (server.locate resolved.config.url) schema = some contents →
        table ∈ server.relations contents → schema ∉ systemSchemas →
        (∀ filter, resolved.schemaFilter = some filter → schema = filter) →
        InScopes scopes (tableName schema table) := by
    constructor
    · intro within schema table contents present member visible filtered
      exact within _ ⟨schema, table, contents, present, member, visible, filtered, rfl⟩
    · intro within object listed
      obtain ⟨schema, table, contents, present, member, visible, filtered, rfl⟩ := listed
      exact within schema table contents present member visible filtered
  cases request with
  | schema | rls => exact lists
  | sql sql allowWrite =>
    unfold Touches ObjectsInScopes sqlTouches
    simp only [mem_append, or_imp, forall_and]
    refine and_congr ?_ Iff.rfl
    cases allowWrite with
    | none => simp
    | some allowed =>
      cases allowed with
      | false => simp
      | true => simp [Option.mem_toList]
  | migrate migrations =>
    unfold Touches ObjectsInScopes
    simp only [mem_migrateTouches_iff, migrationsInScopes_iff]
    constructor
    · intro within contents present object touches
      exact within object ⟨contents, present, touches⟩
    · intro within object touches
      obtain ⟨contents, present, touches⟩ := touches
      exact within contents present object touches
  | reset options =>
    change (∀ object ∈ resetTouches server catalog reading resolved envName options context world,
        InScopes scopes object) ↔ (checkOptions envName options = .ok () →
        (∀ schema, resolved.config.schema = some schema → InScopes scopes schema) ∧ InScopes scopes publicSchema ∧
        (dropsPlatform catalog server.toPostgres resolved.config = false →
          MigrationsInScopes server reading resolved.config options.supplied
            (world.left server.toPostgres resolved.config) scopes))
    unfold resetTouches
    cases checked : checkOptions envName options with
    | error error => simp
    | ok passed =>
      cases passed
      have cleared : (preparedSession server.toPostgres resolved.config
          (world.clear server.toPostgres resolved.config)).schemas resolved.config.home =
          some (world.left server.toPostgres resolved.config) := by
        have present := World.databases_clear_home server.toPostgres world resolved.config
        unfold preparedSession
        rw [ensure_eq_self server.toPostgres present]
        exact present
      rw [dropAll_eq]
      dsimp only
      simp only [mem_append, mem_cons, or_imp, forall_and, forall_eq, Option.mem_toList, true_imp_iff]
      refine and_congr Iff.rfl (and_congr Iff.rfl ?_)
      cases dropsPlatform catalog server.toPostgres resolved.config with
      | true => simp
      | false =>
        simp only [Bool.false_eq_true, if_false, true_imp_iff, mem_migrateTouches_iff, cleared,
          Option.some.injEq, exists_eq_left', migrationsInScopes_iff]

variable {PublicKey PrivateKey : Type} (runtime : Auth.Runtime PublicKey PrivateKey)
  (driver : Auth.Driver) (authorities : Authorities)

/-- Whatever the service reads or writes for a request, `evaluateScope` admits for its caller. -/
def ScopeEnforced (request : EnvDbRequest) (caller : Caller) (projectId : String) (envName : Text)
    (world : World δ) : Prop :=
  ∀ object, RequestTouches server catalog reading runtime driver authorities request caller projectId
    envName world object → Admits authorities request caller.user object

/-- The scope of a caller is enforced exactly when the request is refused or its environment does
not resolve, or nothing restricts the caller, or its scopes match all that the request names. -/
theorem scopeEnforced_iff (request : EnvDbRequest) (caller : Caller) (projectId : String)
    (envName : Text) (world : World δ) :
    ScopeEnforced server catalog reading runtime driver authorities request caller projectId envName world ↔
      (∃ refusal, authorize authorities runtime driver catalog request caller projectId = .error refusal) ∨
      (∃ error, resolveEnvDb catalog projectId envName = .error error) ∨
      ∀ resolved scopes, resolveEnvDb catalog projectId envName = .ok resolved →
        callerScopes authorities request.permission caller.user = some scopes →
        ObjectsInScopes server catalog reading request resolved envName world scopes := by
  unfold ScopeEnforced RequestTouches
  cases authorized : authorize authorities runtime driver catalog request caller projectId with
  | error refusal => simp
  | ok permissions =>
    cases resolves : resolveEnvDb catalog projectId envName with
    | error error => simp
    | ok resolved =>
      have within (scopes : List AccessBindingScope) :=
        touches_within_iff server catalog reading request resolved envName
          (callerContext caller projectId envName permissions) world scopes
      constructor
      · intro enforced
        refine .inr (.inr fun found scopes isFound isScopes => ?_)
        cases isFound
        refine (within scopes).mp fun object touches => ?_
        exact (admits_iff request caller.user object).mp
          (enforced object ⟨permissions, resolved, rfl, rfl, touches⟩) scopes isScopes
      · intro condition object requested
        obtain ⟨_, _, isPermissions, isResolved, touches⟩ := requested
        cases isPermissions
        cases isResolved
        rcases condition with ⟨_, refused⟩ | ⟨_, unresolved⟩ | inScopes
        · cases refused
        · cases unresolved
        · exact (admits_iff request caller.user object).mpr fun scopes isScopes =>
            (within scopes).mpr (inScopes resolved scopes rfl isScopes) object touches

end

def namingServer : ObjectServer Text where
  toPostgres := plainServer
  relations _ := ["orders".toList, "salaries".toList]
  touches _ sql :=
    if sql = "DELETE FROM app.salaries".toList then ["app.salaries".toList] else []

def ordersToken : Auth.AuthUser where
  userId := "usr_1".toList
  role := none
  isAdmin := false
  isJobToken := true
  permissions := some ["envdb:write".toList]
  scope := some { envdb := some { tables := some ["app.orders".toList] } }

def openAuthorities : Authorities where
  enabled := true
  verifyJobToken _ := .ok none
  grantsOf _ := []
  db :=
    { projects := []
      orgMemberships := []
      projectMemberships := []
      roles := []
      bindings := []
      groups := []
      groupMembers := []
      resources := []
      project_ids := by simp
      project_slugs := by simp
      ids_begin := by simp
      slugs_begin := by simp
      slugs_present := by simp
      bound_projects := by simp }

def plainRuntime : Auth.Runtime Unit Unit where
  decode _ := none
  encode _ := []
  verifies _ _ _ := false
  sign _ _ := []
  hmac _ _ := []
  round value := value
  numeral _ := []

def textDriver : Auth.Driver where
  sent value := text? value
  lower text := text

/-- A token for one table may delete the rows of another. -/
theorem salaries_deleted : ¬ ScopeEnforced namingServer shops plainReading plainRuntime textDriver openAuthorities
        (.sql "DELETE FROM app.salaries".toList (some true)) { user := some ordersToken } "proj_a"
        "test".toList platformWorld := by
  have refused : can openAuthorities "envdb:write".toList (some ordersToken)
      (some ⟨.envdb, "app.salaries".toList, .write⟩) ≠ .ok true := by
    decide +kernel
  have touched : "app.salaries".toList ∈ sqlTouches namingServer
      (fallbackConfig shops "shop".toList "test".toList) "DELETE FROM app.salaries".toList true := by
    decide +kernel
  intro enforced
  exact refused (enforced "app.salaries".toList ⟨some ["envdb:write".toList], _, rfl, rfl, touched⟩)

end EveHorizon.EnvDb
