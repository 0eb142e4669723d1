import EveHorizon.EnvDb.Isolation
import EveHorizon.EnvDb.Reset

/-!
# What a reset may touch

A reset drops the public schema of the database, whichever schema the resolution selects, and
looks at the migrations afterwards.
-/

namespace EveHorizon.EnvDb

open List

variable {δ : Type}

def EnvDbConfig.home (config : EnvDbConfig) : Text := config.schema.getD publicSchema

def Selects (postgres : Postgres δ) (config : EnvDbConfig) (database schema : Text) : Prop :=
  database = postgres.locate config.url ∧ ∀ chosen, config.schema = some chosen → schema = chosen

def ResetOptions.supplied (options : ResetOptions) : List Migration :=
  if options.noMigrate then [] else options.migrations.getD []

variable {config : EnvDbConfig} {database : Text}

namespace World

variable (world : World δ)

theorem databases_put_self (database schema : Text) (contents : Option (Contents δ)) :
    (world.put database schema contents).databases database schema = contents :=
  if_pos ⟨rfl, rfl⟩

theorem databases_put_of_ne (database schema : Text) (contents : Option (Contents δ)) {found name : Text}
    (other : ¬ (found = database ∧ name = schema)) :
    (world.put database schema contents).databases found name = world.databases found name :=
  if_neg other

theorem ext_databases {left right : World δ}
    (same : ∀ database schema, left.databases database schema = right.databases database schema)
    (snapshots : left.snapshots = right.snapshots) : left = right := by
  cases left
  cases right
  cases snapshots
  congr
  funext database schema
  exact same database schema

theorem put_put (database schema : Text) (first second : Option (Contents δ)) :
    (world.put database schema first).put database schema second = world.put database schema second := by
  refine ext_databases (fun found name => ?_) rfl
  by_cases here : found = database ∧ name = schema
  · rw [here.1, here.2, databases_put_self, databases_put_self]
  · rw [databases_put_of_ne _ _ _ _ here, databases_put_of_ne _ _ _ _ here, databases_put_of_ne _ _ _ _ here]

theorem put_eq_self {world : World δ} {schema : Text} {contents : Option (Contents δ)}
    (present : world.databases database schema = contents) : world.put database schema contents = world := by
  refine ext_databases (fun found name => ?_) rfl
  by_cases here : found = database ∧ name = schema
  · rw [here.1, here.2, databases_put_self, present]
  · rw [databases_put_of_ne _ _ _ _ here]

variable (postgres : Postgres δ)

def ensure (world : World δ) (config : EnvDbConfig) : World δ :=
  match config.schema with
  | none => world
  | some schema =>
    let database := postgres.locate config.url
    world.put database schema
      (some ((world.databases database schema).getD postgres.newSchema))

theorem databases_ensure_of_not_home (world : World δ) {schema : Text}
    (other : ¬ (database = postgres.locate config.url ∧ schema = config.home)) :
    (world.ensure postgres config).databases database schema = world.databases database schema := by
  unfold EnvDbConfig.home at other
  unfold ensure
  cases selected : config.schema with
  | none => rfl
  | some chosen =>
    rw [selected, Option.getD_some] at other
    exact databases_put_of_ne _ _ _ _ other

def clear (world : World δ) (config : EnvDbConfig) : World δ :=
  (world.ensure postgres config).put (postgres.locate config.url) publicSchema
    (some postgres.newSchema)

end World

open World (clear databases_put_of_ne databases_put_self ensure put put_eq_self)

variable {contents : Contents δ}

section

variable (postgres : Postgres δ)

theorem runStatements_settings {statements : List SessionStatement}
    (settings : ∀ stmt ∈ statements, ∃ setting value, stmt = .setConfig setting value)
    (session : Session δ) : runStatements postgres statements session = .ok session := by
  induction statements with
  | nil => rfl
  | cons head rest inductionHypothesis =>
    obtain ⟨setting, value, rfl⟩ := settings head mem_cons_self
    exact inductionHypothesis fun stmt member =>
      settings stmt (mem_cons_of_mem _ member)

def preparedSession (config : EnvDbConfig) (world : World δ) : Session δ where
  schemas := (world.ensure postgres config).databases (postgres.locate config.url)
  searchPath := config.home

theorem runStatements_openSession (config : EnvDbConfig) (context : DbContext) (world : World δ) :
    runStatements postgres (openSession config context true false)
        ⟨world.databases (postgres.locate config.url), publicSchema⟩ = .ok (preparedSession postgres config world) := by
  have settled (session : Session δ) : runStatements postgres (applySessionContext context) session = .ok session :=
    runStatements_settings postgres (fun _ => settings_applySessionContext) session
  unfold openSession preparedSession EnvDbConfig.home ensure
  cases selected : config.schema with
  | none => exact settled _
  | some schema =>
    have made (contents : Option (Contents δ)) : (fun name => if name = schema then contents
          else world.databases (postgres.locate config.url) name) =
        (world.put (postgres.locate config.url) schema contents).databases
          (postgres.locate config.url) := by
      funext name
      simp [put]
    dsimp only
    unfold runStatements ensureSchema
    cases found : world.databases (postgres.locate config.url) schema with
    | none =>
      rw [← made]
      simp only [if_true, if_false, Bool.false_eq_true, nil_append, cons_append,
        foldlM_cons, SessionStatement.run, found, Option.getD_none]
      exact settled _
    | some contents =>
      rw [Option.getD_some, put_eq_self found]
      simp only [if_true, if_false, Bool.false_eq_true, nil_append, cons_append,
        foldlM_cons, SessionStatement.run, found]
      exact settled _

theorem Session.schemas_put_self (session : Session δ) (schema : Text)
    (contents : Option (Contents δ)) : (session.put schema contents).schemas schema = contents :=
  if_pos rfl

theorem Session.put_put (session : Session δ) (schema : Text) (first second : Option (Contents δ)) :
    (session.put schema first).put schema second = session.put schema second := by
  have same : (fun name => if name = schema then second
      else if name = schema then first else session.schemas name) =
      fun name => if name = schema then second else session.schemas name := by
    funext name
    by_cases here : name = schema
    · rw [if_pos here, if_pos here]
    · rw [if_neg here, if_neg here, if_neg here]
  unfold Session.put
  dsimp only
  rw [same]

theorem withClient_eq {α : Type} (config : EnvDbConfig) (context : DbContext)
    (action : Session δ → Except EnvDbError (α × Session δ)) (world : World δ) :
    withClient postgres config context action world =
      match action (preparedSession postgres config world) with
      | .error error => (.error error, world)
      | .ok (value, session) =>
        (.ok value,
          { world with
            databases := fun found name =>
              if found = postgres.locate config.url then session.schemas name
              else world.databases found name }) := by
  unfold withClient
  dsimp only
  rw [runStatements_openSession]
  rfl

variable {world : World δ}

theorem ensure_eq_self (present : world.databases (postgres.locate config.url) config.home = some contents) :
    world.ensure postgres config = world := by
  unfold ensure
  unfold EnvDbConfig.home at present
  cases selected : config.schema with
  | none => rfl
  | some schema =>
    rw [selected, Option.getD_some] at present
    dsimp only
    rw [present, Option.getD_some, put_eq_self present]

theorem withClient_applyInSession
    (present : (world.ensure postgres config).databases (postgres.locate config.url) config.home = some contents)
    (context : DbContext) (now : Timestamp) (migration : Migration) :
    withClient postgres config context (applyInSession postgres now migration) world =
      match applyMigration postgres now migration contents with
      | .error error => (.error error, world)
      | .ok (row, reached) =>
        (.ok row, (world.ensure postgres config).put (postgres.locate config.url) config.home (some reached)) := by
  rw [withClient_eq]
  unfold applyInSession preparedSession
  dsimp only
  rw [present]
  dsimp only
  cases applied : applyMigration postgres now migration contents with
  | error error => rfl
  | ok pair =>
    obtain ⟨row, reached⟩ := pair
    refine Prod.ext rfl (World.ext_databases (fun found name => ?_) ?_)
    · change (if found = _ then (if name = config.home then _ else _) else _) =
        if found = _ ∧ name = config.home then _ else _
      by_cases here : found = postgres.locate config.url
      · rw [if_pos here, here]
        simp only [true_and]
      · rw [if_neg here, if_neg fun both => here both.1,
          World.databases_ensure_of_not_home postgres world fun both => here both.1]
    · unfold ensure
      cases config.schema with
      | none | some schema => rfl

theorem migrateAll_eq (config : EnvDbConfig) (context : DbContext) (clock : Nat → Timestamp)
    (migrations : List Migration) : ∀ (index : Nat) (world : World δ) (contents : Contents δ),
    world.databases (postgres.locate config.url) config.home = some contents →
    migrateAll postgres config context clock index migrations world =
      ((applyAll postgres clock index migrations contents).1, world.put (postgres.locate config.url) config.home
          (some (applyAll postgres clock index migrations contents).2)) := by
  induction migrations with
  | nil =>
    intro index world contents present
    exact Prod.ext rfl (put_eq_self present).symm
  | cons migration rest inductionHypothesis =>
    intro index world contents present
    have ensured := ensure_eq_self postgres present
    unfold migrateAll applyAll
    rw [withClient_applyInSession postgres (by rw [ensured]; exact present), ensured]
    cases applied : applyMigration postgres (clock index) migration contents with
    | error error => exact Prod.ext rfl (put_eq_self present).symm
    | ok pair =>
      obtain ⟨row, reached⟩ := pair
      dsimp only
      rw [inductionHypothesis (index + 1) _ reached (databases_put_self _ _ _ _), World.put_put]

theorem applyMigration_badRequest_iff (now : Timestamp) (migration : Migration) (contents : Contents δ) :
    (∃ message, applyMigration postgres now migration contents = .error (.badRequest message)) ↔
      ∃ row, (contents.schemaMigrations.getD []).find? (·.name == migration.name) = some row ∧
        row.checksum ≠ postgres.sha256 migration.sql := by
  unfold applyMigration
  dsimp only
  cases found : (contents.schemaMigrations.getD []).find? (·.name == migration.name) with
  | some existing =>
    by_cases same : existing.checksum = postgres.sha256 migration.sql
    · simp [same]
    · simp [same]
  | none =>
    constructor
    · intro refused
      obtain ⟨message, refused⟩ := refused
      dsimp only at refused
      split at refused
      · cases refused
      · split at refused
        · cases refused
        · split at refused
          · cases refused
          · cases refused
    · intro clash
      obtain ⟨row, isRow, -⟩ := clash
      cases isRow

/-- A migration meets a row of its name with another checksum, once the ones before it are
applied. -/
def ClashesFrom (clock : Nat → Timestamp) (index : Nat) (migrations : List Migration)
    (contents : Contents δ) : Prop :=
  ∃ before migration rest, migrations = before ++ migration :: rest ∧
    ∃ rows reached, applyAll postgres clock index before contents = (.ok rows, reached) ∧
      ∃ row, (reached.schemaMigrations.getD []).find? (·.name == migration.name) = some row ∧
        row.checksum ≠ postgres.sha256 migration.sql

theorem applyAll_badRequest_iff (clock : Nat → Timestamp) (migrations : List Migration) :
    ∀ (index : Nat) (contents : Contents δ), (∃ message, (applyAll postgres clock index migrations contents).1 =
          .error (.badRequest message)) ↔ ClashesFrom postgres clock index migrations contents := by
  induction migrations with
  | nil =>
    intro index contents
    simp [applyAll, ClashesFrom]
  | cons migration rest inductionHypothesis =>
    intro index contents
    rw [ClashesFrom, reached_cons, ← applyMigration_badRequest_iff postgres (clock index) migration contents, applyAll]
    cases applied : applyMigration postgres (clock index) migration contents with
    | error error => simp
    | ok pair =>
      obtain ⟨row, reached⟩ := pair
      have later := inductionHypothesis (index + 1) reached
      unfold ClashesFrom at later
      simp only [Except.ok.injEq, Prod.mk.injEq, existsAndEq, true_and, ← later]
      rcases applyAll postgres clock (index + 1) rest reached with ⟨_ | rows, final⟩
      · simp [Except.map]
      · simp [Except.map]

end

section

variable (catalog : Catalog) (reading : ResetContext) (postgres : Postgres δ)

theorem dropAll_eq (resolved : ResolvedEnvDb) (context : DbContext) (world : World δ) :
    dropAll reading postgres resolved context world = (.ok (), world.clear postgres resolved.config) := by
  unfold dropAll
  rw [withClient_eq]
  have emptied (session : Session δ) :
      runStatements postgres resetStatements session = .ok (session.put publicSchema (some postgres.newSchema)) := by
    rw [← Session.put_put session publicSchema none]
    have gone := Session.schemas_put_self session publicSchema none
    unfold runStatements resetStatements
    rw [foldlM_cons]
    change [SessionStatement.createSchema publicSchema].foldlM (SessionStatement.run postgres)
      (session.put publicSchema none) = _
    rw [foldlM_cons, SessionStatement.run, gone]
    rfl
  rw [emptied]
  refine Prod.ext rfl (World.ext_databases (fun found name => ?_) ?_)
  · change (if found = postgres.locate resolved.config.url then
        ((preparedSession postgres resolved.config world).put publicSchema (some postgres.newSchema)).schemas name
      else world.databases found name) = _
    unfold clear
    by_cases here : found = postgres.locate resolved.config.url
    · rw [if_pos here, here]
      by_cases isPublic : name = publicSchema
      · rw [isPublic, databases_put_self, Session.schemas_put_self]
      · rw [databases_put_of_ne _ _ _ _ fun both => isPublic both.2]
        exact if_neg isPublic
    · rw [if_neg here, databases_put_of_ne _ _ _ _ fun both => here both.1]
      exact (World.databases_ensure_of_not_home postgres world fun both => here both.1).symm
  · unfold clear ensure
    cases resolved.config.schema with
    | none | some schema => rfl

def World.left (postgres : Postgres δ) (world : World δ) (config : EnvDbConfig) : Contents δ :=
  if config.home = publicSchema then postgres.newSchema
  else (world.databases (postgres.locate config.url) config.home).getD postgres.newSchema

theorem World.databases_clear_home (world : World δ) (config : EnvDbConfig) :
    (world.clear postgres config).databases (postgres.locate config.url) config.home =
      some (world.left postgres config) := by
  unfold clear World.left
  by_cases isPublic : config.home = publicSchema
  · rw [if_pos isPublic, isPublic, databases_put_self]
  · rw [if_neg isPublic, databases_put_of_ne _ _ _ _ fun both => isPublic both.2]
    unfold ensure EnvDbConfig.home
    unfold EnvDbConfig.home at isPublic
    cases selected : config.schema with
    | none =>
      rw [selected] at isPublic
      exact absurd rfl isPublic
    | some schema => exact databases_put_self _ _ _ _

/-- What a reset does after the drop, to the schema of its session. -/
def rebuild (config : EnvDbConfig) (options : ResetOptions) (contents : Contents δ) :
    Except EnvDbError ResetResult × Contents δ :=
  if options.noMigrate then (.ok ⟨true, []⟩, contents)
  else if options.migrations.getD [] = [] then (.error (.badRequest migrationsRequired), contents)
  else if dropsPlatform catalog postgres config then (.error (.error platformMissing), contents)
  else
    let (applied, reached) := applyAll postgres reading.clock 0 (options.migrations.getD []) contents
    (applied.map (⟨true, ·⟩), reached)

variable {projectId : String} {envName : Text} {options : ResetOptions} {context : DbContext} {resolved : ResolvedEnvDb}

section

variable (checked : checkOptions envName options = .ok ())
include checked

section

variable (resolves : resolveEnvDb catalog projectId envName = .ok resolved)
include resolves

variable (world : World δ)

variable (context) in
theorem reset_eq : ∃ snapshots, reset catalog reading postgres projectId envName options context world =
      ((rebuild catalog reading postgres resolved.config options (world.left postgres resolved.config)).1,
        { (world.clear postgres resolved.config).put (postgres.locate resolved.config.url)
            resolved.config.home (some (rebuild catalog reading postgres resolved.config options
              (world.left postgres resolved.config)).2) with snapshots }) := by
  have snapped (snapshots : List SnapshotRequest) : (clear postgres { world with snapshots } resolved.config) =
        { world.clear postgres resolved.config with snapshots } := by
    unfold clear ensure
    cases resolved.config.schema with
    | none | some schema => rfl
  have present := World.databases_clear_home postgres world resolved.config
  have kept (snapshots : List SnapshotRequest) : { world.clear postgres resolved.config with snapshots } =
        { (world.clear postgres resolved.config).put (postgres.locate resolved.config.url)
            resolved.config.home (some (world.left postgres resolved.config)) with snapshots } := by
    rw [put_eq_self present]
  refine ⟨world.snapshots ++ (preResetSnapshot catalog reading projectId envName options).toList, ?_⟩
  unfold reset rebuild
  rw [checked, resolves]
  dsimp only
  rw [dropAll_eq, snapped]
  dsimp only
  by_cases unmigrated : options.noMigrate = true
  · rw [if_pos unmigrated, if_pos unmigrated, kept]
  · rw [if_neg unmigrated, if_neg unmigrated]
    by_cases missing : options.migrations.getD [] = []
    · rw [if_pos missing, if_pos missing, kept]
    · rw [if_neg missing, if_neg missing]
      by_cases platform : dropsPlatform catalog postgres resolved.config = true
      · rw [if_pos platform, if_pos platform, kept]
      · rw [if_neg platform, if_neg platform]
        unfold migrate
        rw [resolves]
        dsimp only
        have migrated := migrateAll_eq postgres resolved.config
          (enrichContext reading.groupsOf context resolved.orgId) reading.clock
          (options.migrations.getD []) 0
          { world.clear postgres resolved.config with
            snapshots := world.snapshots ++
              (preResetSnapshot catalog reading projectId envName options).toList }
          (world.left postgres resolved.config) present
        rw [migrated]
        rfl

def Blank (postgres : Postgres δ) (found : Option (Contents δ)) : Prop :=
  ∀ contents, found = some contents → contents = postgres.newSchema

variable (projectId envName options context)

structure ResetSound (world : World δ) : Prop where
  /-- It changes what the resolution selects. -/
  confined : ∀ database schema, (∀ resolved, resolveEnvDb catalog projectId envName = .ok resolved →
      ¬ Selects postgres resolved.config database schema) →
    (reset catalog reading postgres projectId envName options context world).2.databases
      database schema = world.databases database schema
  /-- After a success what is selected holds what the supplied migrations created. -/
  rebuilt : ∀ result, (reset catalog reading postgres projectId envName options context world).1 = .ok result →
    ∃ resolved rows contents, resolveEnvDb catalog projectId envName = .ok resolved ∧
      applyAll postgres reading.clock 0 options.supplied postgres.newSchema = (.ok rows, contents) ∧
      (reset catalog reading postgres projectId envName options context world).2.databases
        (postgres.locate resolved.config.url) resolved.config.home = some contents ∧
      (resolved.config.schema = none → ∀ schema, schema ≠ resolved.config.home → Blank postgres
          ((reset catalog reading postgres projectId envName options context world).2.databases
            (postgres.locate resolved.config.url) schema))
  /-- A refused request changes nothing. -/
  atomic : ∀ message, (reset catalog reading postgres projectId envName options context world).1 =
      .error (.badRequest message) →
    (reset catalog reading postgres projectId envName options context world).2.databases = world.databases

def SoundReset (world : World δ) : Prop :=
  ∀ database held, ResetSound catalog reading postgres projectId envName options context
    (world.put database publicSchema (some held))

def Completes (config : EnvDbConfig) : Prop :=
  options.noMigrate = true ∨ dropsPlatform catalog postgres config = false ∧
      ∃ rows, (applyAll postgres reading.clock 0 (options.migrations.getD []) postgres.newSchema).1 = .ok rows

/-- The selected schema is the public one, the migrations are there and clash with no row, and a
database without a selected schema has no other that holds anything. -/
structure ResetSafe (config : EnvDbConfig) (world : World δ) : Prop where
  own : config.home = publicSchema
  supplied : options.noMigrate = true ∨ options.migrations.getD [] ≠ []
  unclashing : options.noMigrate = true ∨ dropsPlatform catalog postgres config = true ∨
    ¬ ClashesFrom postgres reading.clock 0 (options.migrations.getD []) postgres.newSchema
  bare : config.schema = none → Completes catalog reading postgres options config → ∀ schema, schema ≠ publicSchema →
      Blank postgres (world.databases (postgres.locate config.url) schema)

variable {projectId envName options context}

omit resolves in
omit checked in
theorem rebuild_ok {result : ResetResult}
    (succeeded : (rebuild catalog reading postgres config options contents).1 = .ok result) :
    ∃ rows, applyAll postgres reading.clock 0 options.supplied contents =
      (.ok rows, (rebuild catalog reading postgres config options contents).2) := by
  unfold rebuild at succeeded ⊢
  unfold ResetOptions.supplied
  by_cases unmigrated : options.noMigrate = true
  · rw [if_pos unmigrated, if_pos unmigrated]
    exact ⟨[], rfl⟩
  · rw [if_neg unmigrated] at succeeded ⊢
    by_cases missing : options.migrations.getD [] = []
    · rw [if_pos missing] at succeeded
      cases succeeded
    · rw [if_neg missing] at succeeded ⊢
      by_cases platform : dropsPlatform catalog postgres config = true
      · rw [if_pos platform] at succeeded
        cases succeeded
      · rw [if_neg platform] at succeeded ⊢
        rw [if_neg unmigrated]
        cases applied : applyAll postgres reading.clock 0 (options.migrations.getD []) contents with
        | mk outcome reached =>
          rw [applied] at succeeded
          cases outcome with
          | error error => cases succeeded
          | ok rows => exact ⟨rows, rfl⟩

omit resolves in
omit checked in
theorem rebuild_ok_iff (config : EnvDbConfig) (supplied : options.noMigrate = true ∨ options.migrations.getD [] ≠ []) :
    (∃ result, (rebuild catalog reading postgres config options postgres.newSchema).1 = .ok result) ↔
      Completes catalog reading postgres options config := by
  unfold rebuild Completes
  by_cases unmigrated : options.noMigrate = true
  · simp [unmigrated]
  · have present := supplied.resolve_left unmigrated
    cases platform : dropsPlatform catalog postgres config with
    | true => simp [unmigrated, present]
    | false =>
      cases outcome : (applyAll postgres reading.clock 0 (options.migrations.getD []) postgres.newSchema).1 with
      | error error | ok rows => simp [unmigrated, present, outcome, Except.map]

omit resolves in
omit checked in
theorem rebuild_badRequest_iff (config : EnvDbConfig) (contents : Contents δ) :
    (∃ message, (rebuild catalog reading postgres config options contents).1 = .error (.badRequest message)) ↔
      ¬ ((options.noMigrate = true ∨ options.migrations.getD [] ≠ []) ∧
        (options.noMigrate = true ∨ dropsPlatform catalog postgres config = true ∨
          ¬ ClashesFrom postgres reading.clock 0 (options.migrations.getD []) contents)) := by
  rw [← applyAll_badRequest_iff]
  unfold rebuild
  by_cases unmigrated : options.noMigrate = true
  · simp [unmigrated]
  · by_cases missing : options.migrations.getD [] = []
    · simp [unmigrated, missing]
    · cases platform : dropsPlatform catalog postgres config with
      | true => simp [unmigrated, missing]
      | false =>
        cases outcome : (applyAll postgres reading.clock 0 (options.migrations.getD []) contents).1 with
        | error error | ok rows => simp [unmigrated, missing, outcome, Except.map]

theorem databases_reset_of_ne {schema : Text}
    (notHome : ¬ (database = postgres.locate resolved.config.url ∧ schema = resolved.config.home))
    (notPublic : ¬ (database = postgres.locate resolved.config.url ∧ schema = publicSchema)) :
    (reset catalog reading postgres projectId envName options context world).2.databases
      database schema = world.databases database schema := by
  obtain ⟨snapshots, result⟩ := reset_eq catalog reading postgres context checked resolves world
  rw [result]
  change (put _ _ _ _).databases database schema = _
  rw [databases_put_of_ne _ _ _ _ notHome]
  unfold clear
  rw [databases_put_of_ne _ _ _ _ notPublic]
  exact World.databases_ensure_of_not_home postgres world notHome

variable (context) in
theorem databases_reset_home : (reset catalog reading postgres projectId envName options context world).2.databases
        (postgres.locate resolved.config.url) resolved.config.home =
      some (rebuild catalog reading postgres resolved.config options (world.left postgres resolved.config)).2 := by
  obtain ⟨snapshots, result⟩ := reset_eq catalog reading postgres context checked resolves world
  rw [result]
  exact databases_put_self _ _ _ _

theorem databases_reset_public (elsewhere : resolved.config.home ≠ publicSchema) :
    (reset catalog reading postgres projectId envName options context world).2.databases
        (postgres.locate resolved.config.url) publicSchema = some postgres.newSchema := by
  obtain ⟨snapshots, result⟩ := reset_eq catalog reading postgres context checked resolves world
  rw [result]
  change (put _ _ _ _).databases _ publicSchema = _
  rw [databases_put_of_ne _ _ _ _ fun both => elsewhere both.2.symm]
  exact databases_put_self _ _ _ _

omit resolves in
omit checked in
theorem World.left_of_home_public (own : config.home = publicSchema) :
    world.left postgres config = postgres.newSchema :=
  if_pos own

theorem result_reset (own : resolved.config.home = publicSchema) :
    (reset catalog reading postgres projectId envName options context world).1 =
      (rebuild catalog reading postgres resolved.config options postgres.newSchema).1 := by
  obtain ⟨snapshots, result⟩ := reset_eq catalog reading postgres context checked resolves world
  rw [result, World.left_of_home_public postgres world own]

theorem resetSound_of_safe {world : World δ} (safe : ResetSafe catalog reading postgres options resolved.config world) :
    ResetSound catalog reading postgres projectId envName options context world where
  confined := by
    intro database schema unselected
    have notSelected := unselected resolved resolves
    have notHome : ¬ (database = postgres.locate resolved.config.url ∧ schema = resolved.config.home) := by
      intro both
      refine notSelected ⟨both.1, fun chosen selected => ?_⟩
      rw [both.2, EnvDbConfig.home, selected]
      rfl
    exact databases_reset_of_ne catalog reading postgres checked resolves world notHome (safe.own ▸ notHome)
  rebuilt := by
    intro result succeeded
    rw [result_reset catalog reading postgres checked resolves world safe.own] at succeeded
    obtain ⟨rows, applied⟩ := rebuild_ok catalog reading postgres succeeded
    refine ⟨resolved, rows, _, resolves, applied, ?_, ?_⟩
    · rw [databases_reset_home catalog reading postgres context checked resolves world,
        World.left_of_home_public postgres world safe.own]
    · intro unselected schema other
      have completes := (rebuild_ok_iff catalog reading postgres resolved.config safe.supplied).mp ⟨result, succeeded⟩
      rw [databases_reset_of_ne catalog reading postgres checked resolves world
        (fun both => other both.2) (fun both => other (both.2.trans safe.own.symm))]
      exact safe.bare unselected completes schema fun isPublic => other (isPublic.trans safe.own.symm)
  atomic := by
    intro message refused
    rw [result_reset catalog reading postgres checked resolves world safe.own] at refused
    exact absurd ⟨safe.supplied, safe.unclashing⟩
      ((rebuild_badRequest_iff catalog reading postgres resolved.config postgres.newSchema).mp ⟨message, refused⟩)

theorem safe_of_soundReset {world : World δ}
    (sound : SoundReset catalog reading postgres projectId envName options context world) :
    ResetSafe catalog reading postgres options resolved.config world := by
  -- Two contents of a public schema that no reset can both leave.
  let first := postgres.newSchema
  let second : Contents δ := { postgres.newSchema with schemaMigrations := some [] }
  have different : second ≠ first := by
    intro same
    cases congrArg Contents.schemaMigrations same
  have own : resolved.config.home = publicSchema := by
    by_contra elsewhere
    have kept := (sound (postgres.locate resolved.config.url) second).confined
      (postgres.locate resolved.config.url) publicSchema fun found isFound selected => by
        rw [resolves] at isFound
        cases isFound
        apply elsewhere
        unfold EnvDbConfig.home
        cases chosen : resolved.config.schema with
        | none => rfl
        | some schema => exact (selected.2 schema chosen).symm
    rw [databases_reset_public catalog reading postgres checked resolves _ elsewhere, databases_put_self] at kept
    exact different (Option.some.inj kept).symm
  have unrefused : ¬ ∃ message, (rebuild catalog reading postgres resolved.config options
      postgres.newSchema).1 = .error (.badRequest message) := by
    intro refused
    obtain ⟨message, refused⟩ := refused
    have kept (held : Contents δ) : (rebuild catalog reading postgres resolved.config options
        postgres.newSchema).2 = held := by
      have unchanged := congrFun (congrFun ((sound (postgres.locate resolved.config.url) held).atomic message
          ((result_reset catalog reading postgres checked resolves _ own).trans refused))
        (postgres.locate resolved.config.url)) publicSchema
      have reached := databases_reset_home catalog reading postgres context checked
        resolves (world.put (postgres.locate resolved.config.url) publicSchema (some held))
      rw [World.left_of_home_public postgres _ own, own] at reached
      rw [reached, databases_put_self] at unchanged
      exact Option.some.inj unchanged
    exact different ((kept second).symm.trans (kept first))
  rw [rebuild_badRequest_iff, not_not] at unrefused
  refine ⟨own, unrefused.1, unrefused.2, fun unselected completes schema other => ?_⟩
  obtain ⟨result, succeeded⟩ := (rebuild_ok_iff catalog reading postgres resolved.config unrefused.1).mpr completes
  obtain ⟨found, rows, contents, isFound, -, -, blank⟩ :=
    (sound (postgres.locate resolved.config.url) first).rebuilt result
      ((result_reset catalog reading postgres checked resolves _ own).trans succeeded)
  rw [resolves] at isFound
  cases isFound
  have bare := blank unselected schema (own ▸ other)
  rw [databases_reset_of_ne catalog reading postgres checked resolves _
    (fun both => other (both.2.trans own)) (fun both => other both.2),
    databases_put_of_ne _ _ _ _ fun both => other both.2] at bare
  exact bare

end

end

/-- A reset keeps its promises, whatever the public schemas hold, exactly when its options are
refused, or its database does not resolve, or it is safe. -/
theorem soundReset_iff (catalog : Catalog) (reading : ResetContext) (postgres : Postgres δ)
    (projectId : String) (envName : Text) (options : ResetOptions) (context : DbContext) (world : World δ) :
    SoundReset catalog reading postgres projectId envName options context world ↔
      (∃ error, checkOptions envName options = .error error) ∨
      (∃ error, resolveEnvDb catalog projectId envName = .error error) ∨
      ∃ resolved, resolveEnvDb catalog projectId envName = .ok resolved ∧
        ResetSafe catalog reading postgres options resolved.config world := by
  cases checked : checkOptions envName options with
  | error error =>
    refine ⟨fun _ => .inl ⟨error, rfl⟩, fun _ database held => ?_⟩
    have unchanged (world : World δ) : reset catalog reading postgres projectId envName options
        context world = (.error error, world) := by
      unfold reset
      rw [checked]
    constructor
    · exact fun _ _ _ => by rw [unchanged]
    · intro result succeeded
      rw [unchanged] at succeeded
      cases succeeded
    · exact fun _ _ => by rw [unchanged]
  | ok passed =>
    cases resolves : resolveEnvDb catalog projectId envName with
    | error error =>
      refine ⟨fun _ => .inr (.inl ⟨error, rfl⟩), fun _ database held => ?_⟩
      have unchanged (world : World δ) : ∃ snapshots, reset catalog reading postgres projectId
          envName options context world = (.error error, { world with snapshots }) := by
        unfold reset
        rw [checked, resolves]
        exact ⟨_, rfl⟩
      obtain ⟨snapshots, result⟩ := unchanged (world.put database publicSchema (some held))
      constructor
      · exact fun _ _ _ => by rw [result]
      · intro value succeeded
        rw [result] at succeeded
        cases succeeded
      · exact fun _ _ => by rw [result]
    | ok resolved =>
      constructor
      · intro sound
        exact .inr (.inr ⟨resolved, rfl, safe_of_soundReset catalog reading postgres checked resolves sound⟩)
      · intro safe database held
        rcases safe with ⟨_, refused⟩ | ⟨_, unresolved⟩ | ⟨found, isFound, safe⟩
        · cases refused
        · cases unresolved
        · cases isFound
          refine resetSound_of_safe catalog reading postgres checked resolves
            { safe with bare := fun unselected completes schema other => ?_ }
          rw [databases_put_of_ne _ _ _ _ fun both => other both.2]
          exact safe.bare unselected completes schema other

end

def plainServer : Postgres Text where
  locate url := url
  nothing := []
  exec sql contents := some { contents with objects := contents.objects ++ sql }
  sha256 text := text

def plainReading : ResetContext where
  groupsOf _ _ _ := []
  tenants _ := []
  snapshotStorage := false
  clock _ := 0

def platformWorld : World Text where
  databases _ schema :=
    if schema = publicSchema then some { objects := "projects".toList }
    else if schema = "eve_env_shop_test".toList then some { objects := "orders".toList }
    else none
  snapshots := []

/-- A reset of an environment without a database of its own drops the tables of the platform and
keeps those of the environment; one without migrations is refused when they are gone. -/
theorem reset_drops_platform : ¬ ResetSound shops plainReading plainServer "proj_a" "test".toList
        { force := true, noMigrate := true } {} platformWorld ∧
    ¬ ResetSound shops plainReading plainServer "proj_a" "test".toList { force := true } {}
        platformWorld := by
  have resolves : resolveEnvDb shops "proj_a" "test".toList =
      .ok ⟨fallbackConfig shops "shop".toList "test".toList, some "eve_env_shop_test".toList, "org_a"⟩ := rfl
  have dropped (options : ResetOptions) (forced : checkOptions "test".toList options = .ok ()) :
      (reset shops plainReading plainServer "proj_a" "test".toList options {} platformWorld).2.databases
        shops.databaseUrl publicSchema = some plainServer.newSchema :=
    databases_reset_public shops plainReading plainServer forced resolves platformWorld
      (by decide +kernel)
  have present : platformWorld.databases shops.databaseUrl publicSchema = some { objects := "projects".toList } := rfl
  constructor
  · intro sound
    have kept := sound.confined shops.databaseUrl publicSchema fun resolved isResolved selected => by
      cases isResolved
      exact absurd (selected.2 "eve_env_shop_test".toList (by decide +kernel)) (by decide +kernel)
    rw [dropped _ rfl, present] at kept
    cases kept
  · intro sound
    have kept := sound.atomic migrationsRequired rfl
    have unchanged := congrFun (congrFun kept shops.databaseUrl) publicSchema
    rw [dropped _ rfl, present] at unchanged
    cases unchanged

end EveHorizon.EnvDb
