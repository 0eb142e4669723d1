import EveHorizon.EnvDb.Resolution

/-!
# Sessions on an environment database

The statements that the service issues on a connection before it lets a caller's SQL run, and
those of a reset.
-/

namespace EveHorizon.EnvDb

open List

inductive PrincipalType where
  | user | servicePrincipal

structure DbContext where
  userId : Option Text := none
  projectId : Option Text := none
  orgId : Option Text := none
  envName : Option Text := none
  principalType : Option PrincipalType := none
  groupIds : Option (List Text) := none
  permissions : Option (List Text) := none

inductive SettingValue where
  | text (value : Text)
  | principalType (value : PrincipalType)
  -- Written as JSON.
  | list (values : List Text)

inductive SessionStatement where
  | setReadOnly
  | ensureSchema (schema : Text)
  | setSearchPath (schema : Text)
  | setConfig (setting : String) (value : SettingValue)
  | dropSchema (schema : Text)
  | createSchema (schema : Text)

def SessionStatement.schemas : SessionStatement → List Text
  | .setReadOnly => []
  | .ensureSchema schema => [schema]
  | .setSearchPath schema => [schema]
  | .setConfig _ _ => []
  | .dropSchema schema => [schema]
  | .createSchema schema => [schema]

def truthy (value : Option Text) : Option Text := value.filter (· ≠ [])

section

-- `listGroupIdsForPrincipal`.
variable (groupsOf : String → PrincipalType → Text → List Text)

def enrichContext (context : DbContext) (orgId : String) : DbContext :=
  let principalType := context.principalType.getD .user
  let groupIds :=
    match context.groupIds, truthy context.userId with
    | some groupIds, _ => some groupIds
    | none, some userId => some (groupsOf orgId principalType userId)
    | none, none => none
  { context with
    orgId := some orgId.toList
    principalType := some principalType
    groupIds := some (groupIds.getD []) }

end

def setText (setting : String) (value : Option Text) : List SessionStatement :=
  ((truthy value).map fun found => .setConfig setting (.text found)).toList

def setList (setting : String) (values : Option (List Text)) : List SessionStatement :=
  (values.map fun found => .setConfig setting (.list found)).toList

def applySessionContext (context : DbContext) : List SessionStatement :=
  setText "app.user_id" context.userId ++
  (context.principalType.map fun found =>
    .setConfig "app.principal_type" (.principalType found)).toList ++
  setText "app.org_id" context.orgId ++
  setText "app.project_id" context.projectId ++
  setText "app.env_name" context.envName ++
  setList "app.group_ids" context.groupIds ++
  setList "app.permissions" context.permissions

def ensureSchema (schema : Text) (allowWrite : Bool) : List SessionStatement :=
  (if allowWrite then [.ensureSchema schema] else []) ++ [.setSearchPath schema]

def openSession (config : EnvDbConfig) (context : DbContext) (allowWrite allowMissingSchema : Bool) :
    List SessionStatement :=
  (if allowWrite then [] else [.setReadOnly]) ++
  (match config.schema with
    | some schema => if allowMissingSchema then [] else ensureSchema schema allowWrite
    | none => []) ++
  applySessionContext context

def publicSchema : Text := "public".toList

def resetStatements : List SessionStatement := [.dropSchema publicSchema, .createSchema publicSchema]

inductive EnvDbOperation where
  | executeSql (allowWrite : Bool)
  | migrate
  | reset

def EnvDbOperation.issued (operation : EnvDbOperation) (config : EnvDbConfig)
    (context : DbContext) : List SessionStatement :=
  match operation with
  | .executeSql allowWrite => openSession config context allowWrite false
  | .migrate => openSession config context true false
  | .reset => openSession config context true false ++ resetStatements

variable {context : DbContext} {stmt : SessionStatement}

theorem settings_applySessionContext (member : stmt ∈ applySessionContext context) :
    ∃ setting value, stmt = .setConfig setting value := by
  simp only [applySessionContext, setText, setList, mem_append, Option.mem_toList, Option.map_eq_some_iff] at member
  rcases member with (((((⟨value, -, rfl⟩ | ⟨value, -, rfl⟩) | ⟨value, -, rfl⟩) |
    ⟨value, -, rfl⟩) | ⟨value, -, rfl⟩) | ⟨value, -, rfl⟩) | ⟨value, -, rfl⟩
  all_goals exact ⟨_, _, rfl⟩

theorem schemas_applySessionContext (member : stmt ∈ applySessionContext context) : stmt.schemas = [] := by
  obtain ⟨setting, value, rfl⟩ := settings_applySessionContext member
  rfl

variable {config : EnvDbConfig} {schema : Text}

theorem mem_openSession {allowWrite allowMissingSchema : Bool}
    (member : stmt ∈ openSession config context allowWrite allowMissingSchema) (named : schema ∈ stmt.schemas) :
    config.schema = some schema := by
  simp only [openSession, mem_append] at member
  rcases member with (reading | ensuring) | setting
  · split at reading
    · cases reading
    · rw [mem_singleton.mp reading] at named
      cases named
  · cases selected : config.schema with
    | none =>
      rw [selected] at ensuring
      cases ensuring
    | some found =>
      rw [selected] at ensuring
      cases allowMissingSchema with
      | true => cases ensuring
      | false =>
        cases mem_append.mp ensuring with
        | inl creating =>
          cases allowWrite with
          | false => cases creating
          | true =>
            rw [mem_singleton.mp creating] at named
            rw [mem_singleton.mp named]
        | inr searching =>
          rw [mem_singleton.mp searching] at named
          rw [mem_singleton.mp named]
  · rw [schemas_applySessionContext setting] at named
    cases named

theorem mem_issued {operation : EnvDbOperation} (member : stmt ∈ operation.issued config context)
    (named : schema ∈ stmt.schemas) : config.schema = some schema ∨ schema = publicSchema := by
  cases operation with
  | executeSql allowWrite | migrate => exact .inl (mem_openSession member named)
  | reset =>
    cases mem_append.mp member with
    | inl opening => exact .inl (mem_openSession opening named)
    | inr resetting =>
      right
      simp only [resetStatements, mem_cons, not_mem_nil, or_false] at resetting
      rcases resetting with rfl | rfl
      · exact mem_singleton.mp named
      · exact mem_singleton.mp named

end EveHorizon.EnvDb
