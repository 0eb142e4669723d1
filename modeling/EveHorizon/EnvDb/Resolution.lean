import EveHorizon.Kubernetes.Names
import EveHorizon.Library.Decimal
import EveHorizon.Workflows.Invocation

/-!
# Where the database of an environment is

An environment's overrides, the managed tenant or the service its manifest declares name its
database; an environment that none of them serves has a schema of its own in the database of
the platform.
-/

namespace EveHorizon.EnvDb

open Json (Member)
open Workflows (encodeUriComponent)

inductive EnvDbError where
  | notFound (message : Text)
  | badRequest (message : Text)
  | error (message : Text)
  deriving DecidableEq

structure Project where
  id : String
  orgId : String
  slug : Text

structure Environment where
  id : String
  projectId : String
  name : Text
  namespaceName : Option Text := none
  dbRef : Option Text := none
  /-- The members of `overrides_json`. -/
  overrides : List (Text × Json) := []

structure ManagedDbTenant where
  id : String
  status : Text
  credentialSecretRef : Option Text

structure Catalog where
  project : String → Option Project
  orgSlug : String → Option Text
  environment : String → Text → Option Environment
  /-- The services of the latest manifest, where there is one that is valid and has any. A text
  that is no YAML throws. -/
  services : String → Except Text (Option (List (Text × Json)))
  readyTenant : String → Text → Option ManagedDbTenant
  /-- `resolveProjectSecretValue`. -/
  secretValue : String → Text → Except Text (Option Text)
  databaseUrl : Text

structure EnvDbConfig where
  url : Text
  schema : Option Text
  deriving DecidableEq

structure ResolvedEnvDb where
  config : EnvDbConfig
  schemaFilter : Option Text
  orgId : String

variable (char : Char)

def isSchemaCharacter : Bool :=
  Kubernetes.isLetter char || Kubernetes.isDigit char || char == '_'

def schemaCharacters : Text :=
  if isSchemaCharacter char then [char]
  else if char.toNat < 0x10000 then ['_']
  else ['_', '_']

def replaceOutside (text : Text) : Text := text.flatMap schemaCharacters

def normalizeSchemaName : Option Text → Option Text
  | none => none
  | some schema =>
    if schema = [] then none
    else
      let trimmed := ((replaceOutside schema).dropWhile (· == '_')).take 63
      if trimmed = [] then none else some trimmed

def isKeyStart : Bool := Kubernetes.isLetter char || char == '_'

def secretReference? (text : Text) : Option Text :=
  if Text.startsWith "$\x7bsecret.".toList text then
    let rest := text.drop "$\x7bsecret.".length
    let key := rest.takeWhile isSchemaCharacter
    if key.head?.any isKeyStart ∧ (rest.drop key.length).head? = some '\x7d' then some key else none
  else none

def secretKeys : Text → List Text
  | [] => []
  | head :: rest =>
    match secretReference? (head :: rest) with
    | some key => key :: secretKeys rest
    | none => secretKeys rest

def referenceText (key : Text) : Text := "$\x7bsecret.".toList ++ key ++ ['\x7d']

/-- The replacement that `String.replace` makes of a text: `$$`, `$&` and the two quotes stand
for a dollar, for what is replaced, and for what is before and after it. -/
def expandReplacement (found before after : Text) : Text → Text
  | '$' :: '$' :: rest => '$' :: expandReplacement found before after rest
  | '$' :: '&' :: rest => found ++ expandReplacement found before after rest
  | '$' :: '\x60' :: rest => before ++ expandReplacement found before after rest
  | '$' :: '\'' :: rest => after ++ expandReplacement found before after rest
  | head :: rest => head :: expandReplacement found before after rest
  | [] => []

def replaceFirst (pattern replacement : Text) (before : Text) : Text → Text
  | [] => before
  | head :: rest =>
    if Text.startsWith pattern (head :: rest) then
      let after := (head :: rest).drop pattern.length
      before ++ expandReplacement pattern before after replacement ++ after
    else replaceFirst pattern replacement (before ++ [head]) rest

variable (catalog : Catalog)

def interpolateSecrets (value : Text) (projectId : String) : Except EnvDbError Text :=
  (secretKeys value).foldlM
    (fun result key =>
      match catalog.secretValue projectId key with
      | .error message => .error (.error message)
      | .ok none => .ok result
      | .ok (some secret) => .ok (replaceFirst (referenceText key) secret [] result))
    value

def text? : Member → Option Text
  | .json (.string text) => some text
  | _ => none

def isObject : Member → Bool
  | .json (.object _) | .json (.array _) | .objectPrototype | .arrayPrototype => true
  | _ => false

def resolveXeve (service : Member) : Member :=
  let xEve := (service.get "x-eve".toList).orElse (service.get "x_eve".toList)
  if isObject xEve then xEve else .json (.object [])

def hasRole (role : String) (service : Member) : Bool :=
  (text? ((resolveXeve service).get "role".toList)) == some role.toList

def onlyServiceName (role : String) (services : List (Text × Json)) : Option Text :=
  match services.filter fun (_, value) => isObject (.json value) && hasRole role (.json value) with
  | [(name, _)] => some name
  | _ => none

def findDatabaseServiceName (services : List (Text × Json)) : Option Text :=
  onlyServiceName "database" services

def findManagedDbServiceName (services : List (Text × Json)) : Option Text :=
  onlyServiceName "managed_db" services

def isFiniteNumeral (numeral : Text) : Bool :=
  ! ["NaN".toList, "Infinity".toList, "-Infinity".toList].contains numeral

def parseIntText (text : Text) : Option Text :=
  (Decimal.parseInt (String.ofList text)).map fun value => (toString value).toList

def portOf : Json → Option Text
  | .number numeral => if isFiniteNumeral numeral then some numeral else none
  | .string text => parseIntText ((text.splitOn ':').getLast?.getD [])
  | _ => none

def resolveServicePort (service : Member) : Option Text :=
  match service.get "ports".toList with
  | .json (.array ports) => ports.findSome? portOf
  | _ => none

def resolveK8sServiceHost (orgSlug projectSlug envName : Text) (namespaceName : Option Text)
    (serviceName : Text) : Except EnvDbError Text := do
  let checked (result : Except Text Text) : Except EnvDbError Text := result.mapError .error
  let envSlug ← checked (Kubernetes.toK8sName envName "environment".toList)
  let componentSlug ← checked (Kubernetes.toK8sName serviceName "service".toList)
  let namespaceText ← checked
    (Kubernetes.deriveNamespace orgSlug projectSlug envName namespaceName)
  return envSlug ++ '-' :: componentSlug ++ '.' :: namespaceText ++ ".svc.cluster.local".toList

variable (service : Member)

def serviceConnectionUrl : Option Text :=
  let xEve := resolveXeve service
  ((text? (xEve.get "connection_url".toList)).or
    (text? (service.get "connection_url".toList))).or (text? (service.get "url".toList))

def servicePort (env : Member) : Text :=
  let parsed :=
    match text? (env.get "POSTGRES_PORT".toList), text? (env.get "DB_PORT".toList) with
    | some port, _ => parseIntText port
    | none, some port => parseIntText port
    | none, none => resolveServicePort service
  parsed.getD "5432".toList

def resolveServiceConnectionUrl (orgSlug : Text) (project : Project) (envName : Text) (namespaceName : Option Text)
    (serviceName : Text) :
    Except EnvDbError Text := do
  match (serviceConnectionUrl service).filter (· ≠ []) with
  | some connectionUrl => interpolateSecrets catalog connectionUrl project.id
  | none =>
    let declared := service.get "environment".toList
    let env := if isObject declared then declared else .json (.object [])
    match text? (env.get "DATABASE_URL".toList) with
    | some directUrl => interpolateSecrets catalog directUrl project.id
    | none =>
      let user := (text? (env.get "POSTGRES_USER".toList)).getD "postgres".toList
      let rawPassword := (text? (env.get "POSTGRES_PASSWORD".toList)).getD []
      let password ← interpolateSecrets catalog rawPassword project.id
      let database := (text? (env.get "POSTGRES_DB".toList)).getD "postgres".toList
      let port := servicePort service env
      let host ←
        match (text? (env.get "POSTGRES_HOST".toList)).or (text? (env.get "DB_HOST".toList)) with
        | some host => .ok host
        | none => resolveK8sServiceHost orgSlug project.slug envName namespaceName serviceName
      let passwordPart := if password = [] then [] else ':' :: encodeUriComponent password
      return "postgres://".toList ++ encodeUriComponent user ++ passwordPart ++ '@' :: host ++
        ':' :: port ++ '/' :: database

def overrideOf (environment : Environment) : Option Text × Option Text :=
  let db := (Member.json (.object environment.overrides)).get "db".toList
  if isObject db then
    (text? (((db.get "url".toList).orElse (db.get "connection_url".toList)).orElse
      (db.get "database_url".toList)), text? (db.get "schema".toList))
  else (none, none)

def databaseService (environment : Environment) (services : List (Text × Json)) : Option Text :=
  let declared := Member.json (.object services)
  match environment.dbRef.filter fun name => name ≠ [] && (declared.get name).isTruthy with
  | some name => some name
  | none => ((findDatabaseServiceName services).or (findManagedDbServiceName services)).filter (· ≠ [])

def managedDbNotReady (serviceName status : Text) : Text :=
  "Managed DB for service \"".toList ++ serviceName ++ "\" is in \"".toList ++ status ++
    "\" state (not ready). Wait for provisioning to complete or check \"eve db status\".".toList

def managedDbMissing (serviceName envName : Text) : Text :=
  "No managed DB tenant found for service \"".toList ++ serviceName ++ "\" in environment \"".toList ++ envName ++
    "\". Deploy the environment to trigger provisioning.".toList

def resolveService (project : Project) (environment : Environment) (envName : Text)
    (services : List (Text × Json)) (serviceName : Text) : Except EnvDbError (Option Text) := do
  let service := (Member.json (.object services)).get serviceName
  if text? ((resolveXeve service).get "role".toList) = some "managed_db".toList then
    match catalog.readyTenant environment.id serviceName with
    | none => .error (.notFound (managedDbMissing serviceName envName))
    | some tenant =>
      match tenant.credentialSecretRef.filter (· ≠ []) with
      | none => .error (.badRequest (managedDbNotReady serviceName tenant.status))
      | some reference =>
        let connectionUrl ← interpolateSecrets catalog reference project.id
        return some connectionUrl
  else
    let orgSlug := (catalog.orgSlug project.orgId).getD []
    let connectionUrl ← resolveServiceConnectionUrl catalog service orgSlug project envName
      environment.namespaceName serviceName
    return if connectionUrl = [] then none else some connectionUrl

/-- What the overrides or the manifest say of the database; none when they say nothing. -/
def resolveDeclared (project : Project) (environment : Environment) (envName : Text) :
    Except EnvDbError (Option EnvDbConfig) := do
  match (overrideOf environment).1.filter (· ≠ []) with
  | some overrideUrl =>
    return some { url := overrideUrl, schema := normalizeSchemaName (overrideOf environment).2 }
  | none =>
    let services ← (catalog.services project.id).mapError .error
    match services.bind fun found => (databaseService environment found).map (found, ·) with
    | none => return none
    | some (found, serviceName) =>
      let connectionUrl ← resolveService catalog project environment envName found serviceName
      return connectionUrl.map fun url => { url, schema := none }

def fallbackSource (slug envName : Text) : Text := "eve_env_".toList ++ slug ++ '_' :: envName

def fallbackConfig (slug envName : Text) : EnvDbConfig where
  url := catalog.databaseUrl
  schema := normalizeSchemaName (some (fallbackSource slug envName))

variable (projectId : String)

def projectNotFound : Text :=
  "Project ".toList ++ projectId.toList ++ " not found".toList

variable (envName : Text)

def environmentNotFound : Text :=
  "Environment \"".toList ++ envName ++ "\" not found for project ".toList ++ projectId.toList

def findEnvironment : Except EnvDbError (Project × Environment) :=
  match catalog.project projectId with
  | none => .error (.notFound (projectNotFound projectId))
  | some project =>
    match catalog.environment projectId envName with
    | none => .error (.notFound (environmentNotFound projectId envName))
    | some environment => .ok (project, environment)

def resolveEnvDb : Except EnvDbError ResolvedEnvDb := do
  let (project, environment) ← findEnvironment catalog projectId envName
  let declared ← resolveDeclared catalog project environment envName
  let config := declared.getD (fallbackConfig catalog project.slug envName)
  return { config, schemaFilter := config.schema, orgId := project.orgId }

end EveHorizon.EnvDb
