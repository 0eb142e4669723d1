import EveHorizon.Library.Base64
import EveHorizon.Library.Text
import EveHorizon.Library.Upserts
import EveHorizon.Library.Utf8

/-!
# Secrets

Secrets of users, organisations, projects and the system.
-/

namespace EveHorizon.Secrets

open Table
open Utf8 (CodePoints)

inductive SecretScopeType where
  | user | org | project | system
  deriving DecidableEq

inductive SecretType where
  | envVar | file | githubToken | sshKey
  deriving DecidableEq

structure Secret where
  id : Text
  scopeType : SecretScopeType
  scopeId : Text
  key : Text
  type : SecretType
  valueEncrypted : Text
  createdAt : Nat
  updatedAt : Nat

def Secret.place (secret : Secret) : SecretScopeType × Text × Text :=
  (secret.scopeType, secret.scopeId, secret.key)

abbrev SecretTable := Keyed Secret.place

inductive SecretError where
  | badRequest (message : Text)
  | notFound (message : Text)
  | internalServerError (message : Text)
  -- The tag does not authenticate the data.
  | unsupportedState
  deriving DecidableEq

abbrev Bytes := List UInt8

structure Sealed where
  tag : Bytes
  data : Bytes
  deriving DecidableEq

structure Cipher where
  encipher : Bytes → Bytes → Bytes → Sealed
  decipher : Bytes → Bytes → Sealed → Option Bytes

structure Fresh where
  iv : Bytes
  -- `randomBytes(12)`
  sized : iv.length = 12
  id : Text
  now : Nat

variable (cipher : Cipher)

def notConfigured : SecretError := .internalServerError "Secrets master key not configured".toList

def encrypt (masterKey : Option Bytes) (iv : Bytes) (value : CodePoints) : Except SecretError Text :=
  match masterKey with
  | none => .error notConfigured
  | some key =>
    let result := cipher.encipher key iv (Utf8.encode value)
    .ok ("v1:".toList ++ Base64.encode iv ++ ':' :: Base64.encode result.tag ++ ':' :: Base64.encode result.data)

def decrypt (masterKey : Option Bytes) (payload : Text) : Except SecretError CodePoints :=
  match masterKey with
  | none => .error notConfigured
  | some key =>
    match payload.splitOn ':' with
    | version :: ivB64 :: tagB64 :: dataB64 :: _ =>
      if version ≠ "v1".toList ∨ ivB64 = [] ∨ tagB64 = [] ∨ dataB64 = [] then
        .error (.badRequest "Invalid secret payload".toList)
      else
        match cipher.decipher key (Base64.decode ivB64)
            ⟨Base64.decode tagB64, Base64.decode dataB64⟩ with
        | some plaintext => .ok (Utf8.decode plaintext)
        | none => .error .unsupportedState
    | _ => .error (.badRequest "Invalid secret payload".toList)

section

variable (table : SecretTable) (scopeType : SecretScopeType) (scopeId : Text)

def listByScope (limit offset : Nat) : List Secret :=
  (((table.rows.filter fun row => row.scopeType == scopeType && row.scopeId == scopeId).insertionSort
    fun left right => right.createdAt ≤ left.createdAt).drop offset).take limit

def findByScopeAndKey (key : Text) : Option Secret :=
  table.find (scopeType, scopeId, key)

def Secret.change (row : Secret) (valueEncrypted : Option Text) (type : Option SecretType)
    (now : Nat) : Secret :=
  { row with
    valueEncrypted := valueEncrypted.getD row.valueEncrypted
    type := type.getD row.type
    updatedAt := now }

def updateByKey (key : Text) (valueEncrypted : Option Text) (type : Option SecretType) (now : Nat) :
    Option Secret × SecretTable :=
  ((table.find (scopeType, scopeId, key)).map (·.change valueEncrypted type now),
    table.update (fun row => row.place == (scopeType, scopeId, key)) (·.change valueEncrypted type now) fun _ => rfl)

end

structure Catalog where
  hasOrg : Text → Bool
  projectOrg : Text → Option Text

structure SecretResponse where
  id : Text
  scopeType : SecretScopeType
  scopeId : Text
  key : Text
  type : SecretType
  createdAt : Nat
  updatedAt : Nat

def Secret.toResponse (secret : Secret) : SecretResponse :=
  { id := secret.id, scopeType := secret.scopeType, scopeId := secret.scopeId, key := secret.key
    type := secret.type, createdAt := secret.createdAt, updatedAt := secret.updatedAt }

def ensureConfigured (masterKey : Option Bytes) : Except SecretError Unit :=
  if masterKey.isSome then .ok ()
  else .error (.internalServerError "Secrets master key is required to use secrets".toList)

def ensureScopeExists (catalog : Catalog) (scopeType : SecretScopeType) (scopeId : Text) : Except SecretError Unit :=
  match scopeType with
  | .system => .ok ()
  | .user => .ok ()
  | .org =>
    if catalog.hasOrg scopeId then .ok ()
    else .error (.notFound ("Organization ".toList ++ scopeId ++ " not found".toList))
  | .project =>
    if (catalog.projectOrg scopeId).isSome then .ok ()
    else .error (.notFound ("Project ".toList ++ scopeId ++ " not found".toList))

def secretNotFound (key : Text) : SecretError := .notFound ("Secret ".toList ++ key ++ " not found".toList)

section

variable (masterKey : Option Bytes) (catalog : Catalog)

def orStop {α β : Type} (table : SecretTable) (result : Except SecretError α)
    (next : α → Except SecretError β × SecretTable) : Except SecretError β × SecretTable :=
  match result with
  | .ok value => next value
  | .error error => (.error error, table)

def respond (key : Text) : Option Secret × SecretTable → Except SecretError SecretResponse × SecretTable
  | (some updated, changed) => (.ok updated.toResponse, changed)
  | (none, changed) => (.error (secretNotFound key), changed)

def create (scopeType : SecretScopeType) (scopeId key : Text) (value : CodePoints)
    (type : Option SecretType) (fresh : Fresh) (table : SecretTable) :
    Except SecretError SecretResponse × SecretTable :=
  orStop table (ensureConfigured masterKey) fun _ =>
  orStop table (ensureScopeExists catalog scopeType scopeId) fun _ =>
  orStop table (encrypt cipher masterKey fresh.iv value) fun encrypted =>
  match findByScopeAndKey table scopeType scopeId key with
  | some existing =>
    respond key (updateByKey table scopeType scopeId key (some encrypted) (some (type.getD existing.type)) fresh.now)
  | none =>
    let secret : Secret :=
      { id := fresh.id, scopeType, scopeId, key, type := type.getD .envVar
        valueEncrypted := encrypted, createdAt := fresh.now, updatedAt := fresh.now }
    (.ok secret.toResponse, table.insert secret)

def update (scopeType : SecretScopeType) (scopeId key : Text) (value : Option CodePoints)
    (type : Option SecretType) (fresh : Fresh) (table : SecretTable) :
    Except SecretError SecretResponse × SecretTable :=
  let given := value.filter (· ≠ [])
  orStop table (ensureConfigured masterKey) fun _ =>
  orStop table (ensureScopeExists catalog scopeType scopeId) fun _ =>
  if given.isNone ∧ type.isNone then (.error (.badRequest "No updates provided".toList), table)
  else
    orStop table (given.mapM (encrypt cipher masterKey fresh.iv)) fun encrypted =>
    respond key (updateByKey table scopeType scopeId key encrypted type fresh.now)

end

/-- The key and the value of a line `KEY=VALUE`; empty lines, comments and lines without a key are
skipped. -/
def parseLine (line : Text) : Option (Text × Text) :=
  let trimmed := Text.trim line
  if trimmed = [] ∨ Text.startsWith ['#'] trimmed then none
  else
    match trimmed.span (· ≠ '=') with
    | (_, []) => none
    | (before, _ :: after) =>
      let key := Text.trim before
      if key = [] then none else some (key, Text.trim after)

def systemSecrets (fileContent : Text) : List (Text × Text) := (fileContent.splitOn '\n').filterMap parseLine

def systemId : Text := "system".toList

def loadLines (masterKey : Option Bytes) (catalog : Catalog) (fresh : Nat → Fresh) :
    Nat → List (Text × Text) → SecretTable → Except SecretError Nat × SecretTable
  | loadedCount, [], table => (.ok loadedCount, table)
  | loadedCount, (key, value) :: rest, table =>
    match create cipher masterKey catalog .system systemId key (Utf8.ofText value) (some .envVar)
        (fresh loadedCount) table with
    | (.ok _, changed) => loadLines masterKey catalog fresh (loadedCount + 1) rest changed
    | (.error error, changed) => (.error error, changed)

variable (masterKey : Option Bytes) (catalog : Catalog)

def loadSystemSecrets (file : Option Text) (fresh : Nat → Fresh) (table : SecretTable) :
    Except SecretError Nat × SecretTable :=
  orStop table (ensureConfigured masterKey) fun _ =>
  match file with
  | none => (.ok 0, table)
  | some fileContent => loadLines cipher masterKey catalog fresh 0 (systemSecrets fileContent) table

structure ResolvedSecret where
  key : Text
  value : CodePoints
  type : SecretType
  scopeType : SecretScopeType
  scopeId : Text
  deriving DecidableEq

abbrev Resolved := Keyed ResolvedSecret.key

def decryptSecrets (secrets : List Secret) (scope : SecretScopeType) (scopeId : Text) (resolved : Resolved) :
    Resolved :=
  secrets.foldl
    (fun found secret =>
      match decrypt cipher masterKey secret.valueEncrypted with
      | .ok value => found.upsert ⟨secret.key, value, secret.type, scope, scopeId⟩
      | .error _ => found)
    resolved

def resolveScopes (table : SecretTable) (scopes : List (SecretScopeType × Text)) : Resolved :=
  scopes.foldl
    (fun resolved scope => decryptSecrets cipher masterKey
      (listByScope table scope.1 scope.2 500 0) scope.1 scope.2 resolved)
    Keyed.empty

def relevantScopes (projectId orgId : Text) (userId : Option Text) : List (SecretScopeType × Text) :=
  [(.system, systemId), (.org, orgId)] ++
    ((userId.filter (· ≠ [])).toList.map fun user => (.user, user)) ++ [(.project, projectId)]

def projectNotFound (projectId : Text) : SecretError :=
  .notFound ("Project ".toList ++ projectId ++ " not found".toList)

def resolveForProject (projectId : Text) (userId : Option Text) (table : SecretTable) :
    Except SecretError (List ResolvedSecret) :=
  match ensureConfigured masterKey with
  | .error error => .error error
  | .ok () =>
    match catalog.projectOrg projectId with
    | none => .error (projectNotFound projectId)
    | some orgId =>
      .ok (resolveScopes cipher masterKey table (relevantScopes projectId orgId userId)).rows

def listAvailableSecretKeys (table : SecretTable) (projectId orgId : Text) (userId : Option Text) : List Text :=
  ((relevantScopes projectId orgId userId).flatMap fun scope =>
    (listByScope table scope.1 scope.2 500 0).map Secret.key).eraseDups

def nextDistances (unit : Nat) : List Nat → List Nat → Nat → List Nat
  | corner :: above :: rest, other :: units, left =>
    let here := min (min (above + 1) (left + 1)) (corner + if unit = other then 0 else 1)
    here :: nextDistances unit (above :: rest) units here
  | _, _, _ => []

def levenshteinDistance (first second : Text) : Nat :=
  ((Text.units first).foldl (fun row unit =>
      let left := row.headD 0 + 1
      left :: nextDistances unit row (Text.units second) left)
    (List.range ((Text.units second).length + 1))).getLastD 0

variable (toUpperCase : Text → Text)

def findClosestMatches (target : Text) (candidates : List Text) (maxDistance : Nat) : List Text :=
  let results := candidates.filterMap fun candidate =>
    let apart := Int.natAbs (Text.unitLength target - Text.unitLength candidate : Int)
    let distance := levenshteinDistance (toUpperCase target) (toUpperCase candidate)
    if maxDistance < apart then none
    else if 0 < distance ∧ distance ≤ maxDistance then some (candidate, distance)
    else none
  (results.insertionSort fun left right => left.2 ≤ right.2).map Prod.fst

structure MissingSecret where
  key : Text
  hints : List Text
  suggestion : Option Text
  deriving DecidableEq

def setHint (key scope : Text) : Text := "eve secrets set ".toList ++ key ++ " <value> --".toList ++ scope

def missingSecret (projectId orgId : Text) (available : List Text) (key : Text) : MissingSecret where
  key := key
  hints :=
    [setHint key ("project ".toList ++ projectId), setHint key ("org ".toList ++ orgId), setHint key "system".toList]
  suggestion :=
    (findClosestMatches toUpperCase key available 2).head?.map fun closest =>
      "Did you mean \"".toList ++ closest ++ "\"?".toList

def validateRequiredSecrets (toUpperCase : Text → Text) (catalog : Catalog) (projectId : Text)
    (requiredKeys : List Text) (userId : Option Text) (table : SecretTable) :
    Except SecretError (List MissingSecret) :=
  match catalog.projectOrg projectId with
  | none => .error (projectNotFound projectId)
  | some orgId =>
    let required := (requiredKeys.filter (· ≠ [])).eraseDups
    if required.length = 0 then .ok []
    else
      let available := listAvailableSecretKeys table projectId orgId userId
      .ok ((required.filter fun key => !available.contains key).map
        (missingSecret toUpperCase projectId orgId available))

end EveHorizon.Secrets
