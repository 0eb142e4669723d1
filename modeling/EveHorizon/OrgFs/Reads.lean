import EveHorizon.Access.JobScope
import EveHorizon.Library.Checks
import EveHorizon.Library.Like
import EveHorizon.OrgFs.EventLog

/-!
# Reading an organization's file system

The endpoints that hand out events, objects and shares.
-/

namespace EveHorizon.OrgFs

open Access (AuthUser AccessPrincipal AccessResourceContext RawGrant evaluatePermission)
open Like (like)

inductive ReadError where
  | unauthorized (message : Text)
  | forbidden (message : Text)
  | badRequest (message : Text)
  | api (status : Nat) (code : Text) (message : Text)
  | invalidDate
  deriving DecidableEq

structure RequestUser extends AuthUser where
  isAdmin : Bool := false
  isServiceToken : Bool := false

/-- The user of a request, its effective permissions in the organization, and the grants of
every principal. -/
structure Caller where
  authEnabled : Bool := true
  user : Option RequestUser
  effective : List Text := []
  grantsOf : AccessPrincipal → List RawGrant

namespace Caller

variable (caller : Caller)

def resolvePermissions (user : RequestUser) : List Text :=
  if user.isJobToken || user.isServiceToken || user.isServicePrincipal then
    user.permissions.getD []
  else caller.effective

def canActivate (required : Text) : Except ReadError Unit :=
  if !caller.authEnabled then .ok ()
  else
    match caller.user.filter (fun user => !user.userId.isEmpty) with
    | none => .error (.unauthorized "Missing user context".toList)
    | some user =>
      if user.isAdmin then .ok ()
      else if (caller.resolvePermissions user).contains required then .ok ()
      else .error (.forbidden ("Missing required permission: ".toList ++ required))

def can (caller : Caller) (permission : Text) (resource : Option AccessResourceContext) : Except ReadError Bool :=
  (Access.can caller.authEnabled
    (fun principal => (evaluatePermission permission (caller.grantsOf principal) resource).allowed)
    permission (caller.user.map RequestUser.toAuthUser) resource).mapError
      fun message => .unauthorized message.toList

def assert (permission : Text) (resource : Option AccessResourceContext) :
    Except ReadError Unit := do
  if ← caller.can permission resource then return ()
  else
    throw (.api 403 "resource_access_denied".toList (match resource with
        | some resource =>
          "Access denied for resource: ".toList ++ resource.type.name ++ [':'] ++ resource.id
        | none => "Access denied for permission: ".toList ++ permission))

def Reads (path : Text) : Prop :=
  caller.can readPermission (some ⟨.orgfs, path, .read⟩) = .ok true

instance (caller : Caller) (path : Text) : Decidable (caller.Reads path) := by
  unfold Reads
  infer_instance

end Caller

structure Org where
  id : Text
  slug : Text

structure OrgFsObject where
  id : Text
  orgId : Text
  path : Text
  storageKey : Text
  contentHash : Text
  sizeBytes : Nat
  mimeType : Text := "application/octet-stream".toList
  deletedAt : Option Nat := none
  deriving DecidableEq

structure OrgFsShareRow where
  id : Text
  orgId : Text
  path : Text
  label : Option Text
  createdBy : Text
  expiresAt : Option Nat
  revokedAt : Option Nat := none
  createdAt : Nat
  deriving DecidableEq

def OrgFsShareRow.isActive (now : Nat) (row : OrgFsShareRow) : Bool :=
  row.revokedAt.isNone && row.expiresAt.all fun expiresAt => decide (now < expiresAt)

structure Content where
  orgs : List Org
  log : EventLog
  objects : List OrgFsObject
  shares : List OrgFsShareRow
  storageConfigured : Bool := true
  rooted : ∀ event ∈ log.events, event.path.toList.head? = some '/'

def OrgFsEvent.filePath (event : OrgFsEvent) : Text := event.path.toList

def normalizePath (path : Text) : Except ReadError Text :=
  let value := Text.trim path
  if value.isEmpty then
    .error (.api 400 "fs_path_invalid".toList "Path cannot be empty".toList)
  else
    let normalized := if Text.startsWith ['/'] value then value else '/' :: value
    if (normalized.splitOn '/').contains ['.', '.'] then
      .error (.api 400 "fs_path_out_of_scope".toList "Path cannot traverse outside org root".toList)
    else .ok normalized

def millisecondsPer : Char → Option Nat
  | 's' => some 1000
  | 'm' => some 60000
  | 'h' => some 3600000
  | 'd' => some 86400000
  | _ => none

def digitValue (digits : Text) : Nat :=
  digits.foldl (fun value digit => 10 * value + (digit.toNat - '0'.toNat)) 0

def expiryMilliseconds (value : Text) : Option Nat :=
  match value.getLast?.bind millisecondsPer with
  | none => none
  | some unit =>
    if value.dropLast.isEmpty || !value.dropLast.all Char.isDigit then none
    else some (digitValue value.dropLast * unit)

def lastDate : Nat := 8640000000000000

def parseExpiry (now : Nat) (expiresIn : Option Text) : Except ReadError (Option Nat) :=
  match expiresIn.filter (!·.isEmpty) with
  | none => .ok none
  | some expiresIn =>
    match expiryMilliseconds ((Text.trim expiresIn).map Char.toLower) with
    | none =>
      .error (.api 400 "invalid_expires_in".toList ("Invalid expires_in value: ".toList ++ expiresIn ++
          ". Use e.g. '7d', '24h', '30m', '3600s'".toList))
    | some milliseconds =>
      if now + milliseconds ≤ lastDate then .ok (some (now + milliseconds))
      else .error .invalidDate

namespace Content

variable (content : Content)

def resolveOrg (orgIdOrSlug : Text) : Except ReadError Org :=
  match content.orgs.find? (·.id == orgIdOrSlug) with
  | some org => .ok org
  | none =>
    match content.orgs.find? (·.slug == orgIdOrSlug) with
    | some org => .ok org
    | none =>
      .error (.api 404 "resource_not_found".toList ("Organization ".toList ++ orgIdOrSlug ++ " not found".toList))

def requireStorageConfigured : Except ReadError Unit :=
  if content.storageConfigured then .ok ()
  else
    .error (.api 503 "fs_storage_not_configured".toList ("Object storage is not configured on this platform. " ++
        "Set EVE_STORAGE_BACKEND to enable.").toList)

def findByPath (org : Org) (path : Text) : Except ReadError OrgFsObject :=
  match content.objects.find? fun object =>
      object.orgId == org.id && object.path == path && object.deletedAt.isNone with
  | some object => .ok object
  | none =>
    .error (.api 404 "resource_not_found".toList ("No stored object found at path ".toList ++ path))

def listEvents (orgIdOrSlug : Text) (afterSeq limit : Int) : Except ReadError (List OrgFsEvent) := do
  let org ← content.resolveOrg orgIdOrSlug
  if afterSeq < 0 then
    throw (.api 400 "fs_cursor_invalid".toList ("Invalid after_seq value: " ++ toString afterSeq).toList)
  return content.log.listEvents (String.ofList org.id) afterSeq.toNat (boundedLimit limit)

structure ListObjects where
  pathPrefix : Option Text
  limit : Int
  after : Option Text

def ListObjects.selects (precedes : Text → Text → Bool) (opts : ListObjects) (path : Text) : Bool :=
  opts.pathPrefix.all (fun pathPrefix => like (pathPrefix ++ ['%']) path) &&
    opts.after.all (fun after => !precedes path after)

def listObjects (precedes : Text → Text → Bool) (orgIdOrSlug : Text) (opts : ListObjects) :
    Except ReadError (List OrgFsObject) := do
  let org ← content.resolveOrg orgIdOrSlug
  return ((content.objects.filter fun object =>
      object.orgId == org.id && object.deletedAt.isNone && opts.selects precedes object.path).insertionSort
    (fun left right => precedes left.path right.path)).take (boundedLimit opts.limit)

structure CreateShare where
  path : Text
  expiresIn : Option Text := none
  label : Option Text := none

structure Moment where
  now : Nat
  freshId : Text

def createShare (moment : Moment) (orgIdOrSlug : Text) (body : CreateShare) (actorId : Text) :
    Except ReadError (OrgFsShareRow × Content) := do
  content.requireStorageConfigured
  let org ← content.resolveOrg orgIdOrSlug
  let normalizedPath ← normalizePath body.path
  let _ ← content.findByPath org normalizedPath
  let expiresAt ← parseExpiry moment.now body.expiresIn
  let row : OrgFsShareRow :=
    { id := moment.freshId
      orgId := org.id
      path := normalizedPath
      label := body.label
      createdBy := actorId
      expiresAt
      createdAt := moment.now }
  return (row, { content with shares := content.shares ++ [row] })

def listShares (now : Nat) (orgIdOrSlug : Text) : Except ReadError (List OrgFsShareRow) := do
  let org ← content.resolveOrg orgIdOrSlug
  return (content.shares.filter fun row => row.orgId == org.id && row.isActive now).insertionSort
    fun left right => right.createdAt ≤ left.createdAt

def getDownloadUrl (orgIdOrSlug path : Text) : Except ReadError OrgFsObject := do
  content.requireStorageConfigured
  let org ← content.resolveOrg orgIdOrSlug
  let normalizedPath ← normalizePath path
  content.findByPath org normalizedPath

end Content

inductive StreamMessage where
  | event (event : OrgFsEvent)
  | checkpoint (cursor : Int)
  deriving DecidableEq

def streamBatch (cursor : Int) (batch : List OrgFsEvent) : List StreamMessage × Int :=
  (if batch.isEmpty then [.checkpoint cursor] else batch.map .event,
    (batch.getLast?.map fun event => (event.seq : Int)).getD cursor)

def streamEvents (orgIdOrSlug : Text) : Int → List Content → List StreamMessage
  | _, [] => []
  | cursor, content :: later =>
    match content.listEvents orgIdOrSlug cursor streamBatchLimit with
    | .error _ => []
    | .ok batch =>
      (streamBatch cursor batch).1 ++ streamEvents orgIdOrSlug (streamBatch cursor batch).2 later

end EveHorizon.OrgFs
