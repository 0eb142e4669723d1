import EveHorizon.Auth.Rbac
import EveHorizon.Auth.TokenVerifier

/-!
# The permission guard

What the guard of the API checks before a request reaches its endpoint: which project, resource
or organisation the route addresses, what the user of the request may do there, and whether that
is what the endpoint requires.
-/

namespace EveHorizon.Auth

inductive Refusal where
  | unauthorized (message : Text)
  | forbidden (message : Text)
  | notFound (message : Text)
  | fault (message : Text)

structure RouteParams where
  projectId : Option Text := none
  orgId : Option Text := none
  id : Option Text := none
  jobId : Option Text := none
  runId : Option Text := none
  buildId : Option Text := none
  threadId : Option Text := none

structure GuardedRequest where
  params : RouteParams := {}
  routeUrl : Option Text := none
  url : Option Text := none
  body : Option Json := none

variable (request : GuardedRequest)

def GuardedRequest.path : Text := (request.routeUrl.or request.url).getD []

def given (text : Option Text) : Option Text := text.filter (!·.isEmpty)

def paramUnder (leading : String) (param : Option Text) : Option Text :=
  (given param).filter fun _ => Text.startsWith leading.toList request.path

structure ResourceRef where
  kind : OwnedResourceKind
  id : Text

def extractProjectId : Option Text :=
  (given request.params.projectId).or (paramUnder request "/projects/" request.params.id)

def extractResourceRef : Option ResourceRef :=
  ((given request.params.jobId).map (ResourceRef.mk .job)).or
    (((paramUnder request "/pipeline-runs/" request.params.runId).map (ResourceRef.mk .pipelineRun)).or
      (((paramUnder request "/builds/" request.params.buildId).map (ResourceRef.mk .build)).or
        ((paramUnder request "/threads/" request.params.threadId).map (ResourceRef.mk .thread))))

def bodyOrgId : Json.Member :=
  match request.body with
  | none | some .null => .undefined
  | some body => field body "org_id"

section

variable {PublicKey PrivateKey : Type} (runtime : Runtime PublicKey PrivateKey)

def extractOrgId (request : GuardedRequest) : Option Json.Member :=
  match (given request.params.orgId).or (paramUnder request "/orgs/" request.params.id) with
  | some orgId => some (.json (.string orgId))
  | none =>
    if runtime.truthy (bodyOrgId request) then some (bodyOrgId request)
    else none

end

def OwnedResourceKind.label : OwnedResourceKind → String
  | .job => "Job"
  | .pipelineRun => "Pipeline run"
  | .build => "Build"
  | .thread => "Thread"

section

variable (db : RbacDb)

def resourceOwner (resource : ResourceRef) : Except Refusal Project :=
  match db.getResourceProjectContext resource.kind resource.id with
  | some owner => .ok owner
  | none => .error (.notFound (resource.kind.label.toList ++ " not found".toList))

def projectOwner (projectInput : Text) : Except Refusal Project :=
  match db.resolveProject projectInput with
  | some project => .ok project
  | none => .error (.notFound "Project not found".toList)

variable (user : AuthUser)

def inOwnSubtree (resource : ResourceRef) : Bool :=
  resource.kind == .job && (given user.jobId).any fun jobId =>
    resource.id == jobId || Text.startsWith (jobId ++ ['.']) resource.id

def assertTokenMayAddressResource (resource : ResourceRef) : Except Refusal Unit :=
  if inOwnSubtree user resource then .ok ()
  else do
    let owner ← resourceOwner db resource
    match given user.projectId, given user.orgId with
    | some projectId, _ =>
      if projectId ≠ owner.id then
        .error (.forbidden "Token is not scoped to the project that owns this resource".toList)
      else .ok ()
    | none, some orgId =>
      if orgId ≠ owner.orgId then
        .error (.forbidden "Token is not scoped to the org that owns this resource".toList)
      else .ok ()
    | none, none =>
      .error (.forbidden "Token carries no project or org scope for this resource".toList)

def permissionsWithin (userId orgId : Text) (projectId : Option Text) : List Text :=
  if orgId.isEmpty then expandPermissions .member
  else db.getEffectivePermissions userId orgId projectId

def carriesPermissions : Bool :=
  user.isJobToken || user.isServiceToken || user.isServicePrincipal

section

variable {PublicKey PrivateKey : Type} (runtime : Runtime PublicKey PrivateKey) (driver : Driver) (user : AuthUser)

def resolveTokenPermissions (request : GuardedRequest) : Except Refusal (List Text) :=
  match extractProjectId request, extractResourceRef request with
  | none, some resource => do
    assertTokenMayAddressResource db user resource
    return user.permissions.getD []
  | _, _ => .ok (user.permissions.getD [])

def resolveUserPermissions (request : GuardedRequest) : Except Refusal (List Text) :=
  match extractProjectId request, extractResourceRef request with
  | some projectId, _ => do
    let project ← projectOwner db projectId
    return permissionsWithin db user.userId project.orgId (some projectId)
  | none, some resource => do
    let owner ← resourceOwner db resource
    return permissionsWithin db user.userId owner.orgId (some owner.id)
  | none, none =>
    match extractOrgId runtime request with
    | none => .ok (expandPermissions .member)
    | some named =>
      match driver.sent named with
      | none => .error (.fault "The value cannot be sent to the database".toList)
      | some orgId => .ok (db.getEffectivePermissions user.userId orgId none)

def resolvePermissions (request : GuardedRequest) : Except Refusal (List Text) :=
  if carriesPermissions user then resolveTokenPermissions db user request
  else resolveUserPermissions db runtime driver user request

structure Endpoint where
  isPublic : Bool := false
  required : Option (List Text) := none

def hasAnyPermission (permissions required : List Text) : Bool := required.any permissions.contains

def undecorated : Except Refusal Bool :=
  if user.isJobToken then
    .error (.forbidden "Job tokens require explicit permission grants for this endpoint".toList)
  else if user.isServiceToken then
    .error (.forbidden "Service tokens require explicit permission grants for this endpoint".toList)
  else if user.isServicePrincipal then
    .error (.forbidden "Service principal tokens require explicit permission grants for this endpoint".toList)
  else .ok true

def canActivate (enabled : Bool) (endpoint : Endpoint) (user : Option AuthUser)
    (request : GuardedRequest) : Except Refusal Bool :=
  if !enabled || endpoint.isPublic then .ok true
  else
    match user.filter (!·.userId.isEmpty) with
    | none => .error (.unauthorized "Missing user context".toList)
    | some user =>
      if user.isAdmin then .ok true
      else
        let required := endpoint.required.getD []
        if required.isEmpty then undecorated user
        else do
          let effective ← resolvePermissions db runtime driver user request
          if !hasAnyPermission effective required then
            .error (.forbidden ("Missing required permission: ".toList ++ List.intercalate " or ".toList required))
          else .ok true

end

end

end EveHorizon.Auth
