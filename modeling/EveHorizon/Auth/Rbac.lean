import EveHorizon.Access.Permissions

/-!
# Roles and permissions

What a user may do in an organisation and its projects, as two services work it out: the guard
of the API from the base role and the custom roles, the access service from a list of grants.
-/

namespace EveHorizon.Auth

def texts (names : List String) : List Text := names.map String.toList

def ALL_PERMISSIONS : List Text :=
  texts ["jobs:read", "jobs:write", "jobs:admin", "jobs:harness_override", "threads:read",
    "threads:write", "threads:admin", "projects:read", "projects:create", "projects:write",
    "projects:admin", "envs:read", "envs:write", "envs:admin", "envdb:read", "envdb:write",
    "orgfs:read", "orgfs:write", "orgfs:admin", "orgdocs:read", "orgdocs:write", "orgdocs:admin",
    "secrets:read", "secrets:write", "secrets:admin", "builds:read", "builds:write",
    "builds:admin", "releases:read", "releases:write", "releases:admin", "pipelines:read",
    "pipelines:write", "pipelines:admin", "agents:read", "agents:write", "agents:admin",
    "workflows:read", "workflows:write", "orgs:read", "orgs:create", "orgs:write", "orgs:admin",
    "orgs:members:read", "orgs:invite", "integrations:read", "integrations:write",
    "cloud_fs:read", "cloud_fs:write", "cloud_fs:admin", "events:read", "events:write",
    "chat:write", "notifications:send", "endpoints:read", "endpoints:write", "system:read", "system:admin"]

def validatePermission (permission : Text) : Except Text Unit :=
  if ALL_PERMISSIONS.contains permission then .ok ()
  else .error ("Unknown permission: ".toList ++ permission ++ ". Valid permissions: ".toList ++
    ", ".toList.intercalate ALL_PERMISSIONS)

def MEMBER_PERMISSIONS : List Text :=
  texts ["jobs:read", "jobs:write", "jobs:harness_override", "threads:read", "threads:write",
    "projects:read", "projects:create", "orgs:read", "orgs:create", "orgs:members:read",
    "envs:read", "envdb:read", "secrets:read", "builds:read", "pipelines:read", "workflows:read",
    "integrations:read", "endpoints:read", "events:read", "cloud_fs:read"]

def ADMIN_EXTRA : List Text :=
  texts ["projects:write", "projects:admin", "envs:write", "envs:admin", "envdb:write",
    "secrets:write", "secrets:admin", "builds:write", "builds:admin", "releases:admin",
    "pipelines:write", "pipelines:admin", "workflows:write", "orgs:write", "orgs:invite",
    "integrations:write", "endpoints:write", "events:write", "chat:write", "notifications:send",
    "jobs:admin", "agents:admin", "threads:admin", "cloud_fs:write", "cloud_fs:admin", "system:read"]

def OWNER_EXTRA : List Text := texts ["orgs:admin"]

inductive MembershipRole where
  | member | admin | owner
  deriving DecidableEq

def MembershipRole.name : MembershipRole → Text
  | .member => "member".toList
  | .admin => "admin".toList
  | .owner => "owner".toList

def expandPermissions : MembershipRole → List Text
  | .member => MEMBER_PERMISSIONS
  | .admin => MEMBER_PERMISSIONS ++ ADMIN_EXTRA
  | .owner => MEMBER_PERMISSIONS ++ ADMIN_EXTRA ++ OWNER_EXTRA

structure Project where
  id : Text
  slug : Text
  orgId : Text
  deleted : Bool := false
  deriving DecidableEq

structure Membership where
  scopeId : Text
  userId : Text
  role : MembershipRole

structure AccessRole where
  id : Text
  orgId : Text
  name : Text
  permissions : List Text

inductive PrincipalType where
  | user | servicePrincipal | group
  deriving DecidableEq

structure AccessBinding where
  id : Text
  roleId : Text
  principalType : PrincipalType
  principalId : Text
  projectId : Option Text
  scopeJson : Option Access.AccessBindingScope

structure AccessBindingWithRole extends AccessBinding where
  roleName : Text
  rolePermissions : List Text
  matchedGroupSlug : Option Text := none

structure AccessGroup where
  id : Text
  orgId : Text
  slug : Text

structure AccessGroupMember where
  groupId : Text
  principalType : PrincipalType
  principalId : Text

inductive OwnedResourceKind where
  | job | pipelineRun | build | thread
  deriving DecidableEq

structure OwnedResource where
  kind : OwnedResourceKind
  id : Text
  projectId : Text

def projectPrefix : Text := "proj_".toList

/-- The tables. Bindings are in the order of their creation; slugs are unique in an
organisation, and bindings refer to projects. -/
structure RbacDb where
  projects : List Project
  orgMemberships : List Membership
  projectMemberships : List Membership
  roles : List AccessRole
  bindings : List AccessBinding
  groups : List AccessGroup
  groupMembers : List AccessGroupMember
  resources : List OwnedResource
  project_ids : ∀ project ∈ projects, ∀ other ∈ projects, project.id = other.id → project = other
  project_slugs : ∀ project ∈ projects, ∀ other ∈ projects,
    project.orgId = other.orgId → project.slug = other.slug → project = other
  ids_begin : ∀ project ∈ projects, Text.startsWith projectPrefix project.id = true
  slugs_begin : ∀ project ∈ projects, Text.startsWith projectPrefix project.slug = false
  slugs_present : ∀ project ∈ projects, project.slug ≠ []
  bound_projects : ∀ binding ∈ bindings, ∀ id, binding.projectId = some id → ∃ project ∈ projects, project.id = id

namespace RbacDb

variable (db : RbacDb)

def findProject (id : Text) : Option Project :=
  db.projects.find? fun project => project.id == id && !project.deleted

def resolveProject (projectInput : Text) : Option Project :=
  if Text.startsWith projectPrefix projectInput then db.findProject projectInput
  else db.projects.find? fun project => project.slug == projectInput && !project.deleted

variable (userId : Text)

def findOrgMembership (orgId : Text) : Option Membership :=
  db.orgMemberships.find? fun row => row.userId == userId && row.scopeId == orgId

def findProjectMembership (projectId : Text) : Option Membership :=
  db.projectMemberships.find? fun row => row.userId == userId && row.scopeId == projectId

variable (orgId : Text) (principalType : PrincipalType) (principalId : Text)

def memberGroup (binding : AccessBinding) : Option AccessGroup :=
  db.groups.find? fun group =>
    binding.principalType == .group && group.id == binding.principalId && group.orgId == orgId &&
      db.groupMembers.any fun member =>
        member.groupId == group.id && member.principalType == principalType && member.principalId == principalId

variable (projectId : Option Text)

def applies (binding : AccessBinding) :
    Option AccessBindingWithRole := do
  let role ← db.roles.find? (·.id == binding.roleId)
  guard (role.orgId = orgId ∧ (binding.projectId = none ∨ binding.projectId = projectId))
  let bound : AccessBindingWithRole :=
    { binding with roleName := role.name, rolePermissions := role.permissions }
  if binding.principalType = principalType ∧ binding.principalId = principalId then return bound
  else
    let group ← db.memberGroup orgId principalType principalId binding
    return { bound with matchedGroupSlug := some group.slug }

def listApplicableBindings : List AccessBindingWithRole :=
  db.bindings.filterMap (db.applies orgId principalType principalId projectId)

def getEffectiveCustomPermissions (orgId : Text) (projectId : Option Text) : List Text :=
  (db.listApplicableBindings orgId principalType principalId projectId).flatMap
    AccessBindingWithRole.rolePermissions

def getResourceProjectContext (kind : OwnedResourceKind) (id : Text) : Option Project := do
  let resource ← db.resources.find? fun row => row.kind == kind && row.id == id
  db.projects.find? (·.id == resource.projectId)

def named : Option Text := projectId.filter (!·.isEmpty)

def baseRole (orgId : Text) (projectId : Option Text) : Option MembershipRole :=
  let inProject := (named projectId).bind fun input =>
    (db.resolveProject input).bind fun project => db.findProjectMembership userId project.id
  match inProject with
  | some membership => some membership.role
  | none => (db.findOrgMembership userId orgId).map Membership.role

def getEffectivePermissions (orgId : Text) (projectId : Option Text) : List Text :=
  ((db.baseRole userId orgId projectId).map expandPermissions).getD [] ++
    db.getEffectiveCustomPermissions .user userId orgId projectId

def BUILT_IN_ROLE_SCOPE : Access.AccessBindingScope where
  envdb := some { schemas := some [['*']], tables := some [['*']] }
  orgfs := some { allowPrefixes := some [['*']] }
  orgdocs := some { allowPrefixes := some [['*']] }
  cloudFs := some { allowMountIds := some [['*']] }

def membershipGrant (kind : String) (membership : Membership) : Access.RawGrant where
  source := kind.toList ++ " membership (".toList ++ membership.scopeId ++ ")".toList
  role := some membership.role.name
  permissions := expandPermissions membership.role
  scopeJson := some (some BUILT_IN_ROLE_SCOPE)

variable (binding : AccessBindingWithRole)

def describeBindingScope : Text :=
  match binding.projectId with
  | some projectId => "on project ".toList ++ projectId
  | none => "on org ".toList ++ orgId

def describeBindingSource : Text :=
  "custom role '".toList ++ binding.roleName ++ "' ".toList ++ (match binding.matchedGroupSlug with
    | some slug => "via group '".toList ++ slug ++ "' ".toList
    | none => []) ++ describeBindingScope orgId binding

def bindingGrant : Access.RawGrant where
  source := describeBindingSource orgId binding
  role := some binding.roleName
  permissions := binding.rolePermissions
  scopeJson := some binding.scopeJson

def projectGrant (userId : Text) (projectId : Option Text) : Option Access.RawGrant := do
  let input ← named projectId
  let project ← db.resolveProject input
  guard (project.orgId = orgId)
  let membership ← db.findProjectMembership userId project.id
  return membershipGrant "project" membership

def collectUserGrants (userId : Text) (projectId : Option Text) : List Access.RawGrant :=
  (db.projectGrant orgId userId projectId).toList ++
    ((db.findOrgMembership userId orgId).map (membershipGrant "org")).toList ++
    (db.listApplicableBindings orgId .user userId projectId).map (bindingGrant orgId)

def canUser (userId : Text) (projectId : Option Text) (permission : Text)
    (resource : Option Access.AccessResourceContext) : Except Text Bool := do
  validatePermission permission
  return (Access.evaluatePermission permission (db.collectUserGrants orgId userId projectId) resource).allowed

end RbacDb

end EveHorizon.Auth
