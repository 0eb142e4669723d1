import EveHorizon.Auth.Rbac
import EveHorizon.Auth.ServicePrincipals

/-!
# Questions to the access service

Whether a principal may do something, and why: two entry points over the grants of users,
service principals and groups.
-/

namespace EveHorizon.Access

open List

variable (permission : Text) (resource : Option AccessResourceContext)

def explained (grant : RawGrant) : AccessExplainGrant :=
  explainGrant grant (if grant.permissions.contains permission then
    some (evaluateScope grant.scopeJson.join permission resource) else none)

def AccessExplainGrant.Allows (grant : AccessExplainGrant) (permission : Text) : Prop :=
  grant.hasPermission = true ∧ (scopeRequiredForPermission permission = true → grant.scopeMatch = some true)

theorem evaluateScope_scopeRequired (scope : Option AccessBindingScope) (permission : Text)
    (resource : Option AccessResourceContext) :
    (evaluateScope scope permission resource).scopeRequired = scopeRequiredForPermission permission := by
  unfold evaluateScope scopeRequiredForPermission
  cases permissionResourceType permission with
  | none => rfl
  | some resourceType =>
    cases scope with
    | none => rfl
    | some scope => exact evaluateFacet_scopeRequired scope resourceType resource

theorem evaluateGrant_flags (evaluation : PermissionEvaluation) (grant : RawGrant) :
    let next := evaluateGrant permission resource evaluation grant
    next.permissionMatched = (evaluation.permissionMatched || grant.permissions.contains permission) ∧
      next.scopeRequired = evaluation.scopeRequired ∧
      next.scopeMatched = (evaluation.scopeMatched ||
        (scopeRequiredForPermission permission && grant.admits permission resource)) ∧
      next.grants = evaluation.grants ++ [explained permission resource grant] := by
  have required := evaluateScope_scopeRequired grant.scopeJson.join permission resource
  unfold evaluateGrant explained RawGrant.admits
  generalize evaluateScope grant.scopeJson.join permission resource = scopeEval at required ⊢
  generalize "permission grant found but resource scope denied".toList = refusal
  obtain ⟨scopeRequired, scopeMatched, reason⟩ := scopeEval
  subst required
  cases grant.permissions.contains permission with
  | false => simp
  | true =>
    cases scopeRequiredForPermission permission <;> cases scopeMatched <;> simp

variable (grants : List RawGrant)

theorem foldl_evaluateGrant_flags (evaluation : PermissionEvaluation) :
    let evaluated := grants.foldl (evaluateGrant permission resource) evaluation
    evaluated.permissionMatched =
        (evaluation.permissionMatched || grants.any (·.permissions.contains permission)) ∧
      evaluated.scopeRequired = evaluation.scopeRequired ∧
      evaluated.scopeMatched = (evaluation.scopeMatched ||
        (scopeRequiredForPermission permission && grants.any (RawGrant.admits · permission resource))) ∧
      evaluated.grants = evaluation.grants ++ grants.map (explained permission resource) := by
  induction grants generalizing evaluation with
  | nil => simp
  | cons grant grants ih =>
    obtain ⟨matched, required, inScope, listed⟩ := evaluateGrant_flags permission resource evaluation grant
    obtain ⟨ihMatched, ihRequired, ihInScope, ihListed⟩ := ih (evaluateGrant permission resource evaluation grant)
    simp only [foldl_cons, any_cons, map_cons]
    refine ⟨?_, ihRequired.trans required, ?_, ?_⟩
    · rw [ihMatched, matched, Bool.or_assoc]
    · rw [ihInScope, inScope, Bool.or_assoc, ← Bool.and_or_distrib_left]
    · rw [ihListed, listed, append_assoc, singleton_append]

theorem admits_permission {permission : Text} {resource : Option AccessResourceContext}
    {grants : List RawGrant} (absent : grants.any (·.permissions.contains permission) = false) :
    grants.any (RawGrant.admits · permission resource) = false := by
  rw [any_eq_false] at absent ⊢
  intro grant member
  simp only [RawGrant.admits, Bool.eq_false_iff.mpr (absent grant member), Bool.false_and,
    Bool.false_eq_true, not_false_eq_true]

variable (evaluated : PermissionEvaluation)

def PermissionEvaluation.settle (scopeRequired : Bool) : PermissionEvaluation :=
  let matched :=
    if evaluated.permissionMatched then evaluated
    else { evaluated with source := "no grant found".toList, scopeMatched := false }
  if scopeRequired then matched else { matched with scopeMatched := matched.allowed }

theorem settle_flags (scopeRequired : Bool) :
    let settled := evaluated.settle scopeRequired
    settled.permissionMatched = evaluated.permissionMatched ∧ settled.scopeRequired = evaluated.scopeRequired ∧
      settled.scopeMatched = (if scopeRequired then evaluated.permissionMatched && evaluated.scopeMatched
        else evaluated.allowed) ∧ settled.grants = evaluated.grants := by
  unfold PermissionEvaluation.settle
  cases scopeRequired <;> cases matched : evaluated.permissionMatched <;> simp [matched]

theorem evaluatePermission_flags (resource : Option AccessResourceContext) :
    let evaluation := evaluatePermission permission grants resource
    evaluation.permissionMatched = grants.any (·.permissions.contains permission) ∧
      evaluation.scopeRequired = scopeRequiredForPermission permission ∧
      evaluation.scopeMatched = grants.any (RawGrant.admits · permission resource) ∧
      evaluation.grants = grants.map (explained permission resource) := by
  let start : PermissionEvaluation :=
    { allowed := false
      source := "no grant found".toList
      permissionMatched := false
      scopeRequired := scopeRequiredForPermission permission
      scopeMatched := !scopeRequiredForPermission permission
      deniedByScope := false
      grants := [] }
  have allowed := foldl_evaluateGrant_allowed permission resource grants start
  obtain ⟨matched, required, inScope, listed⟩ := foldl_evaluateGrant_flags permission resource grants start
  obtain ⟨settledMatched, settledRequired, settledInScope, settledListed⟩ :=
    settle_flags (grants.foldl (evaluateGrant permission resource) start) (scopeRequiredForPermission permission)
  refine ⟨settledMatched.trans matched, settledRequired.trans required, settledInScope.trans ?_,
    settledListed.trans listed⟩
  rw [allowed, matched, inScope]
  cases held : grants.any (·.permissions.contains permission) with
  | false => simp [start, admits_permission held]
  | true => cases required : scopeRequiredForPermission permission <;> simp [start, required]

theorem explained_allows (grant : RawGrant) :
    (explained permission resource grant).Allows permission ↔ grant.admits permission resource = true := by
  have required := evaluateScope_scopeRequired grant.scopeJson.join permission resource
  unfold AccessExplainGrant.Allows explained RawGrant.admits explainGrant
  cases grant.permissions.contains permission with
  | false => simp
  | true => cases inScope : scopeRequiredForPermission permission <;> simp_all

theorem evaluatePermission_listed (resource : Option AccessResourceContext) :
    (evaluatePermission permission grants resource).allowed = true ↔
      ∃ grant ∈ (evaluatePermission permission grants resource).grants, grant.Allows permission := by
  obtain ⟨-, -, -, listed⟩ := evaluatePermission_flags permission grants resource
  simp only [evaluatePermission_allowed, listed, any_eq_true, mem_map, exists_exists_and_eq_and, explained_allows]

theorem evaluatePermission_perm {grants others : List RawGrant} (permuted : grants.Perm others)
    (permission : Text) (resource : Option AccessResourceContext) :
    let evaluation := evaluatePermission permission grants resource
    let other := evaluatePermission permission others resource
    evaluation.allowed = other.allowed ∧ evaluation.scopeMatched = other.scopeMatched ∧
      evaluation.permissionMatched = other.permissionMatched := by
  obtain ⟨matched, -, inScope, -⟩ := evaluatePermission_flags permission grants resource
  obtain ⟨otherMatched, -, otherInScope, -⟩ := evaluatePermission_flags permission others resource
  simp only [matched, otherMatched, inScope, otherInScope, evaluatePermission_allowed, permuted.any_eq, and_self]

end EveHorizon.Access

namespace EveHorizon.Auth

open EveHorizon.Access

structure AccessQuery where
  orgId : Text
  principalType : PrincipalType
  principalId : Text
  projectId : Option Text := none
  permission : Text
  resource : Option AccessResourceContext := none

structure AccessResponseResource extends AccessResourceContext where
  scopeRequired : Bool
  scopeMatched : Bool

structure AccessCanResponse where
  allowed : Bool
  source : Text
  resource : Option AccessResponseResource := none

inductive AccessResult where
  | allowed | denied
  deriving DecidableEq

structure AccessExplainResponse where
  permission : Text
  result : AccessResult
  grants : List AccessExplainGrant
  missingReason : Option Text
  resource : Option AccessResponseResource := none

variable (permission : Text)

def suggestRequiredRole : Text :=
  match [MembershipRole.member, .admin, .owner].find? fun role =>
      (expandPermissions role).contains permission with
  | some role => permission ++ " requires ".toList ++ role.name ++ " role or higher".toList
  | none => permission ++ " is not granted by any standard role".toList

variable (resource : Option AccessResourceContext)

def scopeMissingReason : Text :=
  match permissionResourceType permission, resource with
  | none, _ => "missing required permission ".toList ++ permission
  | some resourceType, some resource => permission ++ " grant found but resource '".toList ++ resource.id ++
      "' is outside ".toList ++ resourceType.name ++ " scope".toList
  | some resourceType, none => permission ++ " requires an explicit ".toList ++ resourceType.name ++
      " scoped grant".toList

def notFound (source : String) (permission : Text) : PermissionEvaluation where
  allowed := false
  source := source.toList
  permissionMatched := false
  scopeRequired := scopeRequiredForPermission permission
  scopeMatched := false
  deniedByScope := false
  grants := []

/-- An evaluation explained; the last text is the reason when no grant holds the permission. -/
def explanation (evaluated : PermissionEvaluation) (missing : Text) :
    AccessExplainResponse where
  permission
  result := if evaluated.allowed then .allowed else .denied
  grants := evaluated.grants
  missingReason :=
    if evaluated.allowed then none
    else if evaluated.permissionMatched && evaluated.deniedByScope then some (scopeMissingReason permission resource)
    else some missing

structure AccessService where
  db : RbacDb
  principals : PrincipalState
  now : Int
  toISOString : Int → Text

namespace AccessService

variable (service : AccessService) (query : AccessQuery)

def canUser : PermissionEvaluation :=
  evaluatePermission query.permission
    (service.db.collectUserGrants query.orgId query.principalId query.projectId) query.resource

def explainUser : AccessExplainResponse :=
  explanation query.permission query.resource
    (evaluatePermission query.permission
      (service.db.collectUserGrants query.orgId query.principalId query.projectId) query.resource)
    (suggestRequiredRole query.permission)

def collectServicePrincipalGrants (orgId principalId : Text) : List RawGrant :=
  ((service.principals.tokens.filter fun token =>
      token.principalId == principalId && !decide (token.expiresAt ≤ service.now)).map fun token =>
    { source := "token ".toList ++ token.id ++ " (expires ".toList ++ service.toISOString token.expiresAt ++
        ")".toList
      permissions := token.scopes }) ++
    (service.db.listApplicableBindings orgId .servicePrincipal principalId none).map (RbacDb.bindingGrant orgId)

def canServicePrincipal : PermissionEvaluation :=
  match service.principals.getServicePrincipal query.orgId query.principalId with
  | none => notFound "service principal not found" query.permission
  | some principal => evaluatePermission query.permission
      (service.collectServicePrincipalGrants query.orgId principal.id) query.resource

def explainServicePrincipal : AccessExplainResponse :=
  match service.principals.getServicePrincipal query.orgId query.principalId with
  | none =>
    { permission := query.permission
      result := .denied
      grants := []
      missingReason := some ("service principal ".toList ++ query.principalId ++ " not found in org ".toList ++
        query.orgId) }
  | some principal =>
    let evaluated := evaluatePermission query.permission
      (service.collectServicePrincipalGrants query.orgId principal.id) query.resource
    explanation query.permission query.resource evaluated
      (if evaluated.grants.isEmpty then "no active tokens on service principal ".toList ++ principal.name
       else "no active token or custom role includes ".toList ++ query.permission)

def resolveGroup (orgId groupInput : Text) : Option AccessGroup :=
  (service.db.groups.find? fun group => group.orgId == orgId && group.id == groupInput).or
    (service.db.groups.find? fun group => group.orgId == orgId && group.slug == groupInput)

def collectGroupGrants (orgId groupId : Text) (projectId : Option Text) : List RawGrant :=
  (service.db.listApplicableBindings orgId .group groupId projectId).map (RbacDb.bindingGrant orgId)

def canGroup : PermissionEvaluation :=
  match service.resolveGroup query.orgId query.principalId with
  | none => notFound "group not found" query.permission
  | some group => evaluatePermission query.permission
      (service.collectGroupGrants query.orgId group.id query.projectId) query.resource

def explainGroup : AccessExplainResponse :=
  match service.resolveGroup query.orgId query.principalId with
  | none =>
    { permission := query.permission
      result := .denied
      grants := []
      missingReason := some ("group ".toList ++ query.principalId ++ " not found in org ".toList ++ query.orgId) }
  | some group => explanation query.permission query.resource
      (evaluatePermission query.permission
        (service.collectGroupGrants query.orgId group.id query.projectId) query.resource)
      ("group ".toList ++ group.id ++ " is missing ".toList ++ query.permission)

def can : Except Text AccessCanResponse := do
  validatePermission query.permission
  let evaluation := match query.principalType with
    | .servicePrincipal => service.canServicePrincipal query
    | .group => service.canGroup query
    | .user => service.canUser query
  return {
    allowed := evaluation.allowed
    source := evaluation.source
    resource := query.resource.map fun resource =>
      { resource with scopeRequired := evaluation.scopeRequired, scopeMatched := evaluation.scopeMatched } }

def explain : Except Text AccessExplainResponse := do
  validatePermission query.permission
  let response := match query.principalType with
    | .servicePrincipal => service.explainServicePrincipal query
    | .group => service.explainGroup query
    | .user => service.explainUser query
  let scopeRequired := scopeRequiredForPermission query.permission
  return { response with
    resource := query.resource.map fun resource =>
      { resource with
        scopeRequired
        scopeMatched :=
          if scopeRequired then
            response.grants.any fun grant => grant.hasPermission && grant.scopeMatch == some true
          else response.result == .allowed } }

end AccessService

/-- An evaluation beside the explanation the same principal gets. -/
structure Agree (permission : Text) (evaluation : PermissionEvaluation) (response : AccessExplainResponse) : Prop where
  required : evaluation.scopeRequired = scopeRequiredForPermission permission
  matched : evaluation.scopeMatched = evaluation.allowed
  result : evaluation.allowed = true ↔ response.result = .allowed
  listed : response.result = .allowed ↔ ∃ grant ∈ response.grants, grant.Allows permission

theorem agree_explanation (permission : Text) (grants : List RawGrant) (resource : Option AccessResourceContext)
    (missing : Text) : Agree permission (evaluatePermission permission grants resource)
      (explanation permission resource (evaluatePermission permission grants resource) missing) := by
  obtain ⟨-, required, inScope, -⟩ := evaluatePermission_flags permission grants resource
  have verdict : (evaluatePermission permission grants resource).allowed = true ↔
      (explanation permission resource (evaluatePermission permission grants resource) missing).result =
        .allowed := by
    simp [explanation]
  exact {
    required
    matched := inScope.trans (evaluatePermission_allowed permission grants resource).symm
    result := verdict
    listed := verdict.symm.trans (evaluatePermission_listed permission grants resource) }

theorem agree_notFound (source : String) (permission : Text) (missing : Option Text) :
    Agree permission (notFound source permission)
      { permission, result := .denied, grants := [], missingReason := missing } where
  required := rfl
  matched := rfl
  result := by simp [notFound]
  listed := by simp

theorem Agree.scopeMatched {permission : Text} {evaluation : PermissionEvaluation}
    {response : AccessExplainResponse} (agree : Agree permission evaluation response) :
    evaluation.scopeMatched =
      if scopeRequiredForPermission permission then
        response.grants.any fun grant => grant.hasPermission && grant.scopeMatch == some true
      else response.result == .allowed := by
  rw [Bool.eq_iff_iff, agree.matched, agree.result]
  split
  · next required =>
      rw [agree.listed]
      simp [AccessExplainGrant.Allows, required]
  · simp

namespace AccessService

variable (service : AccessService) (query : AccessQuery)

theorem agree_servicePrincipal :
    Agree query.permission (service.canServicePrincipal query) (service.explainServicePrincipal query) := by
  unfold canServicePrincipal explainServicePrincipal
  cases service.principals.getServicePrincipal query.orgId query.principalId with
  | none => exact agree_notFound _ _ _
  | some principal => exact agree_explanation _ _ _ _

theorem agree_group : Agree query.permission (service.canGroup query) (service.explainGroup query) := by
  unfold canGroup explainGroup
  cases service.resolveGroup query.orgId query.principalId with
  | none => exact agree_notFound _ _ _
  | some group => exact agree_explanation _ _ _ _

/-- The answers on grants do not depend on their order, more grants never take anything away, and
the two entry points tell the same for every kind of principal. -/
theorem access_explained (permission : Text) (resource : Option AccessResourceContext) (grants : List RawGrant) :
    (∀ others, grants.Perm others →
      let evaluation := evaluatePermission permission grants resource
      let other := evaluatePermission permission others resource
      evaluation.allowed = other.allowed ∧ evaluation.scopeMatched = other.scopeMatched ∧
        evaluation.permissionMatched = other.permissionMatched) ∧
    (∀ others, (evaluatePermission permission grants resource).allowed = true →
      (evaluatePermission permission (grants ++ others) resource).allowed = true) ∧
    ∀ (service : AccessService) (query : AccessQuery),
      (∃ unknown, service.can query = .error unknown ∧ service.explain query = .error unknown) ∨
      ∃ answer response, service.can query = .ok answer ∧ service.explain query = .ok response ∧
        (answer.allowed = true ↔ response.result = .allowed) ∧ answer.resource = response.resource ∧
        (response.result = .allowed ↔ ∃ grant ∈ response.grants, grant.hasPermission = true ∧
          (scopeRequiredForPermission query.permission = true → grant.scopeMatch = some true)) := by
  refine ⟨fun others permuted => evaluatePermission_perm permuted permission resource, ?_, ?_⟩
  · intro others allowed
    rw [evaluatePermission_allowed] at allowed ⊢
    rw [List.any_append, allowed, Bool.true_or]
  · intro service query
    unfold can explain
    cases validatePermission query.permission with
    | error unknown => exact .inl ⟨unknown, rfl, rfl⟩
    | ok known =>
      right
      have agree : Agree query.permission (match query.principalType with
            | .servicePrincipal => service.canServicePrincipal query
            | .group => service.canGroup query
            | .user => service.canUser query)
          (match query.principalType with
            | .servicePrincipal => service.explainServicePrincipal query
            | .group => service.explainGroup query
            | .user => service.explainUser query) := by
        cases query.principalType with
        | servicePrincipal => exact agree_servicePrincipal service query
        | group => exact agree_group service query
        | user => exact agree_explanation _ _ _ _
      refine ⟨_, _, rfl, rfl, agree.result, ?_, agree.listed⟩
      simp only [agree.required, agree.scopeMatched]

end AccessService

end EveHorizon.Auth
