import EveHorizon.Access.ScopeAlgebra

/-!
# Permissions of an actor

A permission is evaluated against the grants of an actor, one after the other.
-/

namespace EveHorizon.Access

open List

structure RawGrant where
  source : Text
  role : Option Text := none
  permissions : List Text
  scopeJson : Option (Option AccessBindingScope) := none

structure AccessExplainGrant where
  source : Text
  role : Option Text
  permissions : List Text
  hasPermission : Bool
  scopeJson : Option (Option AccessBindingScope) := none
  scopeMatch : Option Bool := none
  scopeReason : Option Text := none

structure PermissionEvaluation where
  allowed : Bool
  source : Text
  permissionMatched : Bool
  scopeRequired : Bool
  scopeMatched : Bool
  deniedByScope : Bool
  grants : List AccessExplainGrant

variable (permission : Text)

def scopeRequiredForPermission : Bool := (permissionResourceType permission).isSome

def explainGrant (grant : RawGrant) (scopeEval : Option ScopeEvaluation) : AccessExplainGrant :=
  let explained : AccessExplainGrant :=
    { source := grant.source
      role := grant.role
      permissions := grant.permissions
      hasPermission := scopeEval.isSome
      scopeJson := grant.scopeJson }
  match scopeEval with
  | some scopeEval =>
    if scopeEval.scopeRequired then
      { explained with
        scopeJson := some grant.scopeJson.join
        scopeMatch := some scopeEval.scopeMatched
        scopeReason := scopeEval.reason }
    else explained
  | none => explained

def evaluateGrant (resource : Option AccessResourceContext) (evaluation : PermissionEvaluation) (grant : RawGrant) :
    PermissionEvaluation :=
  if grant.permissions.contains permission then
    let scopeEval := evaluateScope grant.scopeJson.join permission resource
    let grants := evaluation.grants ++ [explainGrant grant (some scopeEval)]
    if !scopeEval.scopeRequired || scopeEval.scopeMatched then
      { evaluation with
        permissionMatched := true
        source := if evaluation.allowed then evaluation.source else grant.source
        allowed := true
        scopeMatched := if scopeEval.scopeRequired then true else evaluation.scopeMatched
        grants }
    else
      { evaluation with
        permissionMatched := true
        deniedByScope := true
        source :=
          if evaluation.allowed then evaluation.source
          else "permission grant found but resource scope denied".toList
        grants }
  else { evaluation with grants := evaluation.grants ++ [explainGrant grant none] }

def evaluatePermission (grants : List RawGrant) (resource : Option AccessResourceContext) : PermissionEvaluation :=
  let scopeRequired := scopeRequiredForPermission permission
  let evaluated := grants.foldl (evaluateGrant permission resource)
    { allowed := false
      source := "no grant found".toList
      permissionMatched := false
      scopeRequired
      scopeMatched := !scopeRequired
      deniedByScope := false
      grants := [] }
  let matched :=
    if evaluated.permissionMatched then evaluated
    else { evaluated with source := "no grant found".toList, scopeMatched := false }
  if scopeRequired then matched else { matched with scopeMatched := matched.allowed }

structure ScopeCheck where
  permission : Text
  resource : AccessResourceContext

def scopeChecks (scope : AccessBindingScope) : List ScopeCheck :=
  ((scope.orgfs.bind PrefixScope.allowPrefixes).getD []).map (fun allowed =>
    ⟨"orgfs:write".toList, ⟨.orgfs, pathPatternBase allowed, .write⟩⟩) ++
  ((scope.orgfs.bind PrefixScope.readOnlyPrefixes).getD []).map (fun readable =>
    ⟨"orgfs:read".toList, ⟨.orgfs, pathPatternBase readable, .read⟩⟩) ++
  ((scope.orgdocs.bind PrefixScope.allowPrefixes).getD []).map (fun allowed =>
    ⟨"orgdocs:write".toList, ⟨.orgdocs, pathPatternBase allowed, .write⟩⟩) ++
  ((scope.orgdocs.bind PrefixScope.readOnlyPrefixes).getD []).map (fun readable =>
    ⟨"orgdocs:read".toList, ⟨.orgdocs, pathPatternBase readable, .read⟩⟩) ++
  ((scope.cloudFs.bind CloudFsScope.allowMountIds).getD []).map (fun mountId =>
    ⟨"cloud_fs:read".toList, ⟨.cloudFs, mountId, .read⟩⟩) ++
  ((scope.envdb.bind EnvDbScope.schemas).getD []).map (fun schema =>
    ⟨"envdb:read".toList, ⟨.envdb, schema, .read⟩⟩) ++
  ((scope.envdb.bind EnvDbScope.tables).getD []).map (fun table =>
    ⟨"envdb:read".toList, ⟨.envdb, table, .read⟩⟩)

def ScopeCheck.passes (check : ScopeCheck) (grants : List RawGrant) : Bool :=
  check.resource.id == ['*'] ||
    (evaluatePermission check.permission grants (some check.resource)).allowed

/-- The actor's grants stand for the actor; without an actor nothing is asked. A refusal
is the message of the bad request. -/
def assertActorCanUseScope (actor : Option (List RawGrant)) (scope : Option AccessBindingScope)
    (context : Text) : Except Text Unit :=
  match actor, scope with
  | some grants, some scope =>
    match (scopeChecks scope).find? fun check => !check.passes grants with
    | some refused => .error (context ++
        " is outside the invoking actor's access scope: ".toList ++ refused.permission ++
        " ".toList ++ refused.resource.id)
    | none => .ok ()
  | _, _ => .ok ()

def assertActorCanGrantPermissions (actor : Option (List RawGrant))
    (permissions : Option (List Text)) (context : Text) : Except Text Unit :=
  match actor, permissions with
  | some grants, some permissions =>
    match permissions.find? fun permission =>
        !(evaluatePermission permission grants none).allowed with
    | some refused => .error (context ++ " requests permission \"".toList ++ refused ++
        "\" that the invoking actor does not hold".toList)
    | none => .ok ()
  | _, _ => .ok ()

def heldScopes (grants : List RawGrant) (permission : Text) : List AccessBindingScope :=
  grants.filterMap fun grant =>
    if grant.permissions.contains permission then grant.scopeJson.join else none

variable {grants : List RawGrant} {scope : AccessBindingScope}

theorem mem_heldScopes {permission : Text} :
    scope ∈ heldScopes grants permission ↔
      ∃ grant ∈ grants, permission ∈ grant.permissions ∧ grant.scopeJson.join = some scope := by
  simp only [heldScopes, mem_filterMap, contains_iff_mem, Option.ite_none_right_eq_some]

def RawGrant.admits (grant : RawGrant) (permission : Text)
    (resource : Option AccessResourceContext) : Bool :=
  grant.permissions.contains permission && (!(evaluateScope grant.scopeJson.join permission resource).scopeRequired ||
      (evaluateScope grant.scopeJson.join permission resource).scopeMatched)

variable (permission : Text) (resource : Option AccessResourceContext)

theorem evaluateGrant_allowed (evaluation : PermissionEvaluation) (grant : RawGrant) :
    (evaluateGrant permission resource evaluation grant).allowed =
      (evaluation.allowed || grant.admits permission resource) := by
  unfold evaluateGrant RawGrant.admits
  by_cases held : grant.permissions.contains permission = true
  · rw [if_pos held]
    simp only [held, Bool.true_and]
    split
    · next admitted => simp [admitted]
    · next denied => simp [Bool.eq_false_iff.mpr denied]
  · rw [if_neg held, Bool.eq_false_iff.mpr held, Bool.false_and, Bool.or_false]

theorem foldl_evaluateGrant_allowed (grants : List RawGrant) (evaluation : PermissionEvaluation) :
    (grants.foldl (evaluateGrant permission resource) evaluation).allowed =
      (evaluation.allowed || grants.any (RawGrant.admits · permission resource)) := by
  induction grants generalizing evaluation with
  | nil => simp
  | cons grant grants ih =>
    rw [foldl_cons, ih, evaluateGrant_allowed, any_cons, Bool.or_assoc]

theorem evaluatePermission_allowed (grants : List RawGrant) (resource : Option AccessResourceContext) :
    (evaluatePermission permission grants resource).allowed = grants.any (RawGrant.admits · permission resource) := by
  have folded := foldl_evaluateGrant_allowed permission resource grants
    { allowed := false
      source := "no grant found".toList
      permissionMatched := false
      scopeRequired := scopeRequiredForPermission permission
      scopeMatched := !scopeRequiredForPermission permission
      deniedByScope := false
      grants := [] }
  rw [Bool.false_or] at folded
  rw [← folded]
  unfold evaluatePermission
  simp only [apply_ite PermissionEvaluation.allowed, ite_self]

theorem evaluateFacet_scopeRequired (scope : AccessBindingScope) (resourceType : AccessResourceType)
    (resource : Option AccessResourceContext) : (evaluateFacet scope resourceType resource).scopeRequired = true := by
  cases resourceType with
  | orgfs | orgdocs =>
    unfold evaluateFacet evaluatePrefixScope
    cases resource <;> simp only [apply_ite ScopeEvaluation.scopeRequired, matched, unmatched, ite_self]
  | envdb =>
    unfold evaluateFacet evaluateEnvDbScope
    cases resource <;> simp only [apply_ite ScopeEvaluation.scopeRequired, matched, unmatched, ite_self]
  | cloudFs =>
    unfold evaluateFacet evaluateCloudFsScope
    cases resource <;> simp only [apply_ite ScopeEvaluation.scopeRequired, matched, unmatched, ite_self]

theorem evaluatePermission_allowed_iff {permission : Text} {resourceType : AccessResourceType}
    (concerns : permissionResourceType permission = some resourceType) {resource : Option AccessResourceContext} :
    (evaluatePermission permission grants resource).allowed = true ↔ ∃ scope ∈ heldScopes grants permission,
        (evaluateFacet scope resourceType resource).scopeMatched = true := by
  rw [evaluatePermission_allowed, any_eq_true]
  constructor
  · rintro ⟨grant, member, admits⟩
    rw [RawGrant.admits, Bool.and_eq_true, contains_iff_mem] at admits
    obtain ⟨held, admits⟩ := admits
    cases found : grant.scopeJson.join with
    | none => simp [found, evaluateScope, concerns, unmatched] at admits
    | some scope =>
      simp only [found, evaluateScope, concerns, evaluateFacet_scopeRequired, Bool.not_true, Bool.false_or] at admits
      exact ⟨scope, mem_heldScopes.mpr ⟨grant, member, held, found⟩, admits⟩
  · rintro ⟨scope, member, admitted⟩
    obtain ⟨grant, inGrants, held, found⟩ := mem_heldScopes.mp member
    refine ⟨grant, inGrants, ?_⟩
    simp [RawGrant.admits, held, found, evaluateScope, concerns, admitted]

theorem assertActorCanUseScope_accepts {context : Text} :
    assertActorCanUseScope (some grants) (some scope) context = .ok () ↔
      ∀ check ∈ scopeChecks scope, check.passes grants = true := by
  simp only [assertActorCanUseScope]
  split
  · next refused found =>
      have member := mem_of_find?_eq_some found
      have refuses := find?_some found
      rw [Bool.not_eq_true'] at refuses
      simp only [reduceCtorEq, false_iff, not_forall]
      exact ⟨refused, member, by simp [refuses]⟩
  · next found =>
      simp only [true_iff]
      intro check member
      simpa using find?_eq_none.mp found check member

end EveHorizon.Access
