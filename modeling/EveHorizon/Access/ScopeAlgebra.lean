import EveHorizon.Access.Scope

/-!
# Merging scopes

The scopes of a workflow, of its step and of the invocation are merged into the scope of
the job's token.
-/

namespace EveHorizon.Access

def pathPatternBase (pattern : Text) : Text :=
  let trimmed := Text.trim pattern
  if trimmed = ['*'] ∨ trimmed = [] then ['/']
  else
    let base := (Text.stripSuffix ['/', '*'] (Text.stripSuffix ['/', '*', '*'] trimmed)).rdropWhile (· == '/')
    if base.isEmpty then ['/'] else base

def intersectPathPattern (a b : Text) : Option Text :=
  if a = ['*'] then some b
  else if b = ['*'] then some a
  else
    let aBase := pathPatternBase a
    let bBase := pathPatternBase b
    if aBase = bBase then some (if Text.unitLength b ≤ Text.unitLength a then a else b)
    else if Text.startsWith (bBase ++ ['/']) aBase then some a
    else if Text.startsWith (aBase ++ ['/']) bBase then some b
    else none

def intersectPathPatterns : Option (List Text) → Option (List Text) → List Text
  | none, right => Text.sortedSet (right.getD [])
  | some left, none => Text.sortedSet left
  | some left, some right =>
    Text.sortedSet (left.flatMap fun a => right.filterMap fun b =>
      (intersectPathPattern a b).filter fun intersection => !intersection.isEmpty)

def intersectStringSets : Option (List Text) → Option (List Text) → List Text
  | none, right => Text.sortedSet (right.getD [])
  | some left, none => Text.sortedSet left
  | some left, some right =>
    if left.contains ['*'] then Text.sortedSet right
    else if right.contains ['*'] then Text.sortedSet left
    else Text.sortedSet (left.filter (right.contains ·))

def intersectPrefixScope (left right : Option PrefixScope) : PrefixScope where
  allowPrefixes := some (intersectPathPatterns
    (left.bind PrefixScope.allowPrefixes) (right.bind PrefixScope.allowPrefixes))
  readOnlyPrefixes := some (intersectPathPatterns
    (left.bind PrefixScope.readOnlyPrefixes) (right.bind PrefixScope.readOnlyPrefixes))

def intersectEnvDbScope (left right : Option EnvDbScope) : EnvDbScope where
  schemas := some (intersectStringSets (left.bind EnvDbScope.schemas) (right.bind EnvDbScope.schemas))
  tables := some (intersectStringSets (left.bind EnvDbScope.tables) (right.bind EnvDbScope.tables))

def intersectCloudFsScope (left right : Option CloudFsScope) : CloudFsScope where
  allowMountIds := some (intersectStringSets
    (left.bind CloudFsScope.allowMountIds) (right.bind CloudFsScope.allowMountIds))

def intersectFacet {Facet : Type} (intersect : Option Facet → Option Facet → Facet)
    (left right : Option Facet) : Option Facet :=
  if left.isSome || right.isSome then some (intersect left right) else none

def intersectScopes (left right : AccessBindingScope) : AccessBindingScope where
  orgfs := intersectFacet intersectPrefixScope left.orgfs right.orgfs
  orgdocs := intersectFacet intersectPrefixScope left.orgdocs right.orgdocs
  envdb := intersectFacet intersectEnvDbScope left.envdb right.envdb
  cloudFs := intersectFacet intersectCloudFsScope left.cloudFs right.cloudFs

def presentScopes (workflowScope stepScope invocationScope : Option AccessBindingScope) : List AccessBindingScope :=
  [workflowScope, stepScope, invocationScope].filterMap id

def mergeStepTokenScope (workflowScope stepScope invocationScope : Option AccessBindingScope) :
    Option AccessBindingScope :=
  match presentScopes workflowScope stepScope invocationScope with
  | [] => none
  | scope :: scopes => some (scopes.foldl intersectScopes scope)

end EveHorizon.Access
