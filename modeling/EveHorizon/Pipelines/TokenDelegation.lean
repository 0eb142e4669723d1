import EveHorizon.Access.Delegation
import EveHorizon.Pipelines.Superseding

/-!
# Tokens of pipeline steps

The job of a step is given the scope and the permissions that the step declares, else those of
its pipeline.
-/

namespace EveHorizon.Pipelines

open Interleaving List
open Jobs (JobId)
open Access (AccessBindingScope AccessResourceType AccessResourceAction AccessResourceContext RawGrant
  EnvDbScope CloudFsScope PatternWithin EnvDbAdmits ActorAdmits evaluateScope evaluatePermission
  resourcePermission pathPatterns heldPatterns heldMounts schemaAdmits tableAdmits DelegationSound)

def mergeStepTokenScope (pipelineScope stepScope : Option String) : Option String :=
  stepScope <|> pipelineScope

def mergeStepTokenPermissions (pipelinePermissions stepPermissions : Option (List String)) : Option (List String) :=
  (stepPermissions <|> pipelinePermissions).map fun winner => winner.dedup.insertionSort (· ≤ ·)

structure StepToken where
  tokenScope : Option String
  tokenPermissions : Option (List String)
  deriving DecidableEq

variable (catalog : Catalog)

def stepToken (expansion : Expansion) (index : Nat) (step : PipelineStep) : Except String StepToken := do
  let path := stepPath expansion.request.pipelineName (stepName index step)
  let stepTokenScope ← parseTokenScope (path ++ ".scope") step.scope
  let tokenScope := mergeStepTokenScope expansion.tokenScope stepTokenScope
  let stepTokenPermissions ← parseTokenPermissions catalog.isValidPermission (path ++ ".permissions")
    step.permissions
  let tokenPermissions := mergeStepTokenPermissions expansion.tokenPermissions stepTokenPermissions
  assertActorCanGrantPermissions catalog expansion tokenPermissions (path ++ " permissions")
  return { tokenScope, tokenPermissions }

structure Creates (projectId : String) (request : ExpandPipelineRequest) (userId : Option String)
    (expansion : Expansion) (index : Nat) (step : PipelineStep) (token : StepToken) : Prop where
  expanded : ∃ resolved steps, resolvePipeline catalog projectId request = .ok resolved ∧
    planSteps resolved.pipeline request = .ok steps ∧ steps[index]? = some step ∧
      startExpansion catalog resolved request userId = .ok expansion
  tokenOf : stepToken catalog expansion index step = .ok token

variable {catalog} {path : String} {raw : RawList} {isValidPermission : String → Bool}

theorem sorted_of_parsed {permissions : List String}
    (parsed : parseTokenPermissions isValidPermission path raw = .ok (some permissions)) :
    permissions.dedup.insertionSort (· ≤ ·) = permissions := by
  cases raw with
  | absent | notArray => cases parsed
  | array entries =>
    rw [parseTokenPermissions] at parsed
    obtain ⟨accepted, _, parsed⟩ := accepts_bind parsed
    dsimp only at parsed
    split at parsed
    · cases parsed
    · cases parsed
      have single : (accepted.dedup.insertionSort (· ≤ ·)).Nodup :=
        (perm_insertionSort (· ≤ ·) _).nodup_iff.mpr (nodup_dedup accepted)
      rw [single.dedup]
      exact (pairwise_insertionSort (· ≤ ·) accepted.dedup).insertionSort_eq

variable {expansion : Expansion}

theorem startExpansion_permissions {resolved : Resolved} {request : ExpandPipelineRequest} {userId : Option String}
    (started : startExpansion catalog resolved request userId = .ok expansion) :
    ∃ path raw, parseTokenPermissions catalog.isValidPermission path raw = .ok expansion.tokenPermissions := by
  rw [startExpansion] at started
  obtain ⟨scope, _, started⟩ := accepts_bind started
  obtain ⟨permissions, parsed, started⟩ := accepts_bind started
  split at started
  · cases started
  · cases started
    exact ⟨_, _, parsed⟩

section

variable (ofPipeline : ∃ path raw, parseTokenPermissions catalog.isValidPermission path raw =
  .ok expansion.tokenPermissions)
include ofPipeline

theorem merged_permissions {stepPermissions : Option (List String)}
    (ofStep : parseTokenPermissions catalog.isValidPermission path raw = .ok stepPermissions) :
    mergeStepTokenPermissions expansion.tokenPermissions stepPermissions =
      (stepPermissions <|> expansion.tokenPermissions) := by
  obtain ⟨pipelinePath, pipelineRaw, ofPipeline⟩ := ofPipeline
  rw [mergeStepTokenPermissions]
  cases isStep : stepPermissions with
  | some own =>
    rw [isStep] at ofStep
    exact congrArg some (sorted_of_parsed ofStep)
  | none =>
    cases isPipeline : expansion.tokenPermissions with
    | none => rfl
    | some shared =>
      rw [isPipeline] at ofPipeline
      exact congrArg some (sorted_of_parsed ofPipeline)

theorem stepToken_of_planTokens {index : Nat} {step : PipelineStep}
    (planned : planTokens catalog expansion index step = .ok ()) :
    ∃ token, stepToken catalog expansion index step = .ok token := by
  rw [planTokens] at planned
  obtain ⟨scope, parsedScope, planned⟩ := accepts_bind planned
  obtain ⟨permissions, parsed, granted⟩ := accepts_bind planned
  rw [← merged_permissions ofPipeline parsed] at granted
  refine ⟨⟨mergeStepTokenScope expansion.tokenScope scope,
    mergeStepTokenPermissions expansion.tokenPermissions permissions⟩, ?_⟩
  rw [stepToken]
  dsimp only
  rw [parsedScope]
  dsimp only [bind, Except.bind]
  rw [parsed]
  dsimp only
  rw [granted]
  rfl

end

def PipelineStatement.inserted : PipelineStatement → Option Jobs.Job
  | .insertJob job => some job
  | _ => none

def InsertsSteps (catalog : Catalog) (projectId : String) (request : ExpandPipelineRequest)
    (userId : Option String) (ids : NewIds) (stmt : PipelineStatement) : Prop :=
  ∀ job, stmt.inserted = some job → ∃ expansion index step token execution review,
    Creates catalog projectId request userId expansion index step token ∧
      job = stepJob expansion ids index (stepName index step) execution review

variable {projectId : String} {request : ExpandPipelineRequest} {userId : Option String} {ids : NewIds}

theorem insertsSteps_other {stmt : PipelineStatement} (other : stmt.inserted = none) :
    InsertsSteps catalog projectId request userId ids stmt := by
  intro job inserted
  rw [other] at inserted
  cases inserted

theorem select_tokens {α : Type} (query : PipelineDb → α) :
    (select query).Issues (InsertsSteps catalog projectId request userId ids) :=
  ⟨insertsSteps_other rfl, fun _ => trivial⟩

theorem createJobs_tokens {entries : List (PipelineStep × Nat)} (created : List (String × JobId))
    (creates : ∀ entry ∈ entries, ∀ token, stepToken catalog expansion entry.2 entry.1 = .ok token →
      Creates catalog projectId request userId expansion entry.2 entry.1 token)
    (ofPipeline : ∃ path raw, parseTokenPermissions catalog.isValidPermission path raw =
      .ok expansion.tokenPermissions) :
    (createJobs catalog expansion ids entries created).Issues (InsertsSteps catalog projectId request userId ids) := by
  induction entries generalizing created with
  | nil => trivial
  | cons entry rest ih =>
    obtain ⟨step, index⟩ := entry
    rw [createJobs]
    refine Call.issues_ofExcept_bind fun execution _ => ?_
    refine Call.Issues.bind (select_tokens _) fun _ => ?_
    refine Call.issues_ofExcept_bind fun _ planned => ?_
    refine Call.issues_ofExcept_bind fun review _ => ?_
    obtain ⟨token, isToken⟩ := stepToken_of_planTokens ofPipeline planned
    have isCreated := creates (step, index) mem_cons_self token isToken
    refine Call.Issues.bind ⟨?_, fun db => ?_⟩ fun job => ?_
    · intro job same
      cases same
      exact ⟨expansion, index, step, token, execution, review, isCreated, rfl⟩
    · beta_reduce
      split <;> trivial
    · exact ih _ fun entry member => creates entry (mem_cons_of_mem _ member)

theorem relateStep_tokens (created : List (String × JobId)) (entry : PipelineStep × Nat) :
    (relateStep created entry).Issues (InsertsSteps catalog projectId request userId ids) := by
  rw [relateStep]
  split
  · trivial
  · refine Call.Issues.forEach fun depName _ => ?_
    rw [relateDependency]
    split
    · trivial
    · refine Call.Issues.bind (select_tokens _) fun fromJob => ?_
      refine Call.Issues.bind (select_tokens _) fun toJob => ?_
      split
      · trivial
      · split
        · trivial
        · refine ⟨insertsSteps_other rfl, fun db => ?_⟩
          split <;> trivial

theorem expanderCancelExisting_tokens (dedupeKey : String) :
    (expanderCancelExisting dedupeKey).Issues (InsertsSteps catalog projectId request userId ids) := by
  rw [expanderCancelExisting]
  refine Call.Issues.bind ⟨insertsSteps_other rfl, fun _ => trivial⟩ fun active => ?_
  cases active with
  | none => trivial
  | some existingRun =>
    refine Call.Issues.bind ⟨insertsSteps_other rfl, fun _ => trivial⟩ fun _ => ?_
    rw [closeStepRuns]
    refine Call.Issues.bind (select_tokens _) fun steps => Call.Issues.forEach fun step _ => ?_
    split
    · trivial
    · exact ⟨insertsSteps_other rfl, fun _ => trivial⟩

theorem expandPipeline_tokens : (expandPipeline catalog projectId request userId ids).Issues
      (InsertsSteps catalog projectId request userId ids) := by
  rw [expandPipeline]
  refine Call.Issues.bind (select_tokens _) fun _ => ?_
  refine Call.issues_ofExcept_bind fun resolved isResolved => ?_
  have creates : (do
      let steps ← Call.ofExcept (planSteps resolved.pipeline request)
      createRunWithJobs catalog resolved request userId ids steps).Issues
        (InsertsSteps catalog projectId request userId ids) := by
    refine Call.issues_ofExcept_bind fun steps planned => ?_
    rw [createRunWithJobs]
    refine Call.Issues.bind ⟨insertsSteps_other rfl, fun db => ?_⟩ fun run => ?_
    · beta_reduce
      split <;> trivial
    · refine Call.issues_ofExcept_bind fun expansion started => ?_
      refine Call.Issues.bind (createJobs_tokens [] ?_ (startExpansion_permissions started))
        fun created => Call.Issues.forEach fun entry _ => relateStep_tokens created entry
      intro entry member token isToken
      have placed := mem_zipIdx_iff_getElem?.mp member
      exact ⟨⟨resolved, steps, isResolved, planned, placed, started⟩, isToken⟩
  cases truthy request.dedupeKey with
  | none => exact creates
  | some dedupeKey =>
    exact Call.Issues.bind (expanderCancelExisting_tokens dedupeKey) fun _ => creates

section

variable {grants : List RawGrant} {permissions : List Text} {scope : AccessBindingScope}

def allPermissions : List Text :=
  [AccessResourceType.orgfs, .orgdocs, .envdb, .cloudFs].flatMap fun resourceType =>
    [AccessResourceAction.read, .write, .admin].map (resourcePermission resourceType)

structure ScopeHeld (grants : List RawGrant) (permissions : List Text) (scope : AccessBindingScope) : Prop where
  orgfs : ∀ action, resourcePermission .orgfs action ∈ permissions → ∀ pattern ∈ pathPatterns scope.orgfs action,
      PatternWithin pattern (heldPatterns AccessBindingScope.orgfs .orgfs grants action)
  orgdocs : ∀ action, resourcePermission .orgdocs action ∈ permissions → ∀ pattern ∈ pathPatterns scope.orgdocs action,
      PatternWithin pattern (heldPatterns AccessBindingScope.orgdocs .orgdocs grants action)
  schemas : ∀ action, resourcePermission .envdb action ∈ permissions →
    ∀ schema ∈ (scope.envdb.bind EnvDbScope.schemas).getD [], ∀ identifier,
      Text.trim identifier ≠ [] → schemaAdmits schema identifier = true → ActorAdmits grants action identifier
  tables : ∀ action, resourcePermission .envdb action ∈ permissions →
    ∀ table ∈ (scope.envdb.bind EnvDbScope.tables).getD [], ∀ identifier,
      Text.trim identifier ≠ [] → tableAdmits table identifier = true → ActorAdmits grants action identifier
  mounts : ∀ action, resourcePermission .cloudFs action ∈ permissions →
    ∀ mountId ∈ (scope.cloudFs.bind CloudFsScope.allowMountIds).getD [],
      mountId ∈ heldMounts grants action ∨ ['*'] ∈ heldMounts grants action

theorem delegationSound_iff_held : DelegationSound grants permissions scope ↔ ScopeHeld grants permissions scope := by
  rw [Access.delegationSound_iff_facets]
  constructor
  · intro sound
    have databases := Access.envDb_sound_iff.mp (sound .envdb)
    have mounts := Access.cloudFs_sound_iff.mp (sound .cloudFs)
    constructor
    · exact (Access.prefix_sound_iff fun _ _ => rfl).mp (sound .orgfs)
    · exact (Access.prefix_sound_iff fun _ _ => rfl).mp (sound .orgdocs)
    · intro action permitted schema listed identifier nonempty admits
      exact databases action permitted identifier nonempty (.inl ⟨schema, listed, admits⟩)
    · intro action permitted table listed identifier nonempty admits
      exact databases action permitted identifier nonempty (.inr ⟨table, listed, admits⟩)
    · intro action permitted mountId listed
      exact (mounts action permitted mountId (.inr listed)).symm
  · intro held resourceType
    cases resourceType with
    | orgfs => exact (Access.prefix_sound_iff fun _ _ => rfl).mpr held.orgfs
    | orgdocs => exact (Access.prefix_sound_iff fun _ _ => rfl).mpr held.orgdocs
    | envdb =>
      refine Access.envDb_sound_iff.mpr fun action permitted identifier nonempty admits => ?_
      rcases admits with ⟨schema, listed, admits⟩ | ⟨table, listed, admits⟩
      · exact held.schemas action permitted schema listed identifier nonempty admits
      · exact held.tables action permitted table listed identifier nonempty admits
    | cloudFs =>
      refine Access.cloudFs_sound_iff.mpr fun action permitted id admits => ?_
      rcases admits with star | listed
      · exact .inl (by simpa using held.mounts action permitted ['*'] star)
      · exact (held.mounts action permitted id listed).symm

def scopeGrant (scope : AccessBindingScope) : RawGrant where
  source := "scope".toList
  permissions := allPermissions
  scopeJson := some (some scope)

theorem mem_allPermissions (resourceType : AccessResourceType) (action : AccessResourceAction) :
    resourcePermission resourceType action ∈ allPermissions := by
  refine mem_flatMap.mpr ⟨resourceType, ?_, mem_map.mpr ⟨action, ?_, rfl⟩⟩
  · cases resourceType <;> decide
  · cases action <;> decide

theorem heldScopes_scopeGrant (declared : AccessBindingScope) (resourceType : AccessResourceType)
    (action : AccessResourceAction) :
    Access.heldScopes [scopeGrant declared] (resourcePermission resourceType action) = [declared] := by
  have held : (scopeGrant declared).permissions.contains (resourcePermission resourceType action) = true :=
    contains_iff_mem.mpr (mem_allPermissions resourceType action)
  rw [Access.heldScopes, filterMap_cons, if_pos held]
  rfl

theorem type_of_matched {resourceType : AccessResourceType} {resource : AccessResourceContext}
    (admitted : (Access.evaluateFacet scope resourceType (some resource)).scopeMatched = true) :
    resource.type = resourceType := by
  cases resourceType with
  | orgfs | orgdocs => exact (Access.evaluatePrefixScope_matched.mp admitted).1
  | envdb => exact (Access.evaluateEnvDbScope_matched.mp admitted).1
  | cloudFs => exact (Access.evaluateCloudFsScope_matched.mp admitted).1

theorem narrowed_iff_held {own declared : AccessBindingScope} : (∀ permission (resource : AccessResourceContext),
      (evaluateScope (some own) permission (some resource)).scopeMatched = true →
        (evaluateScope (some declared) permission (some resource)).scopeMatched = true) ↔
      ScopeHeld [scopeGrant declared] allPermissions own := by
  rw [← delegationSound_iff_held, Access.delegationSound_iff_facets]
  constructor
  · intro narrowed resourceType id action _ admitted
    have concerns := Access.permissionResourceType_resourcePermission resourceType action
    have within := narrowed (resourcePermission resourceType action) ⟨resourceType, id, action⟩
      (by rw [Access.evaluateScope_eq concerns]; exact admitted)
    rw [Access.evaluateScope_eq concerns] at within
    exact ⟨declared, by rw [heldScopes_scopeGrant]; exact mem_singleton_self declared, within⟩
  · intro sound permission resource admitted
    cases concerns : Access.permissionResourceType permission with
    | none =>
      rw [evaluateScope, concerns]
    | some resourceType =>
      rw [Access.evaluateScope_eq concerns] at admitted ⊢
      have same := type_of_matched admitted
      obtain ⟨type, id, action⟩ := resource
      cases same
      obtain ⟨held, member, within⟩ := sound type id action (mem_allPermissions type action) admitted
      rw [heldScopes_scopeGrant, mem_singleton] at member
      rw [← member]
      exact within

theorem delegationSound_congr {more : List Text} (same : ∀ permission, permission ∈ permissions ↔ permission ∈ more) :
    DelegationSound grants permissions scope ↔ DelegationSound grants more scope := by
  constructor
  · intro sound resource permitted
    exact sound resource ((same _).mpr permitted)
  · intro sound resource permitted
    exact sound resource ((same _).mp permitted)

end

def Validated.declared : Validated String → Option String
  | .valid value => some value
  | _ => none

def RawList.declared : RawList → Option (List String)
  | .array entries => some (entries.filterMap id)
  | _ => none

theorem scope_of_parsed {raw : Validated String} {scope : Option String}
    (parsed : parseTokenScope path raw = .ok scope) : scope = raw.declared := by
  cases raw with
  | absent | valid value => exact (Except.ok.inj parsed).symm
  | invalid issues => cases parsed

theorem entries_of_accepted {entries : List (Option String)} {accepted : List String}
    (parsed : nonEmptyEntries path entries = .ok accepted) : entries.filterMap id = accepted := by
  induction entries generalizing accepted with
  | nil => exact Except.ok.inj parsed
  | cons entry rest ih =>
    rw [nonEmptyEntries] at parsed
    cases isEntry : truthy entry with
    | none =>
      rw [isEntry] at parsed
      cases parsed
    | some text =>
      rw [isEntry] at parsed
      obtain ⟨others, isRest, same⟩ := accepts_bind parsed
      obtain ⟨isText, _⟩ := Option.filter_eq_some_iff.mp isEntry
      cases same
      rw [isText, filterMap_cons, ih isRest]
      rfl

theorem permissions_of_parsed {permissions : Option (List String)}
    (parsed : parseTokenPermissions isValidPermission path raw = .ok permissions) :
    permissions = raw.declared.map fun entries => entries.dedup.insertionSort (· ≤ ·) := by
  cases raw with
  | absent => exact (Except.ok.inj parsed).symm
  | notArray => cases parsed
  | array entries =>
    rw [parseTokenPermissions] at parsed
    obtain ⟨accepted, isAccepted, parsed⟩ := accepts_bind parsed
    dsimp only at parsed
    split at parsed
    · cases parsed
    · cases parsed
      rw [RawList.declared, entries_of_accepted isAccepted]
      rfl

theorem token_of_step {index : Nat} {step : PipelineStep} {token : StepToken}
    (made : stepToken catalog expansion index step = .ok token) :
    token.tokenScope = (step.scope.declared <|> expansion.tokenScope) ∧
      ∀ permission, permission ∈ token.tokenPermissions.getD [] ↔
        permission ∈ (step.permissions.declared <|> expansion.tokenPermissions).getD [] := by
  rw [stepToken] at made
  obtain ⟨scope, isScope, made⟩ := accepts_bind made
  obtain ⟨permissions, isPermissions, made⟩ := accepts_bind made
  obtain ⟨_, _, made⟩ := accepts_bind made
  cases made
  rw [scope_of_parsed isScope, permissions_of_parsed isPermissions]
  refine ⟨rfl, fun permission => ?_⟩
  cases step.permissions.declared with
  | some own => simp [mergeStepTokenPermissions, mem_insertionSort]
  | none =>
    cases expansion.tokenPermissions with
    | none => rfl
    | some shared => simp [mergeStepTokenPermissions, mem_insertionSort]

section

-- What the texts of scopes say, and the grants of a user in a project.
variable (scopeOf : String → AccessBindingScope) (grantsOf : String → String → List RawGrant)

def permissionTexts (permissions : Option (List String)) : List Text :=
  (permissions.getD []).map String.toList

/-- Whatever the token admits, the pipeline's own scope admits and the grants of the invoking user
allow. -/
structure TokenSound (expansion : Expansion) (token : StepToken) : Prop where
  narrowed : ∀ declared, expansion.tokenScope = some declared → ∀ permission (resource : AccessResourceContext),
      (evaluateScope (token.tokenScope.map scopeOf) permission (some resource)).scopeMatched = true →
        (evaluateScope (some (scopeOf declared)) permission (some resource)).scopeMatched = true
  granted : ∀ user, truthy expansion.userId = some user → ∀ resource : AccessResourceContext,
    resourcePermission resource.type resource.action ∈ permissionTexts token.tokenPermissions →
      (evaluateScope (token.tokenScope.map scopeOf) (resourcePermission resource.type resource.action)
        (some resource)).scopeMatched = true → (evaluatePermission (resourcePermission resource.type resource.action)
        (grantsOf expansion.projectId user) (some resource)).allowed = true

/-- The step's own scope lies within that of its pipeline, and the scope that it is given within
what the invoking user holds. -/
structure TokenHeld (expansion : Expansion) (step : PipelineStep) : Prop where
  narrowed : ∀ declared, expansion.tokenScope = some declared → ∀ own, step.scope.declared = some own →
    ScopeHeld [scopeGrant (scopeOf declared)] allPermissions (scopeOf own)
  granted : ∀ user, truthy expansion.userId = some user →
    ∀ scope, (step.scope.declared <|> expansion.tokenScope) = some scope → ScopeHeld (grantsOf expansion.projectId user)
        (permissionTexts (step.permissions.declared <|> expansion.tokenPermissions)) (scopeOf scope)

variable {projectId : String} {request : ExpandPipelineRequest} {userId : Option String}
  {expansion : Expansion} {index : Nat} {step : PipelineStep} {token : StepToken}

theorem narrowed_iff (isScope : token.tokenScope = (step.scope.declared <|> expansion.tokenScope)) :
    (∀ declared, expansion.tokenScope = some declared → ∀ permission (resource : AccessResourceContext),
        (evaluateScope (token.tokenScope.map scopeOf) permission (some resource)).scopeMatched = true →
          (evaluateScope (some (scopeOf declared)) permission (some resource)).scopeMatched = true) ↔
    ∀ declared, expansion.tokenScope = some declared → ∀ own, step.scope.declared = some own →
      ScopeHeld [scopeGrant (scopeOf declared)] allPermissions (scopeOf own) := by
  refine forall₂_congr fun declared isDeclared => ?_
  rw [isScope, isDeclared]
  cases step.scope.declared with
  | none =>
    constructor
    · intro _ own missing
      cases missing
    · intro _ permission resource admitted
      exact admitted
  | some own =>
    constructor
    · intro narrowed other same
      cases same
      exact narrowed_iff_held.mp narrowed
    · intro held
      exact narrowed_iff_held.mpr (held own rfl)

theorem granted_iff {grants : List RawGrant} {more : List Text}
    (isScope : token.tokenScope = (step.scope.declared <|> expansion.tokenScope))
    (same : ∀ permission, permission ∈ permissionTexts token.tokenPermissions ↔ permission ∈ more) :
    (∀ resource : AccessResourceContext,
      resourcePermission resource.type resource.action ∈ permissionTexts token.tokenPermissions →
        (evaluateScope (token.tokenScope.map scopeOf)
          (resourcePermission resource.type resource.action) (some resource)).scopeMatched = true →
        (evaluatePermission (resourcePermission resource.type resource.action) grants (some resource)).allowed = true) ↔
    ∀ scope, (step.scope.declared <|> expansion.tokenScope) = some scope → ScopeHeld grants more (scopeOf scope) := by
  rw [isScope]
  cases (step.scope.declared <|> expansion.tokenScope) with
  | none =>
    constructor
    · intro _ scope missing
      cases missing
    · intro _ resource _ admitted
      have concerns := Access.permissionResourceType_resourcePermission resource.type resource.action
      rw [Option.map_none, evaluateScope, concerns] at admitted
      cases admitted
  | some scope =>
    constructor
    · intro sound other isOther
      cases isOther
      exact delegationSound_iff_held.mp ((delegationSound_congr same).mp sound)
    · intro held
      exact (delegationSound_congr same).mpr (delegationSound_iff_held.mpr (held scope rfl))

/-- The token of a step is sound exactly when the step's own scope lies within its pipeline's, and
the scope it is given within what the user holds. -/
theorem pipeline_token_sound_iff (created : Creates catalog projectId request userId expansion index step token) :
    TokenSound scopeOf grantsOf expansion token ↔ TokenHeld scopeOf grantsOf expansion step := by
  obtain ⟨isScope, isPermissions⟩ := token_of_step created.tokenOf
  have texts : ∀ permission, permission ∈ permissionTexts token.tokenPermissions ↔
      permission ∈ permissionTexts (step.permissions.declared <|> expansion.tokenPermissions) := by
    intro permission
    simp only [permissionTexts, mem_map, isPermissions]
  have narrow := narrowed_iff scopeOf isScope
  constructor
  · intro sound
    exact ⟨narrow.mp sound.narrowed, fun user isUser =>
      (granted_iff scopeOf isScope texts).mp (sound.granted user isUser)⟩
  · intro held
    exact ⟨narrow.mpr held.narrowed, fun user isUser =>
      (granted_iff scopeOf isScope texts).mpr (held.granted user isUser)⟩

end

def folderScope (pattern : String) : AccessBindingScope where
  orgfs := some { allowPrefixes := some [pattern.toList] }

def reportGrants (_projectId _userId : String) : List RawGrant := [Access.directoryGrant "/reports"]

variable (stepScope : Validated String)

def reportStep : PipelineStep where
  name := some "publish"
  run := some "make"
  scope := stepScope
  permissions := .array [some "orgfs:write"]

def reportPipeline : PipelineDefinition where
  steps := some [reportStep stepScope]
  scope := .valid "/reports"

def reportManifest : Manifest where
  manifestHash := "hash"
  pipelines := .ok (some [("reports", reportPipeline stepScope)])

def reportCatalog : Catalog where
  projects := [{ id := "proj_1", slug := "demo" }]
  findByProjectAndGitSha _ _ := none
  findLatestByProject _ := some (reportManifest stepScope)
  validToolchains := []
  isValidPermission permission := permission == "orgfs:write"
  can projectId userId permission :=
    (evaluatePermission permission.toList (reportGrants projectId userId) none).allowed

def reportRequest : ExpandPipelineRequest where
  pipelineName := "reports"

def reportExpansion : Expansion where
  projectId := "proj_1"
  request := reportRequest
  envName := none
  userId := some "user_1"
  pipelineToolchains := none
  tokenScope := some "/reports"
  tokenPermissions := none

def reportToken (scope : String) : StepToken where
  tokenScope := some scope
  tokenPermissions := some ["orgfs:write"]

theorem report_created : Creates (reportCatalog .absent) "proj_1" reportRequest (some "user_1") reportExpansion 0
      (reportStep .absent) (reportToken "/reports") := by
  constructor
  · exact ⟨_, _, rfl, rfl, rfl, rfl⟩
  · decide +kernel

theorem report_held : TokenHeld folderScope reportGrants reportExpansion (reportStep .absent) := by
  constructor
  · intro declared _ own missing
    cases missing
  · intro user _ scope isScope
    cases isScope
    constructor
    · intro action permitted pattern listed
      refine Access.patternWithin_of_mem ?_
      change pattern ∈ heldPatterns AccessBindingScope.orgfs .orgfs [Access.directoryGrant "/reports"] action
      have sole : pattern = "/reports".toList := by simpa [pathPatterns, folderScope] using listed
      rw [sole]
      cases action with
      | admin => exact absurd permitted (by decide +kernel)
      | _ => decide +kernel
    · intro action _ pattern listed
      simp [pathPatterns, folderScope] at listed
    · intro action _ schema listed
      cases listed
    · intro action _ table listed
      cases listed
    · intro action _ mountId listed
      cases listed

/-- A step without a scope of its own is given the pipeline's, which the user holds. -/
theorem report_token_sound : TokenSound folderScope reportGrants reportExpansion (reportToken "/reports") :=
  (pipeline_token_sound_iff folderScope reportGrants report_created).mpr report_held

theorem wider_created : Creates (reportCatalog (.valid "/**")) "proj_1" reportRequest (some "user_1") reportExpansion 0
      (reportStep (.valid "/**")) (reportToken "/**") := by
  constructor
  · exact ⟨_, _, rfl, rfl, rfl, rfl⟩
  · decide +kernel

/-- A step's own scope reaches beyond the pipeline's scope and what the user holds. -/
theorem wider_step_escapes :
    ¬ ∀ (catalog : Catalog) (scopeOf : String → AccessBindingScope) (grantsOf : String → String → List RawGrant),
      (∀ projectId userId permission, catalog.can projectId userId permission =
        (evaluatePermission permission.toList (grantsOf projectId userId) none).allowed) →
      ∀ projectId request userId expansion index step token,
        Creates catalog projectId request userId expansion index step token →
          TokenSound scopeOf grantsOf expansion token := by
  intro holds
  have sound := holds (reportCatalog (.valid "/**")) folderScope reportGrants (fun _ _ _ => rfl)
    "proj_1" reportRequest (some "user_1") reportExpansion 0 _ _ wider_created
  have admitted := sound.narrowed "/reports" rfl "orgfs:write".toList
    ⟨.orgfs, "/salaries".toList, .write⟩ (by decide +kernel)
  exact absurd admitted (by decide +kernel)

end EveHorizon.Pipelines
