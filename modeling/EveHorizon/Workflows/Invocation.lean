import EveHorizon.Workflows.Creation
import EveHorizon.Workflows.Profiles

/-!
# Invoking a workflow

`invoke` expands a workflow of the manifest into a root job and one job a step. What it
looks up beside the job tables does not change meanwhile. The columns of a job that no
query here reads are left out, and with them what only they are computed from.
-/

namespace EveHorizon.Workflows

open Access (AccessBindingScope RawGrant)
open Interleaving
open Jobs (JobId Timestamp Phase Job JobHints JobsDb)
open Json (Member)
open Pipelines (RawList Validated ExecutionType PipelineStep truthy)
open Templates (EvaluateScope WorkflowInputDeclaration)

structure WorkflowHints where
  job : JobHints := {}
  gates : RawList := .absent
  appLinks : RawList := .absent

structure WorkflowDefinition where
  steps : Option (List WorkflowStep) := none
  inputs : List (Text × WorkflowInputDeclaration) := []
  env : Option String := none
  envOverrides : Option (List (Text × Text)) := none
  scope : Option AccessBindingScope := none
  permissions : Option (List String) := none
  resourceRefs : Option ResourceRefsSetting := none
  git : Option GitConfig := none
  hints : Option WorkflowHints := none
  toolchains : Option (List String) := none

def acceptsToolchains (toolchains : Option (List String)) : Bool :=
  (toolchains.getD []).all (validToolchains.contains ·)

def acceptsEnvOverrides (entries : Option (List (Text × Text))) : Bool :=
  entries.all fun entries => envOverrideIssues entries == []

def acceptsPermissions (permissions : Option (List String)) : Bool := (permissions.getD []).all (· ≠ "")

def acceptsOverrideField : Text × Json → Bool
  | (name, .string text) =>
    (["model", "reasoning_effort", "variant", "temperature"].map String.toList).contains name ||
      (name == "harness".toList && text != [])
  | (name, .number _) => name == "temperature".toList
  | _ => false

def acceptsProfileOverride (fields : List (Text × Json)) : Bool :=
  (fields.map Prod.fst).contains "harness".toList && decide (fields.map Prod.fst).Nodup &&
    fields.all acceptsOverrideField

def acceptsHarnessOption : Text × Json → Bool
  | (name, .string _) => name != "temperature".toList
  | (name, .number _) => !(["model", "reasoning_effort"].map String.toList).contains name
  | (name, _) => !(["model", "reasoning_effort", "temperature"].map String.toList).contains name

def acceptsHarnessOptions (options : List (Text × Json)) : Bool :=
  decide (options.map Prod.fst).Nodup && options.all acceptsHarnessOption

def gitChoices : List (Text × List Text) :=
  [("ref_policy", ["auto", "env", "project_default", "explicit"]), ("create_branch", ["never", "if_missing", "always"]),
    ("commit", ["never", "manual", "auto", "required"]),
    ("push", ["never", "on_success", "required"])].map fun (name, values) =>
      (name.toList, values.map String.toList)

def acceptsGitField (field : Text × Text) : Bool :=
  (["ref", "branch", "commit_message", "remote"].map String.toList).contains field.1 ||
    ((gitChoices.lookup field.1).getD []).contains field.2

def acceptsGit (git : GitConfig) : Bool := decide (git.map Prod.fst).Nodup && git.all acceptsGitField

def WorkflowStep.conforms (step : WorkflowStep) : Bool :=
  executionKeyCount step == 1 && acceptsToolchains step.toolchains &&
    acceptsEnvOverrides step.envOverrides && acceptsPermissions step.permissions &&
    !(step.action.isSome && step.toolchains.isSome) &&
    step.harnessOptions.all acceptsHarnessOptions &&
    step.harnessProfileOverride.all acceptsProfileOverride && step.git.all acceptsGit

def WorkflowDefinition.conforms (definition : WorkflowDefinition) : Bool :=
  (definition.steps.getD []).all WorkflowStep.conforms &&
    acceptsToolchains definition.toolchains && acceptsEnvOverrides definition.envOverrides &&
    acceptsPermissions definition.permissions && definition.env != some "" &&
    definition.git.all acceptsGit

abbrev AcceptedWorkflow := { definition : WorkflowDefinition // definition.conforms = true }

structure WorkflowInvokeRequest where
  input : Option (List (Text × Json)) := none
  envOverrides : Option (List (Text × Text)) := none
  scope : Validated AccessBindingScope := .absent
  permissions : Option (List String) := none

/-! ## What is looked up -/

structure Agent where
  id : String
  harnessProfile : Option String := none
  -- `policies_json.permission_policy`.
  permissionPolicy : Option String := none

structure AppLinkGrant where
  revoked : Bool := false
  serviceName : Option String := none
  envs : List String := []
  producerProjectId : String

structure AppLinkSubscription where
  localAlias : String
  injectIntoJobs : Bool
  sameEnvironment : Bool
  producerEnvName : Option String := none
  apiGrant : Option AppLinkGrant := none

structure Catalog where
  projects : List Project
  orgs : List String
  -- The workflows of the latest manifest of a project, or why its YAML is not accepted.
  workflows : String → Option (Except String (List (String × Validated AcceptedWorkflow)))
  appLinks : String → List AppLinkSubscription
  agents : String → List Agent
  -- `toolchains` of an agent in the latest agent configuration.
  agentToolchains : String → String → RawList
  -- What a user has been granted in a project, where access is checked.
  grants : Option (String → String → List RawGrant)
  isValidPermission : String → Bool
  profiles : String → ResolverDeps
  resourceRef : Json → Except String ResourceRef
  issuesMessage : List Issue → String

section

variable (catalog : Catalog) (projectId : String)

def Catalog.project : Except Failure Project :=
  match catalog.projects.find? (·.id == projectId) with
  | none => .error (.notFound ("Project " ++ projectId ++ " not found"))
  | some project => .ok project

def invalidWorkflows (workflows : List (String × Validated AcceptedWorkflow)) : List String :=
  workflows.filterMap fun entry =>
    match entry.2 with
    | .invalid issues => some issues
    | _ => none

def parseWorkflows (manifest : Except String (List (String × Validated AcceptedWorkflow))) :
    Except Failure (List (String × Validated AcceptedWorkflow)) :=
  match manifest with
  | .error message => .error (.badRequest ("Invalid manifest YAML: " ++ message))
  | .ok workflows =>
    match invalidWorkflows workflows with
    | [] => .ok workflows
    | issues :: _ => .error (.badRequest ("Invalid workflow definition: " ++ issues))

variable (workflowName : String)

def findByName : Except Failure AcceptedWorkflow := do
  let _ ← catalog.project projectId
  match catalog.workflows projectId with
  | none => .error (.notFound ("No manifest synced for project " ++ projectId))
  | some manifest => do
    let workflows ← parseWorkflows manifest
    match workflows.lookup workflowName with
    | some (.valid definition) => .ok definition
    | _ => .error (.notFound ("Workflow \"" ++ workflowName ++ "\" not found for project " ++ projectId))

/-! ## Checks before any job is created -/

def WorkflowStep.executed (step : WorkflowStep) : PipelineStep where
  action := step.action
  script := step.script
  run := step.run
  hasAgent := step.agent.isSome

variable (entry : String × WorkflowStep)

def parseWorkflowStepExecution : Except String ExecutionType :=
  (Pipelines.parseStepExecution entry.2.executed entry.1).mapError fun message =>
    "Workflow \"" ++ workflowName ++ "\" step \"" ++ entry.1 ++ "\" has invalid execution config: " ++ message

def stepExecution : Except String ExecutionType := do
  match ← parseWorkflowStepExecution workflowName entry with
  | .action _ => .error "workflow action steps not yet supported — use a pipeline"
  | execution => .ok execution

def assertRemediationGateKey (gate projectId : String) : Except String Unit :=
  match (gate.toList.splitOn ':').map String.ofList with
  | ["remediate", project, envName] =>
    if project = projectId ∧ envName ≠ "" then .ok ()
    else .error ("Invalid remediation gate key \"" ++ gate ++ "\" (expected remediate:" ++ projectId ++ ":<env_name>)")
  | _ => .error ("Invalid remediation gate key \"" ++ gate ++ "\" (expected remediate:" ++ projectId ++ ":<env_name>)")

def extractWorkflowHints (hints : Option WorkflowHints) (projectId : String) : Except String WorkflowHints :=
  match hints with
  | none => .ok {}
  | some hints =>
    match hints.gates with
    | .absent => .ok hints
    | .notArray => .error "Workflow hints.gates must be an array of strings"
    | .array gates =>
      if gates.any Option.isNone then .error "Workflow hints.gates must be an array of strings"
      else do
        ((gates.filterMap id).filter (·.startsWith "remediate:")).forM
          (assertRemediationGateKey · projectId)
        return hints

def checkAppLink (subscriptions : List AppLinkSubscription) (envName : Option String)
    (linkAlias : String) : Except String Unit := do
  let notFound := "App link not found for project: " ++ linkAlias
  match subscriptions.reverse.find? (·.localAlias == linkAlias) with
  | none => .error notFound
  | some subscription =>
    match subscription.apiGrant with
    | none => .error notFound
    | some grant =>
      let link := "App link \"" ++ linkAlias ++ "\""
      if grant.revoked then .error (link ++ " grant is revoked")
      else if !subscription.injectIntoJobs then
        .error (link ++ " is not exposed to jobs (set inject_into.jobs: true)")
      else if (truthy grant.serviceName).isNone then
        .error (link ++ " does not expose an API service")
      else
        match truthy (if subscription.sameEnvironment then envName
            else subscription.producerEnvName) with
        | none => .error (link ++ " requires an env_name or fixed producer environment")
        | some producerEnv =>
          if grant.envs ≠ [] ∧ !grant.envs.contains producerEnv then
            .error (link ++ " is not granted for producer env " ++ producerEnv)
          else
            match catalog.projects.find? (·.id == grant.producerProjectId) with
            | none => .error ("Producer project " ++ grant.producerProjectId ++
                " not found for app link \"" ++ linkAlias ++ "\"")
            | some project =>
              if catalog.orgs.contains project.orgId then .ok ()
              else .error ("Producer org " ++ project.orgId ++ " not found for app link \"" ++ linkAlias ++ "\"")

def linkAliases (subscriptions : List AppLinkSubscription) (appLinks : RawList)
    (envName : Option String) : List String :=
  let explicit := match appLinks with
    | .array entries => entries.filterMap truthy
    | _ => []
  if explicit ≠ [] then explicit
  else (subscriptions.filter fun subscription => subscription.injectIntoJobs &&
    (envName.isSome || !subscription.sameEnvironment)).map (·.localAlias)

def resolveWorkflowAppLinkHints (hints : WorkflowHints) (envName : Option String) : Except String Unit :=
  let subscriptions := catalog.appLinks projectId
  (linkAliases subscriptions hints.appLinks envName).forM
    (checkAppLink catalog subscriptions envName)

def isUnreserved (char : Char) : Bool :=
  isWord char || ['-', '.', '!', '~', '*', '\'', '(', ')'].contains char

def percentByte (byte : UInt8) : Text := '%' :: (Nat.toDigits 16 (256 + byte.toNat)).tail.map Char.toUpper

def encodeUriComponent (text : Text) : Text :=
  text.flatMap fun char =>
    if isUnreserved char then [char]
    else (String.utf8EncodeChar char).flatMap percentByte

def buildIngestUri (ingestId fileName : Text) : String :=
  String.ofList ("ingest:/".toList ++ ingestId ++ ['/'] ++ encodeUriComponent fileName)

def inputMember (input : List (Text × Json)) (name : String) : Member :=
  match input.lookup name.toList with
  | some value => .json value
  | none => .undefined

def explicitRefs : Nat → List Json → Except String (List ResourceRef)
  | _, [] => .ok []
  | index, raw :: rest =>
    match catalog.resourceRef raw with
    | .error issues => .error ("Workflow input.resource_refs[" ++ toString index ++ "] is invalid: " ++ issues)
    | .ok ref => do
      let refs ← explicitRefs (index + 1) rest
      return ref :: refs

def ingestedRefs (payload : Member) : List ResourceRef :=
  match textMember payload "ingest_id", textMember payload "file_name" with
  | some ingestId, some fileName =>
    [{ uri := buildIngestUri ingestId fileName
       label := some (String.ofList fileName)
       required := some true
       mimeType := (textMember payload "mime_type").map String.ofList }]
  | _, _ => []

def buildResourceRefsFromInput : Option (List (Text × Json)) → Except String (List ResourceRef)
  | none => .ok []
  | some input => do
    let refs ← match inputMember input "resource_refs" with
      | .undefined => .ok []
      | .json (.array raws) => explicitRefs catalog 0 raws
      | _ => .error "Workflow input.resource_refs must be an array"
    return refs ++ ingestedRefs (inputMember input "payload")

abbrev StepEntry := (String × WorkflowStep) × ExecutionType

structure Invocation where
  project : Project
  workflowName : String
  userId : Option String
  steps : List StepEntry
  hints : JobHints
  git : Option GitConfig
  resourceRefs : List ResourceRef
  resourceRefsPolicy : Option ResolvedResourceRefsPolicy
  workflowEnvOverrides : Option (List (Text × Text))
  invocationEnvOverrides : Option (List (Text × Text))
  workflowTokenScope : Option AccessBindingScope
  invocationTokenScope : Option AccessBindingScope
  workflowTokenPermissions : Option (List String)
  invocationTokenPermissions : Option (List String)
  workflowToolchains : Option (List String)
  templateScope : EvaluateScope

def templateScopeOf (inputs : List (Text × WorkflowInputDeclaration))
    (input : Option (List (Text × Json))) : EvaluateScope :=
  let invokeInput := input.getD []
  let eventPayload := inputMember invokeInput "payload"
  { inputs := Templates.buildWorkflowInputsScope inputs invokeInput eventPayload
    eventPayload := eventPayload }

def prepareSteps (workflowName : String) (steps : List WorkflowStep) : Except Failure (List StepEntry) :=
  if steps = [] then .error (.badRequest ("Workflow \"" ++ workflowName ++ "\" has no steps"))
  else rejecting do
    validateStepGraph workflowName steps
    let executions ← (namedSteps steps).mapM (stepExecution workflowName)
    return (namedSteps steps).zip executions

def prepare (workflowName : String) (request : WorkflowInvokeRequest) (userId : Option String) :
    Except Failure Invocation := do
  let workflow ← findByName catalog projectId workflowName
  let definition := workflow.val
  let project ← catalog.project projectId
  let path := "Workflow \"" ++ workflowName ++ "\""
  let steps ← prepareSteps workflowName (definition.steps.getD [])
  let hints ← rejecting (extractWorkflowHints definition.hints projectId)
  rejecting (resolveWorkflowAppLinkHints catalog projectId hints definition.env)
  let resourceRefs ← rejecting (buildResourceRefsFromInput catalog request.input)
  let resourceRefsPolicy ← rejecting
    (parseResourceRefsPolicy .workflow path definition.resourceRefs)
  let workflowEnvOverrides ← rejecting
    (parseEnvOverrides (path ++ ".env_overrides") definition.envOverrides)
  let invocationEnvOverrides ← rejecting
    (parseEnvOverrides (path ++ " invocation env_overrides") request.envOverrides)
  let workflowTokenScope ← rejecting
    (parseTokenScope (path ++ ".scope") (accepted definition.scope))
  let invocationTokenScope ← rejecting (parseTokenScope (path ++ " invocation scope") request.scope)
  let workflowTokenPermissions ← rejecting
    (parseTokenPermissions catalog.isValidPermission (path ++ ".permissions") definition.permissions)
  let invocationTokenPermissions ← rejecting
    (parseTokenPermissions catalog.isValidPermission (path ++ " invocation permissions") request.permissions)
  let workflowToolchains ← rejecting
    (parseToolchains (path ++ ".toolchains") (rawList definition.toolchains))
  return { project, workflowName, userId, steps
           hints := hints.job, git := definition.git
           resourceRefs, resourceRefsPolicy, workflowEnvOverrides, invocationEnvOverrides
           workflowTokenScope, invocationTokenScope, workflowTokenPermissions
           invocationTokenPermissions, workflowToolchains
           templateScope := templateScopeOf definition.inputs request.input }

/-! ## Checks of a step -/

structure StepAgentConfig where
  agentId : Option String := none
  harness : Option String := none
  harnessProfile : Option String := none
  harnessOptions : Option JobHarnessOptions := none
  permission : Option String := none
  toolchains : List String := []
  harnessProfileOverride : Option InlineProfileBundle := none
  harnessProfileSource : Option String := none
  harnessProfileHash : Option String := none

/-- A template of a profile; what cannot be resolved falls back to the agent, and a template
that does not parse throws. -/
def interpolateProfile (templateScope : EvaluateScope) (value : Json) : Except Failure (Option Json) := do
  let interpolated ← (Templates.interpolateValue templateScope [] value).mapError fun message =>
    .error (String.ofList message)
  return if interpolated.missing = [] then some interpolated.value else none

def jsonText : Option Json → Option Text
  | some (.string text) => some text
  | _ => none

def resolveProfile (templateScope : EvaluateScope) : Option Json → Except Failure (Option Json)
  | none => .ok none
  | some value => interpolateProfile templateScope value

variable (context : Invocation) (step : WorkflowStep)

def declaredAgent : Option Agent :=
  (truthy (step.agent.bind (·.name))).bind fun agentName =>
    (catalog.agents context.project.id).find? (·.id == agentName)

variable (stepToolchains : Option (List String))

def resolveDeclaredToolchains : Except Failure (Option (List String)) :=
  match declaredAgent catalog context step with
  | none => .ok none
  | some agent =>
    if (nonEmpty stepToolchains).isSome then .ok none
    else rejecting (parseToolchains ("Agent \"" ++ agent.id ++ "\".toolchains")
      (catalog.agentToolchains context.project.id agent.id))

def stepAgentConfig (agentToolchains : Option (List String)) (profileRef : Option Text)
    (template : Option InlineProfileBundle) : StepAgentConfig :=
  let params : ResolverParams := { workflowTemplate := template, stringRef := profileRef }
  let stepChains := resolveStepToolchains context.workflowToolchains stepToolchains
  match declaredAgent catalog context step with
  | some agent =>
    let resolved := resolveHarnessProfile (catalog.profiles context.project.id)
      { params with agentDefault := agent.harnessProfile }
    { agentId := some agent.id
      harness := step.harness <|> resolved.harness
      harnessProfile := resolved.profileName <|> agent.harnessProfile
      harnessOptions := step.harnessOptions <|> resolved.harnessOptions
      permission := agent.permissionPolicy
      toolchains := resolveAgentToolchains context.workflowToolchains stepToolchains
        agentToolchains
      harnessProfileOverride := template
      harnessProfileSource := some resolved.source
      harnessProfileHash := resolved.profileHash }
  | none =>
    if (truthy (step.agent.bind (·.name))).isNone ∧ (template.isSome ∨
        (truthy step.harness).isSome ∨ step.harnessOptions.isSome) then
      let resolved := resolveHarnessProfile (catalog.profiles context.project.id) params
      { harness := step.harness <|> resolved.harness
        harnessProfile := profileRef.map String.ofList
        harnessOptions := step.harnessOptions <|> resolved.harnessOptions
        toolchains := stepChains
        harnessProfileOverride := template
        harnessProfileSource := some resolved.source
        harnessProfileHash := resolved.profileHash }
    else { toolchains := stepChains }

def resolveStepAgentFromStep :
    Except Failure StepAgentConfig := do
  let profileRef ← resolveProfile context.templateScope (step.harnessProfile.map .string)
  let profileOverride ← resolveProfile context.templateScope
    (step.harnessProfileOverride.map .object)
  let agentToolchains ← resolveDeclaredToolchains catalog context step stepToolchains
  return stepAgentConfig catalog context step stepToolchains agentToolchains (jsonText profileRef)
    (profileOverride.bind toInlineProfileBundle)

def stepPath (name : String) : String :=
  "Workflow \"" ++ context.workflowName ++ "\" step \"" ++ name ++ "\""

variable (entry : StepEntry)

def planAgent : Except Failure StepAgentConfig := do
  let step := entry.1.2
  let stepToolchains ← rejecting
    (parseToolchains (stepPath context entry.1.1 ++ ".toolchains") (rawList step.toolchains))
  match entry.2 with
  | .agent => resolveStepAgentFromStep catalog context step stepToolchains
  | _ => return { toolchains := resolveStepToolchains context.workflowToolchains stepToolchains }

def actor : Option (List RawGrant) :=
  match truthy context.userId, catalog.grants with
  | some userId, some grants => some (grants userId context.project.id)
  | _, _ => none

structure StepSettings where
  envOverrides : Option (List (Text × Text))
  tokenScope : Option AccessBindingScope
  tokenPermissions : Option (List String)
  resourceRefs : List ResourceRef × ResourceRefsSummary

variable (path : String)

def planEnvOverrides (step : WorkflowStep) :
    Except String (Option (List (Text × Text))) := do
  let stepEnvOverrides ← parseEnvOverrides (path ++ ".env_overrides") step.envOverrides
  mergeStepEnvOverrides catalog.issuesMessage context.workflowEnvOverrides stepEnvOverrides
    context.invocationEnvOverrides (path ++ " merged env_overrides")

def planTokenScope (step : WorkflowStep) :
    Except String (Option AccessBindingScope) := do
  let stepTokenScope ← parseTokenScope (path ++ ".scope") (accepted step.scope)
  let tokenScope := Access.mergeStepTokenScope context.workflowTokenScope stepTokenScope
    context.invocationTokenScope
  (Access.assertActorCanUseScope (actor catalog context) tokenScope (path ++ " scope").toList).mapError String.ofList
  return tokenScope

def planTokenPermissions (step : WorkflowStep) :
    Except String (Option (List String)) := do
  let stepTokenPermissions ← parseTokenPermissions catalog.isValidPermission
    (path ++ ".permissions") step.permissions
  let tokenPermissions := mergeStepTokenPermissions context.workflowTokenPermissions
    stepTokenPermissions context.invocationTokenPermissions
  (Access.assertActorCanGrantPermissions (actor catalog context)
    (tokenPermissions.map (·.map String.toList)) (path ++ " permissions").toList).mapError
      String.ofList
  return tokenPermissions

def planSettings : Except String StepSettings := do
  let path := stepPath context entry.1.1
  let envOverrides ← planEnvOverrides catalog context path entry.1.2
  let tokenScope ← planTokenScope catalog context path entry.1.2
  let tokenPermissions ← planTokenPermissions catalog context path entry.1.2
  let resourceRefs ← resolveStepResourceRefs context.resourceRefs context.resourceRefsPolicy
    entry.1.2.resourceRefs context.workflowName entry.1.1
  return { envOverrides, tokenScope, tokenPermissions, resourceRefs }

structure StepPlan where
  agentConfig : StepAgentConfig
  git : Option Json
  settings : StepSettings

def planStep : Except Failure StepPlan := do
  let agentConfig ← planAgent catalog context entry
  let git ← resolveStepGit context.git entry.1.2.git context.templateScope context.workflowName
    entry.1.1
  let settings ← rejecting (planSettings catalog context entry)
  return { agentConfig, git, settings }

variable (rootJobId : JobId)

def rootJob : Job where
  id := rootJobId
  projectId := context.project.id
  title := "[Workflow] " ++ context.workflowName
  labels := ["workflow:" ++ context.workflowName]
  phase := .active
  priority := 0
  hints := { context.hints with workflowName := some context.workflowName, workflowRoot := true }
  executionType := some "agent"
  actorUserId := context.userId

def stepJob (stepJobId : JobId) (index : Nat) (entry : StepEntry) (plan : StepPlan) : Job where
  id := stepJobId
  projectId := context.project.id
  parentId := some rootJobId
  depth := 1
  title := "[" ++ context.workflowName ++ "] " ++ entry.1.1
  labels := ["workflow:" ++ context.workflowName, "step:" ++ entry.1.1]
  -- Staged until the graph exists, or an early step could close the root.
  phase := .backlog
  priority := min index 4
  assignee := plan.agentConfig.agentId
  hints := { context.hints with
    workflowName := some context.workflowName
    stepName := some entry.1.1
    stepIndex := some index
    condition := truthy entry.1.2.condition <|> context.hints.condition }
  executionType := some entry.2.text
  harness := plan.agentConfig.harness
  harnessProfileSource := plan.agentConfig.harnessProfileSource
  harnessProfileHash := plan.agentConfig.harnessProfileHash
  stepName := some entry.1.1
  actorUserId := context.userId

structure WorkflowStepJob where
  jobId : JobId
  stepName : String
  dependsOn : List String
  resourceRefs : ResourceRefsSummary
  deriving DecidableEq

def createStep (index : Nat) (entry : StepEntry) : WorkflowCall WorkflowStepJob := do
  let stepJobId ← generateChildJobId catalog.projects context.project.id rootJobId
  let plan ← .ofExcept (planStep catalog context entry)
  let _ ← create (stepJob context rootJobId stepJobId index entry plan)
  return { jobId := stepJobId, stepName := entry.1.1, dependsOn := entry.1.2.dependencies
           resourceRefs := plan.settings.resourceRefs.2 }

def createSteps (context : Invocation) (rootJobId : JobId) :
    Nat → List StepEntry → WorkflowCall (List WorkflowStepJob)
  | _, [] => .ret []
  | index, entry :: rest => do
    let created ← createStep catalog context rootJobId index entry
    let later ← createSteps context rootJobId (index + 1) rest
    return created :: later

variable (created : List WorkflowStepJob)

def jobNamed (name : String) : Option JobId :=
  (created.reverse.find? (·.stepName == name)).map (·.jobId)

def wireStep (entry : String × WorkflowStep) : WorkflowCall Unit :=
  match jobNamed created entry.1 with
  | none => .ret ()
  | some jobId => Call.forEach entry.2.dependencies fun depName =>
    match jobNamed created depName with
    | none => .raise (.badRequest ("Step \"" ++ entry.1 ++ "\" depends on unknown step \"" ++ depName ++ "\""))
    | some depJobId => addDependency jobId depJobId .blocks

def releaseStep (stepJob : WorkflowStepJob) : WorkflowCall Unit := do
  let released ← onJobs (Jobs.updatePhase stepJob.jobId .ready)
  if released.success then return ()
  else .raise (.error ("Workflow step " ++ stepJob.stepName ++ " could not be released: " ++
    released.error.getD "undefined"))

structure WorkflowInvokeResult where
  jobId : JobId
  status : String
  stepJobs : List WorkflowStepJob := []
  result : Option String := none
  error : Option String := none
  deriving DecidableEq

def stepFailed (job : Job) : Bool :=
  job.phase == .done && (truthy job.closeReason).any fun reason =>
    reason != "completed" && reason != "condition_not_met"

def finishedResult (db : JobsDb) (rootJobId : JobId) (stepJobIds : List JobId) : Option WorkflowInvokeResult :=
  let jobs := stepJobIds.filterMap db.findJob
  if jobs.all (·.phase.terminal) then
    if jobs.any (·.phase == .cancelled) then
      some { jobId := rootJobId, status := "cancelled"
             error := some "One or more workflow steps were cancelled" }
    else
      let lastAttempt := stepJobIds.getLast?.bind fun jobId => db.latestAttempt jobId fun _ => true
      let anyFailed := jobs.any stepFailed
      some { jobId := rootJobId
             status := if anyFailed then "failed" else "done"
             result := lastAttempt.bind (·.result.resultJson)
             error := if anyFailed then some "One or more workflow steps failed" else none }
  else none

def pollStepJobsForCompletion (rootJobId : JobId) (stepJobIds : List JobId) : Nat → WorkflowCall WorkflowInvokeResult
  | 0 => .raise (.timeout ("Workflow invocation timed out after 60 seconds. Root job: " ++ rootJobId))
  | rounds + 1 => do
    match ← select fun db => finishedResult db rootJobId stepJobIds with
    | some result => return result
    | none => pollStepJobsForCompletion rootJobId stepJobIds rounds

def connect : WorkflowCall Unit := do
  Call.forEach (context.steps.map Prod.fst) (wireStep created)
  Call.forEach created releaseStep

def answer (created : List WorkflowStepJob) : Option Nat → WorkflowCall WorkflowInvokeResult
  | none => .ret { jobId := rootJobId, status := "active", stepJobs := created }
  | some rounds => pollStepJobsForCompletion rootJobId (created.map (·.jobId)) rounds

def expand (rootIds : RootIds) (context : Invocation) (wait : Option Nat) : WorkflowCall WorkflowInvokeResult := do
  let rootJobId ← generateRootJobId catalog.projects rootIds context.project.id
  let _ ← create (rootJob context rootJobId)
  let created ← createSteps catalog context rootJobId 0 context.steps
  connect context created
  answer rootJobId created wait

def invoke (rootIds : RootIds) (projectId workflowName : String) (request : WorkflowInvokeRequest)
    (userId : Option String) (wait : Option Nat) : WorkflowCall WorkflowInvokeResult := do
  select fun _ => ()
  let context ← .ofExcept (prepare catalog projectId workflowName request userId)
  expand catalog rootIds context wait

end

end EveHorizon.Workflows
