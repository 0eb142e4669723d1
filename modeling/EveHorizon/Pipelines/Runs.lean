import EveHorizon.Jobs.Operations
import EveHorizon.Library.Histories
import EveHorizon.Library.Text

/-!
# Pipeline runs

`createRun` and `expandPipeline` turn a pipeline of the manifest into a run and its
jobs. A run with the same dedupe key that is still active is cancelled on the way.
Projects, manifests and permissions do not change meanwhile; values of the manifest
that a schema validates are kept with the outcome of the validation. Dry runs have a
module of their own.
-/

namespace EveHorizon.Pipelines

open Interleaving
open Jobs (JobId Timestamp Job JobsDb JobStatement JobCall JobRelation)

abbrev RunId := String

def truthy (text : Option String) : Option String := text.filter (· ≠ "")

def isBlank (text : String) : Bool := text.toList.all Text.isSpace

inductive Validated (α : Type) where
  | absent
  | invalid (issues : String)
  | valid (value : α)
  deriving DecidableEq

inductive RawList where
  | absent
  | notArray
  | array (entries : List (Option String))
  deriving DecidableEq

structure StepAction where
  type : Option String
  hasToolchains : Bool := false
  reviewRequired : Option String := none
  deriving DecidableEq

structure StepScript where
  run : Option String := none
  command : Option String := none
  -- Numbers; one that is not whole is kept as its text.
  timeout : Validated Int := .absent
  timeoutSeconds : Validated Int := .absent
  deriving DecidableEq

structure PipelineStep where
  name : Option String := none
  dependsOn : Option (List String) := none
  action : Option StepAction := none
  script : Option StepScript := none
  run : Option String := none
  hasAgent : Bool := false
  toolchains : RawList := .absent
  envOverrides : Validated String := .absent
  scope : Validated String := .absent
  permissions : RawList := .absent
  deriving DecidableEq

structure PipelineDefinition where
  steps : Option (List PipelineStep) := none
  env : Option String := none
  toolchains : RawList := .absent
  envOverrides : Validated String := .absent
  scope : Validated String := .absent
  permissions : RawList := .absent
  -- `trigger.system.event`.
  systemEvent : Option String := none

structure Manifest where
  manifestHash : String
  -- What the YAML parses to: an error, no pipelines, or pipelines by name.
  pipelines : Except String (Option (List (String × PipelineDefinition)))

structure Project where
  id : String
  slug : String

structure Catalog where
  projects : List Project
  findByProjectAndGitSha : String → String → Option Manifest
  findLatestByProject : String → Option Manifest
  validToolchains : List String
  isValidPermission : String → Bool
  -- Whether a user holds a permission in a project.
  can : String → String → String → Bool

namespace Catalog

variable (catalog : Catalog)

def findById (projectId : String) : Option Project := catalog.projects.find? (·.id == projectId)

def findBySlug (slug : String) : Option Project := catalog.projects.find? (·.slug == slug)

def manifestFor (projectId : String) (gitSha : Option String) : Option Manifest :=
  ((truthy gitSha).bind (catalog.findByProjectAndGitSha projectId)) <|>
    catalog.findLatestByProject projectId

end Catalog

structure ExpandPipelineRequest where
  pipelineName : String
  envName : Option String := none
  gitSha : Option String := none
  inputs : Option String := none
  only : Option String := none
  dedupeKey : Option String := none

def stepName (index : Nat) (step : PipelineStep) : String :=
  (truthy step.name).getD ("step-" ++ toString (index + 1))

def parseValidated (path : String) : Validated String → Except String (Option String)
  | .absent => .ok none
  | .invalid issues => .error ("Invalid " ++ path ++ ": " ++ issues)
  | .valid value => .ok (some value)

def parseTokenScope := parseValidated

def parseEnvOverrides := parseValidated

def nonEmptyEntries (path : String) : List (Option String) → Except String (List String)
  | [] => .ok []
  | entry :: rest =>
    match truthy entry with
    | none => .error ("Invalid " ++ path ++ ": every entry must be a non-empty string")
    | some entry => do
      let entries ← nonEmptyEntries path rest
      return entry :: entries

def parseTokenPermissions (isValidPermission : String → Bool) (path : String) :
    RawList → Except String (Option (List String))
  | .absent => .ok none
  | .notArray => .error ("Invalid " ++ path ++ ": expected array of permission strings")
  | .array entries => do
    let permissions ← nonEmptyEntries path entries
    let invalid := permissions.filter fun entry => !isValidPermission entry
    if invalid ≠ [] then
      .error ("Invalid " ++ path ++ ": unknown permission(s) " ++ ", ".intercalate invalid)
    else .ok (some (permissions.dedup.insertionSort (· ≤ ·)))

def knownToolchains (validToolchains : List String) (path : String) :
    List (Option String) → Except String (List String)
  | [] => .ok []
  | entry :: rest =>
    match truthy entry with
    | none => .error ("Invalid " ++ path ++ ": every entry must be a non-empty string")
    | some entry =>
      if validToolchains.contains entry then do
        let entries ← knownToolchains validToolchains path rest
        return entry :: entries
      else .error ("Invalid " ++ path ++ ": unknown toolchain \"" ++ entry ++ "\"")

def parseToolchains (validToolchains : List String) (path : String) : RawList → Except String (Option (List String))
  | .absent => .ok none
  | .notArray => .error ("Invalid " ++ path ++ ": expected array of toolchain names")
  | .array entries => (knownToolchains validToolchains path entries).map fun known =>
    some known.reverse.dedup.reverse

inductive ExecutionType where
  | agent | script | action (type : String)

structure ScriptStepConfig where
  command : String
  timeoutSeconds : Validated Int

def getScriptConfig (step : PipelineStep) : Option ScriptStepConfig :=
  (step.script.bind fun script =>
      ((script.run <|> script.command).filter fun command => !isBlank command).map fun command =>
        { command := command
          timeoutSeconds := if script.timeout = .absent then script.timeoutSeconds
            else script.timeout }) <|>
    (step.run.filter fun command => !isBlank command).map fun command =>
      { command := command, timeoutSeconds := .absent }

def parseStepExecution (step : PipelineStep) (name : String) : Except String ExecutionType :=
  match step.action with
  | some action =>
    match action.type.filter fun type => !isBlank type with
    | none => .error ("Step \"" ++ name ++ "\" action must define a non-empty type")
    | some type => .ok (.action type)
  | none =>
    match getScriptConfig step with
    | some _ => .ok .script
    | none =>
      if step.hasAgent then .ok .agent
      else .error ("Step \"" ++ name ++ "\" has no recognized execution type (action, script, run, or agent)")

def resolvePipelineStepToolchains (pipelineToolchains stepToolchains : Option (List String))
    (step : PipelineStep) (execution : ExecutionType) (path : String) :
    Except String (List String) :=
  let resolved := ((stepToolchains.filter (· ≠ [])) <|>
    pipelineToolchains.filter (· ≠ [])).getD []
  if step.action.any (·.hasToolchains) then
    .error ("Invalid " ++ path ++ ".action.toolchains: use top-level step toolchains instead")
  else
    match execution with
    | .action type =>
      if type = "run" then .ok resolved
      else if (stepToolchains.getD []) ≠ [] then
        .error ("Invalid " ++ path ++ ".toolchains: pipeline action steps support toolchains only for action.type=run")
      else .ok []
    | _ => .ok resolved

def stepNamed (steps : List PipelineStep) (name : String) : Option PipelineStep :=
  steps.reverse.find? fun step => step.name.getD "" == name

/-- `visit` of `filterStepsForOnly`. Each level below includes one more name of a step,
so as many levels as there are steps are enough. -/
def visit (steps : List PipelineStep) : Nat → List String → String → Except String (List String)
  | levels, included, name =>
    match stepNamed steps name with
    | none => .error ("Pipeline step \"" ++ name ++ "\" not found")
    | some step =>
      if included.contains name then .ok included
      else
        match levels with
        | 0 => .ok included
        | levels + 1 => (step.dependsOn.getD []).foldlM (visit steps levels) (included ++ [name])

def filterStepsForOnly (steps : List PipelineStep) (only : String) : Except String (List PipelineStep) := do
  let namedSteps := steps.zipIdx.map fun (step, index) =>
    { step with name := some (stepName index step) }
  let included ← visit namedSteps namedSteps.length [] only
  return namedSteps.filter fun step => included.contains (step.name.getD "")

def isRemediationPipeline (pipeline : PipelineDefinition) : Bool :=
  pipeline.systemEvent == some "pipeline.failed" ||
    pipeline.systemEvent == some "system.pipeline.failed"

variable (pipelineName : String)

def ensureRemediationPipelinePolicy (pipeline : PipelineDefinition) (steps : List PipelineStep) : Except String Unit :=
  if isRemediationPipeline pipeline then
    let actions := steps.filterMap (·.action)
    if actions.all fun action => action.type != some "create-pr" then
      .error ("Remediation pipeline \"" ++ pipelineName ++ "\" must include a create-pr action step")
    else
      match actions.find? fun action => action.type != some "create-pr" with
      | none => .ok ()
      | some invalid =>
        match truthy invalid.type with
        | none => .ok ()
        | some type => .error ("Remediation pipeline \"" ++ pipelineName ++ "\" action \"" ++
            type ++ "\" is not allowed; use create-pr")
  else .ok ()

def stepPath (name : String) : String :=
  "Pipeline \"" ++ pipelineName ++ "\" step \"" ++ name ++ "\""

def checkStep (entry : PipelineStep × Nat) : Except String Unit := do
  let name := stepName entry.2 entry.1
  let _ ← parseEnvOverrides (stepPath pipelineName name ++ ".env_overrides") entry.1.envOverrides
  let _ ← parseStepExecution entry.1 name

def planSteps (pipeline : PipelineDefinition) (request : ExpandPipelineRequest) : Except String (List PipelineStep) :=
  match pipeline.steps.filter (· ≠ []) with
  | none => .error ("Pipeline \"" ++ request.pipelineName ++ "\" has no steps")
  | some steps => do
    let steps ← match truthy request.only with
      | none => .ok steps
      | some only => filterStepsForOnly steps only
    ensureRemediationPipelinePolicy request.pipelineName pipeline steps
    steps.zipIdx.forM (checkStep request.pipelineName)
    return steps

def getPipelineFromManifest (notFound : String) (pipelineNotFound : String)
    (manifest : Manifest) (pipelineName : String) : Except String PipelineDefinition :=
  match manifest.pipelines with
  | .error message => .error ("Invalid manifest YAML: " ++ message)
  | .ok none => .error notFound
  | .ok (some pipelines) =>
    match pipelines.lookup pipelineName with
    | none => .error pipelineNotFound
    | some pipeline => .ok pipeline

inductive RunStatus where
  | pending | running | awaitingApproval | succeeded | failed | cancelled
  deriving DecidableEq

def RunStatus.terminal : RunStatus → Bool
  | .succeeded | .failed | .cancelled => true
  | _ => false

structure PipelineRun where
  id : RunId
  projectId : String
  pipelineName : String
  envName : Option String
  gitSha : Option String
  manifestHash : Option String
  inputs : Option String
  status : RunStatus
  completedAt : Option Timestamp
  errorMessage : Option String
  runMode : Option String
  dedupeKey : Option String
  createdAt : Timestamp
  startedAt : Option Timestamp := none
  deriving DecidableEq

inductive StepStatus where
  | pending | running | blocked | succeeded | failed | cancelled
  deriving DecidableEq

def isStepTerminal : StepStatus → Bool
  | .succeeded | .failed | .cancelled => true
  | _ => false

structure PipelineStepRun where
  id : String
  pipelineRunId : RunId
  stepIndex : Nat
  status : StepStatus
  completedAt : Option Timestamp

structure PipelineDb where
  jobs : JobsDb := {}
  runs : List PipelineRun := []
  stepRuns : List PipelineStepRun := []

inductive PipelineStatement where
  | select
  | findActiveRunByDedupeKey (dedupeKey : String)
  | insertRun (run : PipelineRun)
  -- `updateRun` with the status `cancelled`.
  | closeRun (id : RunId) (errorMessage : Option String)
  | closeStepRun (id : String)
  | insertJob (job : Job)
  | insertRelation (relation : JobRelation)
  | jobs (stmt : JobStatement)

namespace PipelineDb

variable (db : PipelineDb)

def findRunById (id : RunId) : Option PipelineRun := db.runs.find? (·.id == id)

def findActiveRunByDedupeKey (dedupeKey : String) : Option PipelineRun :=
  Table.latest (·.createdAt)
    (db.runs.filter fun run => run.dedupeKey == some dedupeKey && !run.status.terminal)

def listStepRuns (id : RunId) : List PipelineStepRun :=
  (db.stepRuns.filter (·.pipelineRunId == id)).insertionSort
    fun first second => first.stepIndex ≤ second.stepIndex

def listByRunId (id : RunId) : List Job :=
  (db.jobs.jobs.filter (·.runId == some id)).insertionSort
    fun first second => first.createdAt ≤ second.createdAt

def closeRun (errorMessage : Option String) (run : PipelineRun) : PipelineRun :=
  { run with status := .cancelled, completedAt := some db.jobs.now, errorMessage }

def closeStepRun (step : PipelineStepRun) : PipelineStepRun :=
  { step with status := .cancelled, completedAt := some db.jobs.now }

variable (run : PipelineRun)

def stampedRun : PipelineRun :=
  { run with createdAt := db.jobs.now }

def keyTaken : Bool :=
  run.dedupeKey.isSome && !run.status.terminal &&
    db.runs.any fun other => other.dedupeKey == run.dedupeKey && !other.status.terminal

def admitsRun : Except String Unit :=
  if (db.findRunById run.id).isSome then
    .error "duplicate key value violates unique constraint \"pipeline_runs_pkey\""
  else if db.keyTaken run then
    .error "duplicate key value violates unique constraint \"idx_pipeline_runs_dedupe_active\""
  else .ok ()

def newJob (job : Job) : Job :=
  { job with
    createdAt := db.jobs.now
    updatedAt := db.jobs.now
    readyAt := if job.phase = .ready then some db.jobs.now else none }

end PipelineDb

def PipelineStatement.effect : PipelineStatement → PipelineDb → PipelineDb
  | .select, db => db
  | .findActiveRunByDedupeKey _, db => db
  | .insertRun run, db =>
    match db.admitsRun run with
    | .error _ => db
    | .ok _ => { db with runs := db.runs ++ [db.stampedRun run] }
  | .closeRun id errorMessage, db =>
    { db with runs := Table.updateWhere (·.id == id) (db.closeRun errorMessage) db.runs }
  | .closeStepRun id, db =>
    { db with stepRuns := Table.updateWhere (·.id == id) db.closeStepRun db.stepRuns }
  | .insertJob job, db =>
    if (db.jobs.findJob job.id).isSome then db
    else { db with jobs := { db.jobs with jobs := db.jobs.jobs ++ [db.newJob job] } }
  | .insertRelation relation, db =>
    if relation.jobId = relation.relatedJobId ∨ relation ∈ db.jobs.relations then db
    else { db with jobs := { db.jobs with relations := db.jobs.relations ++ [relation] } }
  | .jobs stmt, db => { db with jobs := stmt.effect db.jobs }

instance : Statement PipelineStatement PipelineDb where
  ready _ _ := true
  effect := PipelineStatement.effect

abbrev PipelineCall := Call PipelineStatement PipelineDb String

def select {α : Type} (query : PipelineDb → α) : PipelineCall α := .perform .select query

def onJobs {α : Type} (call : JobCall α) : PipelineCall α := call.lift .jobs PipelineDb.jobs

def insertRun (run : PipelineRun) : PipelineCall PipelineRun :=
  .stmt (.insertRun run) fun db =>
    match db.admitsRun run with
    | .error message => .raise message
    | .ok _ => .ret (db.stampedRun run)

def insertJob (job : Job) : PipelineCall Job :=
  .stmt (.insertJob job) fun db =>
    if (db.jobs.findJob job.id).isSome then
      .raise "duplicate key value violates unique constraint \"jobs_pkey\""
    else .ret (db.newJob job)

def supersededMessage : String := "Superseded by new run with same dedupe key"

def closeStepRuns (id : RunId) : PipelineCall Unit := do
  let steps ← select fun db => db.listStepRuns id
  Call.forEach steps fun step =>
    if isStepTerminal step.status then .ret ()
    else .perform (.closeStepRun step.id) fun _ => ()

def expanderCancelExisting (dedupeKey : String) : PipelineCall Unit := do
  match ← .perform (.findActiveRunByDedupeKey dedupeKey) fun db =>
      db.findActiveRunByDedupeKey dedupeKey with
  | none => return ()
  | some existingRun =>
    .perform (.closeRun existingRun.id (some supersededMessage)) fun _ => ()
    closeStepRuns existingRun.id

variable (catalog : Catalog)

def getRunDetail (projectId pipelineName : String) (id : RunId) : PipelineCall Unit := do
  let project ← select fun _ => catalog.findById projectId
  if project.isNone then .raise ("Project " ++ projectId ++ " not found")
  else
    match ← select fun db => db.findRunById id with
    | none => .raise ("Pipeline run " ++ id ++ " not found")
    | some run =>
      if run.projectId ≠ projectId ∨ run.pipelineName ≠ pipelineName then
        .raise ("Pipeline run " ++ id ++ " not found")
      else
        let _ ← select fun db => db.listByRunId id
        return ()

def cancelRun (id : RunId) (reason : Option String) : PipelineCall Unit := do
  match ← select fun db => db.findRunById id with
  | none => .raise ("Pipeline run " ++ id ++ " not found")
  | some run =>
    .perform (.closeRun id (reason <|> run.errorMessage)) fun _ => ()
    closeStepRuns id
    if run.runMode = some "jobs" then
      let jobs ← select fun db => db.listByRunId id
      Call.forEach jobs fun job =>
        if job.phase.terminal then .ret ()
        else do
          let _ ← onJobs (Jobs.cancelJob job.id (some (reason.getD "Pipeline run cancelled")))
          return ()
    getRunDetail catalog run.projectId run.pipelineName id

def serviceCancelExisting (dedupeKey : String) : PipelineCall Unit := do
  match ← .perform (.findActiveRunByDedupeKey dedupeKey) fun db =>
      db.findActiveRunByDedupeKey dedupeKey with
  | none => return ()
  | some existingRun => cancelRun catalog existingRun.id (some supersededMessage)

/-- The ids a call generates; that of a job has been checked to be unused, so that the
jobs of the call have different ones. -/
structure NewIds where
  runId : RunId
  jobId : Nat → JobId
  distinct : Function.Injective jobId

structure Expansion where
  projectId : String
  request : ExpandPipelineRequest
  envName : Option String
  userId : Option String
  pipelineToolchains : Option (List String)
  tokenScope : Option String
  tokenPermissions : Option (List String)

variable (expansion : Expansion)

def planExecution (index : Nat) (step : PipelineStep) : Except String ExecutionType := do
  let name := stepName index step
  let path := stepPath expansion.request.pipelineName name
  let execution ← parseStepExecution step name
  let stepToolchains ← parseToolchains catalog.validToolchains (path ++ ".toolchains")
    step.toolchains
  let _ ← resolvePipelineStepToolchains expansion.pipelineToolchains stepToolchains step execution
    path
  return execution

def assertActorCanGrantPermissions (permissions : Option (List String)) (context : String) : Except String Unit :=
  match truthy expansion.userId, permissions with
  | some userId, some permissions => permissions.forM fun permission =>
    if catalog.can expansion.projectId userId permission then .ok ()
    else .error (context ++ " requests permission \"" ++ permission ++ "\" that the invoking actor does not hold")
  | _, _ => .ok ()

def planTokens (index : Nat) (step : PipelineStep) : Except String Unit := do
  let path := stepPath expansion.request.pipelineName (stepName index step)
  let _ ← parseTokenScope (path ++ ".scope") step.scope
  let stepPermissions ← parseTokenPermissions catalog.isValidPermission (path ++ ".permissions")
    step.permissions
  assertActorCanGrantPermissions catalog expansion
    (stepPermissions <|> expansion.tokenPermissions) (path ++ " permissions")

def reviewRequired (step : PipelineStep) : Except String Jobs.ReviewRequired :=
  match step.action.bind (·.reviewRequired) with
  | some text =>
    if text = "none" then .ok .none
    else if text = "human" then .ok .human
    else if text = "agent" then .ok .agent
    else if text.length ≤ 10 then
      .error "new row for relation \"jobs\" violates check constraint \"valid_review_required\""
    else .error "value too long for type character varying(10)"
  | none => .ok (if step.action.any (·.type == some "create-pr") then .human else .none)

def tooLong (length : Nat) (text : String) : Bool := (text.toList.drop length).any (· ≠ ' ')

def integerColumn : Validated Int → Except String Unit
  | .absent => .ok ()
  | .invalid text => .error ("invalid input syntax for type integer: \"" ++ text ++ "\"")
  | .valid value =>
    if -2 ^ 31 ≤ value ∧ value < 2 ^ 31 then .ok ()
    else .error ("value \"" ++ toString value ++ "\" is out of range for type integer")

def jobColumns (name : String) (execution : ExecutionType) (step : PipelineStep) : Except String Jobs.ReviewRequired :=
  let texts := ["pipeline:" ++ expansion.request.pipelineName, "step:" ++ name] ++ expansion.envName.toList
  if texts.any (tooLong 100) then
    .error "value too long for type character varying(100)"
  else do
    match execution, getScriptConfig step with
    | .script, some config => integerColumn config.timeoutSeconds
    | _, _ => .ok ()
    reviewRequired step

def ExecutionType.text : ExecutionType → String
  | .agent => "agent"
  | .script => "script"
  | .action _ => "action"

def stepTitle (execution : ExecutionType) (name : String) : String :=
  match execution with
  | .agent => "[Agent] " ++ name
  | .script => "[Script] " ++ name
  | .action _ => "[Action] " ++ name

def stepJob (ids : NewIds) (index : Nat) (name : String) (execution : ExecutionType) (review : Jobs.ReviewRequired) :
    Job where
  id := ids.jobId index
  projectId := expansion.projectId
  title := stepTitle execution name
  labels := ["pipeline:" ++ expansion.request.pipelineName, "run:" ++ ids.runId,
    "step:" ++ name, "execution:" ++ execution.text]
  phase := .ready
  priority := min index 4
  reviewRequired := review
  hints := { stepName := some name, stepIndex := some index }
  executionType := some execution.text
  runId := some ids.runId
  stepName := some name
  actorUserId := expansion.userId

def createJobs (expansion : Expansion) (ids : NewIds) :
    List (PipelineStep × Nat) → List (String × JobId) → PipelineCall (List (String × JobId))
  | [], created => .ret created
  | (step, index) :: rest, created => do
    let execution ← .ofExcept (planExecution catalog expansion index step)
    -- `generateJobId`.
    select fun _ => ()
    Call.ofExcept (planTokens catalog expansion index step)
    let name := stepName index step
    let review ← .ofExcept (jobColumns expansion name execution step)
    let job ← insertJob (stepJob expansion ids index name execution review)
    createJobs expansion ids rest (created ++ [(name, job.id)])

variable (created : List (String × JobId))

def jobNamed (name : String) : Option JobId := created.reverse.lookup name

def addDependency (fromId toId : JobId) : PipelineCall Unit := do
  let fromJob ← select fun db => db.jobs.findJob fromId
  let toJob ← select fun db => db.jobs.findJob toId
  if fromJob.isNone then .raise ("Job not found: " ++ fromId)
  else if toJob.isNone then .raise ("Job not found: " ++ toId)
  else
    .stmt (.insertRelation ⟨fromId, toId, .blocks⟩) fun _ =>
      if fromId = toId then
        .raise ("new row for relation \"job_relations\" violates check constraint " ++ "\"no_self_reference\"")
      else .ret ()

def relateDependency (name : String) (jobId : JobId) (depName : String) : PipelineCall Unit :=
  match jobNamed created depName with
  | none => .raise ("Step \"" ++ name ++ "\" depends on unknown step \"" ++ depName ++ "\"")
  | some depJobId => addDependency jobId depJobId

def relateStep (entry : PipelineStep × Nat) : PipelineCall Unit :=
  let name := stepName entry.2 entry.1
  match jobNamed created name with
  | none => .ret ()
  | some jobId =>
    Call.forEach (entry.1.dependsOn.getD []) (relateDependency created name jobId)

def newRun (projectId : String) (request : ExpandPipelineRequest) (manifest : Manifest)
    (envName : Option String) (ids : NewIds) : PipelineRun where
  id := ids.runId
  projectId := projectId
  pipelineName := request.pipelineName
  envName := envName
  gitSha := request.gitSha
  manifestHash := some manifest.manifestHash
  inputs := request.inputs
  status := .pending
  completedAt := none
  errorMessage := none
  runMode := some "jobs"
  dedupeKey := request.dedupeKey
  createdAt := 0

def resolveProject (projectId : String) : Except String String :=
  match catalog.findById projectId with
  | some _ => .ok projectId
  | none =>
    match catalog.findBySlug projectId with
    | none => .error ("Project " ++ projectId ++ " not found")
    | some project => .ok project.id

structure Resolved where
  projectId : String
  manifest : Manifest
  pipeline : PipelineDefinition
  pipelineToolchains : Option (List String)

def resolvePipeline (projectId : String) (request : ExpandPipelineRequest) : Except String Resolved := do
  let projectId ← resolveProject catalog projectId
  match catalog.manifestFor projectId request.gitSha with
  | none => .error ("No manifest synced for project " ++ projectId)
  | some manifest => do
    let pipeline ← getPipelineFromManifest "No pipelines defined in manifest"
      ("Pipeline \"" ++ request.pipelineName ++ "\" not found in manifest") manifest
      request.pipelineName
    let path := "Pipeline \"" ++ request.pipelineName ++ "\""
    let pipelineToolchains ← parseToolchains catalog.validToolchains (path ++ ".toolchains")
      pipeline.toolchains
    let _ ← parseEnvOverrides (path ++ ".env_overrides") pipeline.envOverrides
    return { projectId, manifest, pipeline, pipelineToolchains }

def startExpansion (resolved : Resolved) (request : ExpandPipelineRequest)
    (userId : Option String) : Except String Expansion := do
  let path := "Pipeline \"" ++ request.pipelineName ++ "\""
  let tokenScope ← parseTokenScope (path ++ ".scope") resolved.pipeline.scope
  let tokenPermissions ← parseTokenPermissions catalog.isValidPermission
    (path ++ ".permissions") resolved.pipeline.permissions
  if (catalog.findById resolved.projectId).isNone then
    .error ("Project " ++ resolved.projectId ++ " not found")
  else
    return { projectId := resolved.projectId
             request := request
             envName := request.envName <|> resolved.pipeline.env
             userId := userId
             pipelineToolchains := resolved.pipelineToolchains
             tokenScope := tokenScope
             tokenPermissions := tokenPermissions }

def createRunWithJobs (resolved : Resolved) (request : ExpandPipelineRequest)
    (userId : Option String) (ids : NewIds) (steps : List PipelineStep) : PipelineCall Unit := do
  let envName := request.envName <|> resolved.pipeline.env
  let _ ← insertRun (newRun resolved.projectId request resolved.manifest envName ids)
  let expansion ← .ofExcept (startExpansion catalog resolved request userId)
  let created ← createJobs catalog expansion ids steps.zipIdx []
  Call.forEach steps.zipIdx (relateStep created)

variable (projectId : String)

def expandPipeline (request : ExpandPipelineRequest) (userId : Option String) (ids : NewIds) : PipelineCall Unit := do
  select fun _ => ()
  let resolved ← .ofExcept (resolvePipeline catalog projectId request)
  match truthy request.dedupeKey with
  | none => pure ()
  | some dedupeKey => expanderCancelExisting dedupeKey
  let steps ← .ofExcept (planSteps resolved.pipeline request)
  createRunWithJobs catalog resolved request userId ids steps

structure PipelineRunRequest where
  env : Option String := none
  ref : Option String := none
  inputs : Option String := none

def checkRun (pipelineName : String) (request : PipelineRunRequest) : Except String Unit := do
  if (catalog.findById projectId).isNone then .error ("Project " ++ projectId ++ " not found")
  match catalog.manifestFor projectId request.ref with
  | none => .error ("No manifest synced for project " ++ projectId)
  | some manifest => do
    let pipeline ← getPipelineFromManifest ("No pipelines defined for project " ++ projectId)
      ("Pipeline \"" ++ pipelineName ++ "\" not found for project " ++ projectId) manifest
      pipelineName
    if (pipeline.steps.getD []) = [] then
      .error ("Pipeline \"" ++ pipelineName ++ "\" has no steps")
    else .ok ()

def PipelineRunRequest.expanded (request : PipelineRunRequest) (pipelineName : String)
    (dedupeKey : Option String) : ExpandPipelineRequest where
  pipelineName := pipelineName
  envName := request.env
  gitSha := request.ref
  inputs := request.inputs
  dedupeKey := dedupeKey

def createRunAsJobs (pipelineName : String) (request : PipelineRunRequest) (dedupeKey : Option String) (ids : NewIds) :
    PipelineCall Unit := do
  match truthy dedupeKey with
  | none => pure ()
  | some dedupeKey => serviceCancelExisting catalog dedupeKey
  expandPipeline catalog projectId (request.expanded pipelineName dedupeKey) none ids

def createRun (pipelineName : String) (request : PipelineRunRequest) (dedupeKey : Option String) (ids : NewIds) :
    PipelineCall Unit := do
  select fun _ => ()
  Call.ofExcept (checkRun catalog projectId pipelineName request)
  createRunAsJobs catalog projectId pipelineName request dedupeKey ids

inductive PipelineOperation where
  | createRun (projectId pipelineName : String) (request : PipelineRunRequest)
      (dedupeKey : Option String) (ids : NewIds)
  | expandPipeline (projectId : String) (request : ExpandPipelineRequest)
      (userId : Option String) (ids : NewIds)
  | passTime (elapsed : Nat)

def PipelineOperation.call : PipelineOperation → PipelineCall Unit
  | .createRun projectId pipelineName request dedupeKey ids =>
    Pipelines.createRun catalog projectId pipelineName request dedupeKey ids
  | .expandPipeline projectId request userId ids =>
    Pipelines.expandPipeline catalog projectId request userId ids
  | .passTime elapsed => .perform (.jobs (.passTime elapsed)) fun _ => ()

def runPipelines (db : PipelineDb) (schedule : List (Choice PipelineOperation)) :
    System PipelineStatement PipelineDb String Unit :=
  System.run (fun _ operation => operation.call catalog) db schedule

end EveHorizon.Pipelines
