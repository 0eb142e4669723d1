import EveHorizon.Library.Solo
import EveHorizon.Workflows.Invocation

/-!
# Retrying a workflow

A retry clones selected steps of a workflow whose steps have all ended, relates the clones as the
steps were related, and supersedes the steps.
-/

namespace EveHorizon.Workflows

open Interleaving
open Jobs (JobId Phase Job JobRelation JobsDb)
open Pipelines (truthy)

structure WorkflowRetryRequest where
  rootJobId : JobId
  failed : Bool := false
  fromStep : Option String := none

inductive RetryMode where
  | failed | from

variable (request : WorkflowRetryRequest)

def WorkflowRetryRequest.mode : RetryMode :=
  if request.failed then .failed else .from

def isWorkflowRoot (job : Job) : Bool := job.hints.workflowRoot

def isSupersededWorkflowStep (job : Job) : Bool := job.hints.workflowRetrySupersededBy.isSome

def JobsDb.childrenByAge (db : JobsDb) (parentId : JobId) : List Job :=
  (JobsDb.children db parentId).insertionSort fun left right =>
    left.createdAt < right.createdAt ∨ (left.createdAt = right.createdAt ∧ left.id ≤ right.id)

def JobsDb.dependenciesAmong (db : JobsDb) (jobIds : List JobId) : List JobRelation :=
  db.relations.filter fun relation =>
    jobIds.contains relation.jobId && relation.relationType.blocking

def describeOpen (job : Job) : String :=
  job.stepName.getD job.id ++ " (" ++ job.id ++ ": " ++ job.phase.text ++ ")"

def repeatedStep : List String → List Job → Option String
  | _, [] => none
  | seen, child :: rest =>
    match child.stepName with
    | none => repeatedStep seen rest
    | some name =>
      if name = "" then repeatedStep seen rest
      else if seen.contains name then some name
      else repeatedStep (seen ++ [name]) rest

def selectDependents (relations : List JobRelation) : Nat → List JobId → List JobId → List JobId
  | 0, _, selected => selected
  | _, [], selected => selected
  | rounds + 1, current :: queue, selected =>
    let dependents := (relations.filter (·.relatedJobId == current)).map (·.jobId)
    let fresh := (dependents.filter fun jobId => !selected.contains jobId).eraseDups
    selectDependents relations rounds (queue ++ fresh) (selected ++ fresh)

def selectWorkflowRetrySteps (currentChildren : List Job) (relations : List JobRelation) :
    Except Failure (List JobId) :=
  match request.mode with
  | .failed =>
    let failed := currentChildren.filter fun job =>
      job.failureDisposition == some .failed || job.failureDisposition == some .upstreamFailed
    if failed = [] then
      .error (.badRequest "Workflow has no failed or upstream-failed current steps to retry")
    else .ok (failed.map (·.id))
  | .from =>
    match truthy request.fromStep with
    | none => .error (.badRequest "from_step is required for workflow retry from mode")
    | some fromStep =>
      match currentChildren.find? (·.stepName == some fromStep) with
      | none => .error (.badRequest ("Workflow has no current step named \"" ++ fromStep ++ "\". Available steps: " ++
          ", ".intercalate (currentChildren.map fun job => job.stepName.getD job.id)))
      | some start => .ok (selectDependents relations (relations.length + 1) [start.id] [start.id])

def checkDependency (rootId : JobId) (currentChildren : List Job) (selected : List JobId)
    (relation : JobRelation) : Except Failure Unit :=
  if selected.contains relation.relatedJobId then .ok ()
  else
    match currentChildren.find? (·.id == relation.relatedJobId) with
    | none => .error (.badRequest ("Cannot retry workflow " ++ rootId ++ ": step " ++ relation.jobId ++
        " depends on non-current job " ++ relation.relatedJobId))
    | some dependency =>
      if dependency.phase = .done then .ok ()
      else .error (.badRequest ("Cannot retry workflow " ++ rootId ++ ": dependency " ++
        dependency.stepName.getD dependency.id ++ " (" ++ dependency.id ++ ") is " ++
        dependency.phase.text ++ ", not done"))

def nextRetryGeneration (children : List Job) : Nat :=
  (children.filterMap (·.hints.workflowRetryGeneration)).foldl max 0 + 1

structure RetryPlan where
  selected : List Job
  relations : List JobRelation
  generation : Nat

def planRetry (root : Job) (allChildren : List Job) (relationsOf : List JobId → List JobRelation) :
    Except Failure RetryPlan := do
  let currentChildren := allChildren.filter fun job => !isSupersededWorkflowStep job
  if currentChildren = [] then
    .error (.badRequest ("Workflow root " ++ root.id ++ " has no current step jobs to retry"))
  let openChildren := currentChildren.filter fun job => !job.phase.terminal
  if openChildren ≠ [] then
    .error (.badRequest ("Cannot retry workflow " ++ root.id ++
      " while current steps are not terminal: " ++ ", ".intercalate (openChildren.map describeOpen)))
  let relations := relationsOf (currentChildren.map (·.id))
  match repeatedStep [] currentChildren with
  | some name => .error (.badRequest ("Workflow " ++ root.id ++
      " has multiple current jobs for step \"" ++ name ++ "\"; cannot retry safely"))
  | none =>
    let selected ← selectWorkflowRetrySteps request currentChildren relations
    selected.forM fun sourceId =>
      (relations.filter (·.jobId == sourceId)).forM
        (checkDependency root.id currentChildren selected)
    return {
      selected := currentChildren.filter fun job => selected.contains job.id
      relations
      generation := nextRetryGeneration allChildren }

def retryStepAssignee (source : Job) : Option String :=
  if source.executionType = some "agent" then source.assignee else none

def withRetryLabels (labels : List String) (sourceJobId : JobId) (generation : Nat) : List String :=
  (labels ++ ["workflow-retry", "retry-generation:" ++ toString generation, "retry-of:" ++ sourceJobId]).eraseDups

def retryStep (rootId : JobId) (generation : Nat) (userId : Option String) (retryJobId : JobId)
    (source : Job) : Job where
  id := retryJobId
  projectId := source.projectId
  parentId := some rootId
  depth := source.depth
  title := source.title ++ " [retry " ++ toString generation ++ "]"
  labels := withRetryLabels source.labels source.id generation
  phase := .ready
  priority := source.priority
  assignee := retryStepAssignee source
  reviewRequired := source.reviewRequired
  reviewer := source.reviewer
  hints := { source.hints with
    workflowRetrySupersededBy := none
    workflowRetrySupersededGeneration := none
    workflowRetryGeneration := some generation
    workflowRetryOf := some source.id
    workflowRetryRoot := some rootId }
  executionType := source.executionType
  harness := source.harness
  harnessProfileSource := source.harnessProfileSource
  harnessProfileHash := source.harnessProfileHash
  runId := source.runId
  stepName := source.stepName
  actorUserId := userId <|> source.actorUserId

abbrev OldToNew : Type := List (JobId × JobId)

def OldToNew.get (oldToNew : OldToNew) (jobId : JobId) : Option JobId := oldToNew.reverse.lookup jobId

section

variable (projects : List Project)

def cloneSteps (root : Job) (generation : Nat) (userId : Option String) : List Job → OldToNew → WorkflowCall OldToNew
  | [], oldToNew => .ret oldToNew
  | source :: rest, oldToNew => do
    let retryJobId ← generateChildJobId projects root.projectId root.id
    let _ ← create (retryStep root.id generation userId retryJobId source)
    cloneSteps root generation userId rest (oldToNew ++ [(source.id, retryJobId)])

def relateClone (plan : RetryPlan) (oldToNew : OldToNew) (source : Job) : WorkflowCall Unit :=
  match oldToNew.get source.id with
  | none => .ret ()
  | some retryJobId => do
    Call.forEach (plan.relations.filter (·.jobId == source.id)) fun relation =>
      addDependency retryJobId ((oldToNew.get relation.relatedJobId).getD relation.relatedJobId)
        relation.relationType
    .perform (.supersede source.id retryJobId plan.generation) fun _ => ()

def replacementsJson (replacements : OldToNew) : String :=
  "\x7b" ++ ",".intercalate (replacements.map fun entry =>
    "\"" ++ entry.1 ++ "\":\"" ++ entry.2 ++ "\"") ++ "\x7d"

def RetryMode.text : RetryMode → String
  | .failed => "failed"
  | .from => "from"

variable (request : WorkflowRetryRequest)

def insertWorkflowRetryAudit (userId : Option String) (generation : Nat) (entityId action workflowRetryAction : String)
    (replacements : OldToNew) : WorkflowCall Unit :=
  .perform (.jobs (.insertAudit {
    entityType := "job"
    entityId
    action
    actor := userId.getD "workflow-retry"
    actorType := if userId.isSome then "user" else "system"
    changes := [("workflow_retry_generation", none, some (toString generation))]
    context := [("action", some workflowRetryAction), ("mode", some request.mode.text),
      ("from_step", request.fromStep), ("replacements", some (replacementsJson replacements))] }))
    fun _ => ()

structure WorkflowRetriedStep where
  stepName : String
  previousJobId : JobId
  retryJobId : JobId

structure WorkflowRetryResponse where
  rootJobId : JobId
  status : String
  mode : RetryMode
  fromStep : Option String
  generation : Nat
  retriedSteps : List WorkflowRetriedStep
  supersededJobIds : List JobId

def retryLocked (userId : Option String) : WorkflowCall WorkflowRetryResponse := do
  match ← select (·.findJob request.rootJobId) with
  | none => .raise (.notFound ("Workflow root job " ++ request.rootJobId ++ " not found"))
  | some lockedRoot =>
    if isWorkflowRoot lockedRoot = false then
      .raise (.badRequest ("Job " ++ lockedRoot.id ++ " is not a workflow root"))
    else do
      let allChildren ← select (JobsDb.childrenByAge · lockedRoot.id)
      let relationsOf ← select JobsDb.dependenciesAmong
      let plan ← .ofExcept (planRetry request lockedRoot allChildren relationsOf)
      let oldToNew ← cloneSteps projects lockedRoot plan.generation userId plan.selected []
      Call.forEach plan.selected (relateClone plan oldToNew)
      .perform (.reopenRoot lockedRoot.id plan.generation) fun _ => ()
      insertWorkflowRetryAudit request userId plan.generation lockedRoot.id "updated"
        "workflow_retry" oldToNew
      Call.forEach plan.selected fun source =>
        match oldToNew.get source.id with
        | none => .ret ()
        | some retryJobId => insertWorkflowRetryAudit request userId plan.generation retryJobId
            "created" "workflow_retry_created" [(source.id, retryJobId)]
      return {
        rootJobId := lockedRoot.id
        status := "active"
        mode := request.mode
        fromStep := request.fromStep
        generation := plan.generation
        retriedSteps := plan.selected.map fun source =>
          { stepName := source.stepName.getD source.id
            previousJobId := source.id
            retryJobId := (oldToNew.get source.id).getD "" }
        supersededJobIds := plan.selected.map (·.id) }

def checkRetry (projectId : String) (request : WorkflowRetryRequest) : WorkflowCall Unit := do
  match ← select fun db => (projects.find? (·.id == projectId), db.findJob request.rootJobId) with
  | (none, _) => .raise (.notFound ("Project " ++ projectId ++ " not found"))
  | (some _, none) =>
    .raise (.notFound ("Workflow root job " ++ request.rootJobId ++ " not found"))
  | (some _, some root) =>
    if root.projectId ≠ projectId then
      .raise (.badRequest ("Workflow root " ++ root.id ++ " belongs to project " ++ root.projectId ++
        ", not " ++ projectId))
    else if isWorkflowRoot root = false then
      .raise (.badRequest ("Job " ++ root.id ++ " is not a workflow root"))
    else .ret ()

def inTransaction {α : Type} (call : WorkflowCall α) (db : JobsDb) : Except Failure α × JobsDb :=
  match call.alone db with
  | (.ok value, reached) => (.ok value, reached)
  | (.error failure, _) => (.error failure, db)

def retry (projectId : String) (request : WorkflowRetryRequest) (userId : Option String)
    (db : JobsDb) : Except Failure WorkflowRetryResponse × JobsDb :=
  match (checkRetry projects projectId request).alone db with
  | (.error failure, checked) => (.error failure, checked)
  | (.ok _, checked) => inTransaction (retryLocked projects request userId) checked

end

end EveHorizon.Workflows
