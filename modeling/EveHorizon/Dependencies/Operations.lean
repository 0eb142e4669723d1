import EveHorizon.Dependencies.BatchGraph
import EveHorizon.Dependencies.PipelineGraph
import EveHorizon.Dependencies.WorkflowGraph

/-!
# Operations on the graph of jobs

What the API offers to create jobs and to relate them.
-/

namespace EveHorizon.Dependencies

open Batches (BatchDb CreateBatchRequest)
open Interleaving
open Jobs (JobId Job JobRelation JobsDb JobStatement RelationType)
open Pipelines (ExpandPipelineRequest NewIds PipelineDb PipelineRun PipelineStepRun)
open Precedence (Acyclic)
open Workflows (Project RootIds WorkflowCall WorkflowInvokeRequest WorkflowRetryRequest WorkflowStatement)

/-- The tables that the API relates jobs in. -/
structure ApiDb where
  store : BatchDb := {}
  runs : List PipelineRun := []
  stepRuns : List PipelineStepRun := []

variable (db : ApiDb)

def ApiDb.jobs : JobsDb := db.store.jobs

def ApiDb.pipelines : PipelineDb :=
  { jobs := db.store.jobs, runs := db.runs, stepRuns := db.stepRuns }

def ApiDb.withJobs (jobs : JobsDb) : ApiDb :=
  { db with store := { db.store with jobs } }

def ApiDb.withPipelines (pipelines : PipelineDb) : ApiDb where
  store := { db.store with jobs := pipelines.jobs }
  runs := pipelines.runs
  stepRuns := pipelines.stepRuns

structure AddDependencyRequest where
  relatedJobId : JobId
  relationType : Option String := none

def validRelationType (text : String) : Option RelationType :=
  [("blocks", .blocks), ("conditional_blocks", .conditionalBlocks), ("waits_for", .waitsFor),
    ("related", .related), ("discovered_from", RelationType.discoveredFrom)].lookup text

def AddDependencyRequest.type (data : AddDependencyRequest) : String := data.relationType.getD "blocks"

def relationRow (fromId toId : JobId) (relationType : String) : Except Workflows.Failure JobRelation :=
  if Pipelines.tooLong 30 relationType then
    .error (.error "value too long for type character varying(30)")
  else if fromId = toId then
    .error (.error ("new row for relation \"job_relations\" violates check constraint " ++ "\"no_self_reference\""))
  else
    match validRelationType relationType with
    | none => .error (.error ("new row for relation \"job_relations\" violates check constraint " ++
        "\"valid_relation_type\""))
    | some type => .ok ⟨fromId, toId, type⟩

def addDependency (jobId : JobId) (data : AddDependencyRequest) : WorkflowCall String := do
  let fromJob ← Workflows.select (·.findJob jobId)
  let toJob ← Workflows.select (·.findJob data.relatedJobId)
  if fromJob.isNone then .raise (.error ("Job not found: " ++ jobId))
  else if toJob.isNone then .raise (.error ("Job not found: " ++ data.relatedJobId))
  else do
    let relation ← .ofExcept (relationRow jobId data.relatedJobId data.type)
    .perform (.insertRelation relation) fun _ => ()
    return "Added dependency: " ++ jobId ++ " depends on " ++ data.relatedJobId

/-- A call with what it reads besides the tables. A new job is any that its own call may insert, and
other statements are those that move jobs along between the calls. -/
inductive Operation where
  | create (job : Job)
  | addDependency (jobId : JobId) (data : AddDependencyRequest)
  | createBatch (projects : List Project) (rootIds : RootIds) (newBatchId : BatchDb → String)
      (request : CreateBatchRequest) (projectId : String) (correlationId userId : Option String)
  | invoke (catalog : Workflows.Catalog) (rootIds : RootIds) (projectId workflowName : String)
      (request : WorkflowInvokeRequest) (userId : Option String) (wait : Option Nat)
  | retry (projects : List Project) (projectId : String) (request : WorkflowRetryRequest)
      (userId : Option String)
  | expandPipeline (catalog : Pipelines.Catalog) (projectId : String)
      (request : ExpandPipelineRequest) (userId : Option String) (ids : NewIds)
  | other (stmt : JobStatement)

def next : Operation → ApiDb
  | .create job => db.withJobs ((Workflows.create job).alone db.jobs).2
  | .addDependency jobId data => db.withJobs ((addDependency jobId data).alone db.jobs).2
  | .createBatch projects rootIds newBatchId request projectId correlationId userId =>
    { db with store := ((Batches.createBatch projects rootIds newBatchId request projectId
        correlationId userId).alone db.store).2 }
  | .invoke catalog rootIds projectId workflowName request userId wait =>
    db.withJobs ((Workflows.invoke catalog rootIds projectId workflowName request userId wait).alone db.jobs).2
  | .retry projects projectId request userId =>
    db.withJobs (Workflows.retry projects projectId request userId db.jobs).2
  | .expandPipeline catalog projectId request userId ids =>
    db.withPipelines ((Pipelines.expandPipeline catalog projectId request userId ids).alone db.pipelines).2
  | .other stmt => db.withJobs (stmt.effect db.jobs)

end EveHorizon.Dependencies
