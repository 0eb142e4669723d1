import EveHorizon.Pipelines.Runs
import EveHorizon.Jobs.ClosedJobs

/-!
# Status of a run

The orchestrator derives the status of a run from the phases and the close reasons of its
jobs, by a count and an update that are separate statements.
-/

namespace EveHorizon.Pipelines

open Interleaving
open Jobs (JobId Timestamp Job JobsDb JobStatement JobOperation Phase)

def neutralReasons : List String := ["cancelled", "Job cancelled"]

def countsAsFailed (job : Job) : Bool :=
  job.phase == .cancelled && job.closeReason.any (!neutralReasons.contains ·)

def started (job : Job) : Bool := [Phase.active, .review, .done, .cancelled].contains job.phase

structure JobCounts where
  total : Nat
  done : Nat
  cancelled : Nat
  failed : Nat
  started : Nat

namespace PipelineDb

variable (db : PipelineDb)

def jobsOfRun (id : RunId) : List Job := db.jobs.jobs.filter (·.runId == some id)

def countJobs (id : RunId) : JobCounts :=
  let jobs := db.jobsOfRun id
  { total := jobs.length
    done := (jobs.filter (·.phase == .done)).length
    cancelled := (jobs.filter (·.phase == .cancelled)).length
    failed := (jobs.filter countsAsFailed).length
    started := (jobs.filter started).length }

def firstFailedJob (id : RunId) : Option Job :=
  (((db.jobsOfRun id).filter countsAsFailed).insertionSort fun first second =>
    second.closedAt.isNone ∨ first.closedAt.any fun time => second.closedAt.all (time ≤ ·)).head?

def startRun (run : PipelineRun) : PipelineRun :=
  { run with status := .running, startedAt := some db.jobs.now }

def finishRun (status : RunStatus) (startedAt : Option Timestamp) (errorMessage : Option String) (run : PipelineRun) :
    PipelineRun :=
  { run with
    status
    startedAt := some (startedAt.getD db.jobs.now)
    completedAt := some db.jobs.now
    errorMessage := errorMessage <|> run.errorMessage }

end PipelineDb

inductive RunStatement where
  | pipeline (stmt : PipelineStatement)
  | skipConditional (jobId : JobId)
  | countJobs (id : RunId)
  -- `updateRun` with the status `running`.
  | startRun (id : RunId)
  -- `updateRun` with the status `failed` or `succeeded`.
  | finishRun (id : RunId) (status : RunStatus) (startedAt : Option Timestamp)
      (errorMessage : Option String)

def RunStatement.effect : RunStatement → PipelineDb → PipelineDb
  | .pipeline stmt, db => stmt.effect db
  | .skipConditional jobId, db =>
    { db with jobs := Jobs.SchedulerStatement.effect (.skipConditional jobId) db.jobs }
  | .countJobs _, db => db
  | .startRun id, db => { db with runs := Table.updateWhere (·.id == id) db.startRun db.runs }
  | .finishRun id status startedAt errorMessage, db =>
    { db with
      runs := Table.updateWhere (·.id == id) (db.finishRun status startedAt errorMessage) db.runs }

instance : Statement RunStatement PipelineDb where
  ready _ _ := true
  effect := RunStatement.effect

abbrev RunCall := Call RunStatement PipelineDb String

def onPipeline {α : Type} (call : PipelineCall α) : RunCall α := call.lift .pipeline id

def failureMessage (failedJob : Option Job) : String :=
  (failedJob.bind (·.closeReason)).getD "One or more pipeline jobs failed"

variable (runId : RunId)

def finalise (run : PipelineRun) (failed : Nat) : RunCall Unit := do
  if failed > 0 then
    let failedJob ← onPipeline (select fun db => db.firstFailedJob runId)
    .perform (.finishRun runId .failed run.startedAt (some (failureMessage failedJob)))
      fun _ => ()
    let _ ← onPipeline (select fun db => db.findRunById runId)
    return ()
  else
    .perform (.finishRun runId .succeeded run.startedAt none) fun _ => ()

def syncPipelineRunStatus : RunCall Unit := do
  match ← onPipeline (select fun db => db.findRunById runId) with
  | none => return ()
  | some run =>
    if run.runMode ≠ some "jobs" then return ()
    else if run.status.terminal then return ()
    else
      let counts ← .perform (.countJobs runId) fun db => db.countJobs runId
      if counts.total = 0 then return ()
      else
        if run.status = .pending ∧ counts.started > 0 then
          .perform (.startRun runId) fun _ => ()
        if counts.done + counts.cancelled = counts.total then finalise runId run counts.failed
        else return ()

def mapJobPhaseToStepStatus : Phase → StepStatus
  | .idea | .backlog | .ready => .pending
  | .active => .running
  | .review => .blocked
  | .done => .succeeded
  | .cancelled => .cancelled

def cancelledIsFailure (job : Job) : Bool :=
  job.phase == .cancelled && (job.closeReason.filter (· ≠ "")).any (!neutralReasons.contains ·)

structure StepResponse where
  id : JobId
  pipelineRunId : RunId
  stepIndex : Nat
  stepName : String
  status : StepStatus
  startedAt : Option Timestamp
  completedAt : Option Timestamp
  errorMessage : Option String
  createdAt : Timestamp
  updatedAt : Timestamp

def stepStatus (job : Job) : StepStatus :=
  if cancelledIsFailure job then .failed else mapJobPhaseToStepStatus job.phase

def jobToStepResponse (job : Job × Nat) : StepResponse :=
  let status := stepStatus job.1
  { id := job.1.id
    pipelineRunId := runId
    stepIndex := job.2
    stepName := job.1.stepName.getD job.1.title
    status := status
    startedAt :=
      if [StepStatus.running, .succeeded, .failed, .cancelled].contains status then
        some job.1.updatedAt
      else none
    completedAt := job.1.closedAt
    errorMessage := if status = .failed ∨ status = .cancelled then job.1.closeReason else none
    createdAt := job.1.createdAt
    updatedAt := job.1.updatedAt }

def isReported (run : PipelineRun) (job : Job) : Bool :=
  job.projectId == run.projectId && job.labels.contains ("run:" ++ run.id)

def PipelineDb.listJobsForRun (db : PipelineDb) (run : PipelineRun) : List Job :=
  (db.jobs.jobs.filter (isReported run)).insertionSort fun first second =>
    first.priority ≤ second.priority

inductive RunOperation where
  | syncPipelineRunStatus (runId : RunId)
  | cancelRun (runId : RunId) (reason : Option String)
  | job (operation : JobOperation)
  | skipConditionalJob (jobId : JobId)

def RunOperation.call (catalog : Catalog) : RunOperation → RunCall Unit
  | .syncPipelineRunStatus runId => Pipelines.syncPipelineRunStatus runId
  | .cancelRun runId reason => onPipeline (Pipelines.cancelRun catalog runId reason)
  | .job operation => do
    let _ ← onPipeline (onJobs operation.call)
    return ()
  | .skipConditionalJob jobId => .perform (.skipConditional jobId) fun _ => ()

def runRuns (catalog : Catalog) (db : PipelineDb) (schedule : List (Choice RunOperation)) :
    System RunStatement PipelineDb String Unit :=
  System.run (fun _ operation => operation.call catalog) db schedule

end EveHorizon.Pipelines
