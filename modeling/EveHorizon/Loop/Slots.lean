import EveHorizon.Jobs.Tables
import EveHorizon.Library.Machine
import Mathlib.Data.List.AList

/-!
# Concurrency slots

The limiter of the orchestrator, the map of dispatches in flight, and what acquires and
releases slots: the claim loop of `tick`, the ends of dispatches and pipelines, and the
sweeps that recover a dispatch by force. A step runs from one `await` to the next; what the
awaited query answers is part of the event.
-/

namespace EveHorizon.Loop

open Machine
open Jobs (JobId Timestamp)

structure ConcurrencyLimiter where
  inFlight : Int := 0
  limit : Int
  positive : 1 ≤ limit

namespace ConcurrencyLimiter

def new (limit : Int) : Except String ConcurrencyLimiter :=
  if positive : 1 ≤ limit then .ok { limit, positive }
  else .error "Concurrency limit must be >= 1"

variable (limiter : ConcurrencyLimiter)

def hasCapacity : Bool := decide (limiter.inFlight < limiter.limit)

def tryAcquire : Option ConcurrencyLimiter :=
  if limiter.limit ≤ limiter.inFlight then none
  else some { limiter with inFlight := limiter.inFlight + 1 }

def release (limiter : ConcurrencyLimiter) : Except String ConcurrencyLimiter :=
  if limiter.inFlight ≤ 0 then
    .error "ConcurrencyLimiter: release called with no in-flight tasks"
  else .ok { limiter with inFlight := limiter.inFlight - 1 }

def setLimit (newLimit : Int) : Except String ConcurrencyLimiter :=
  if positive : 1 ≤ newLimit then .ok { limiter with limit := newLimit, positive }
  else .error "Concurrency limit must be >= 1"

end ConcurrencyLimiter

/-- Where the tick in progress waits: in its sweeps, or for the answer of a claim. -/
inductive TickStage where
  | idle | sweeping | claimingPipeline | claimingJob | claimingAssignedJob
  deriving DecidableEq

def TickStage.holding : TickStage → Bool
  | .idle | .sweeping => false
  | _ => true

structure Dispatch where
  id : Nat
  jobId : JobId
  recovered : Bool := false
  deriving DecidableEq

structure Orchestrator where
  limiter : ConcurrencyLimiter
  inFlightJobs : AList fun _ : JobId => Timestamp := ∅
  stage : TickStage := .idle
  tickRerunRequested : Bool := false
  stopping : Bool := false
  pipelines : List String := []
  dispatches : List Dispatch := []
  -- Dispatches are numbered in the order in which they start.
  dispatched : Nat := 0

namespace Orchestrator

variable (loop : Orchestrator)

def requestTick : Orchestrator :=
  if loop.stopping then loop
  else if loop.stage = .idle then { loop with stage := .sweeping, tickRerunRequested := false }
  else { loop with tickRerunRequested := true }

def endTick : Orchestrator :=
  if loop.tickRerunRequested && !loop.stopping then
    { loop with stage := .sweeping, tickRerunRequested := false }
  else { loop with stage := .idle }

def throwTick : Orchestrator := { loop with stage := .idle }

def acquire (stage : TickStage) : Orchestrator :=
  match loop.limiter.tryAcquire with
  | some limiter => { loop with limiter, stage }
  | none => loop.endTick

def claimLoop : Orchestrator :=
  if loop.limiter.hasCapacity && !loop.stopping then loop.acquire .claimingPipeline
  else loop.endTick

def releaseHeld (next : Orchestrator → Orchestrator) : Orchestrator :=
  match loop.limiter.release with
  | .error _ => loop.throwTick
  | .ok limiter => next { loop with limiter }

def dispatchPipeline (run : String) : Orchestrator :=
  { loop with pipelines := run :: loop.pipelines }

variable (jobId : JobId)

def dispatchJob (now : Timestamp) : Orchestrator :=
  { loop with
    inFlightJobs := loop.inFlightJobs.insert jobId now
    dispatches := { id := loop.dispatched, jobId } :: loop.dispatches
    dispatched := loop.dispatched + 1 }

def wakeLoop : Orchestrator :=
  if loop.limiter.hasCapacity && !loop.stopping then loop.requestTick else loop

def releaseAndWake : Orchestrator :=
  match loop.limiter.release with
  | .error _ => loop
  | .ok limiter => { loop with limiter }.wakeLoop

def endPipeline (run : String) : Orchestrator :=
  if run ∈ loop.pipelines then
    { loop with pipelines := loop.pipelines.erase run }.releaseAndWake
  else loop

def endDispatch (dispatch : Dispatch) : Orchestrator :=
  if dispatch ∈ loop.dispatches then
    let ended := { loop with
      inFlightJobs := loop.inFlightJobs.erase dispatch.jobId
      dispatches := loop.dispatches.erase dispatch }
    if dispatch.jobId ∈ loop.inFlightJobs then ended.releaseAndWake else ended.wakeLoop
  else loop

def recoverDispatches : List Dispatch :=
  loop.dispatches.map fun dispatch =>
    if dispatch.jobId = jobId then { dispatch with recovered := true } else dispatch

/-- `releaseInFlightDispatchForWatchdog`, also inlined in
`recoverActiveJobsWithTerminatedAttempts`; a refused release is logged. -/
def releaseInFlightDispatchForWatchdog : Orchestrator :=
  match loop.inFlightJobs.lookup jobId with
  | none => loop
  | some _ =>
    let recovered := { loop with
      inFlightJobs := loop.inFlightJobs.erase jobId
      dispatches := loop.recoverDispatches jobId }
    match loop.limiter.release with
    | .error _ => recovered
    | .ok limiter => { recovered with limiter }

/-- The head of the loop body of `recoverCompletedAttempts`: a dispatch younger than half a
minute keeps its slot. -/
def forceRecover (now : Timestamp) : Orchestrator :=
  match loop.inFlightJobs.lookup jobId with
  | none => loop
  | some dispatchStart =>
    if now - dispatchStart < 30000 then loop
    else loop.releaseInFlightDispatchForWatchdog jobId

def setConcurrency (newLimit : Int) : Orchestrator :=
  match loop.limiter.setLimit newLimit with
  | .error _ => loop
  | .ok limiter => { loop with limiter }

end Orchestrator

abbrev Claimed := Except String (Option String)

inductive LoopEvent where
  | requestTick
  | sweepsDone
  | sweepsThrew
  | pipelineClaimed (claimed : Claimed)
  | jobClaimed (claimed : Claimed) (now : Timestamp)
  | assignedJobClaimed (claimed : Claimed) (now : Timestamp)
  | pipelineEnded (run : String)
  | dispatchEnded (dispatch : Dispatch)
  | releaseInFlightDispatchForWatchdog (jobId : JobId)
  | forceRecover (jobId : JobId) (now : Timestamp)
  | setConcurrency (newLimit : Int)
  | stopClaiming
  deriving DecidableEq

open Orchestrator in
def LoopEvent.step (event : LoopEvent) (loop : Orchestrator) : Orchestrator :=
  match event, loop.stage with
  | .requestTick, _ => loop.requestTick
  | .sweepsDone, .sweeping => if loop.stopping then loop.endTick else loop.claimLoop
  | .sweepsThrew, .sweeping => loop.throwTick
  | .pipelineClaimed (.error _), .claimingPipeline => loop.throwTick
  | .pipelineClaimed (.ok (some run)), .claimingPipeline => (loop.dispatchPipeline run).claimLoop
  | .pipelineClaimed (.ok none), .claimingPipeline =>
    loop.releaseHeld fun released => released.acquire .claimingJob
  | .jobClaimed (.error _) _, .claimingJob => loop.throwTick
  | .jobClaimed (.ok (some jobId)) now, .claimingJob => (loop.dispatchJob jobId now).claimLoop
  | .jobClaimed (.ok none) _, .claimingJob => { loop with stage := .claimingAssignedJob }
  | .assignedJobClaimed (.error _) _, .claimingAssignedJob => loop.throwTick
  | .assignedJobClaimed (.ok (some jobId)) now, .claimingAssignedJob =>
    (loop.dispatchJob jobId now).claimLoop
  | .assignedJobClaimed (.ok none) _, .claimingAssignedJob => loop.releaseHeld endTick
  | .pipelineEnded run, _ => loop.endPipeline run
  | .dispatchEnded dispatch, _ => loop.endDispatch dispatch
  | .releaseInFlightDispatchForWatchdog jobId, _ =>
    loop.releaseInFlightDispatchForWatchdog jobId
  | .forceRecover jobId now, _ => loop.forceRecover jobId now
  | .setConcurrency newLimit, _ => loop.setConcurrency newLimit
  | .stopClaiming, _ => { loop with stopping := true }
  | _, _ => loop

def slotMoves (limiter : ConcurrencyLimiter) (events : List LoopEvent) : List (Move LoopEvent Orchestrator) :=
  moves LoopEvent.step events { limiter }

end EveHorizon.Loop
