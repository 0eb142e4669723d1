import EveHorizon.Jobs.Tables

/-!
# Job queries

`claim`, `release`, the review workflow, the terminal lifecycle and the scheduler
wrappers, statement by statement. A thrown error is an error of the call; a result
object with `success: false` is an ordinary value.
-/

namespace EveHorizon.Jobs

open Interleaving

structure ClaimResult where
  success : Bool
  attempt : Option JobAttempt := none
  error : Option String := none

structure ReleaseResult where
  success : Bool
  job : Option Job := none
  error : Option String := none

structure UpdatePhaseResult where
  success : Bool
  job : Option Job := none
  error : Option String := none

variable (jobId : JobId)

def findById : JobCall (Option Job) := select fun db => db.findJob jobId

def getCurrentAttempt : JobCall (Option JobAttempt) :=
  select fun db => db.latestAttempt jobId (· == .running)

def updatePhase (newPhase : Phase) : JobCall UpdatePhaseResult := do
  match ← findById jobId with
  | none => return { success := false, error := some ("Job not found: " ++ jobId) }
  | some currentJob =>
    let currentPhase := currentJob.phase
    if valid : canTransition currentPhase newPhase = true then
      if newPhase = .done ∧ currentJob.reviewRequired ≠ .none ∧ currentPhase ≠ .review then
        return { success := false, error := some ("Job requires review before completion. " ++
          "Current phase: " ++ currentPhase.text ++ ", must be in 'review' phase first.") }
      else
        match ← updateJobs (.phaseChanged jobId currentPhase newPhase valid) with
        | none => return { success := false, error := some ("Job " ++ jobId ++
            " changed phase during transition from " ++ currentPhase.text ++ " to " ++
            newPhase.text) }
        | some updatedJob => return { success := true, job := some updatedJob }
    else
      return { success := false, error := some ("Invalid phase transition: " ++
        currentPhase.text ++ " -> " ++ newPhase.text) }

variable (currentJob : Job)

def claimChanges (agentId : String) : List (String × Option String × Option String) :=
  [("phase", some currentJob.phase.text, some "active"), ("assignee", currentJob.assignee, some agentId)]

def claimPending (jobId : JobId) (agentId : String) (harness : Option String) (pendingAttempt : JobAttempt) :
    JobCall ClaimResult := do
  match ← updateAttempts (.startedPending pendingAttempt.id agentId harness
      currentJob.harnessProfileSource currentJob.harnessProfileHash) with
  | none => return { success := false, error := some ("Pending attempt was already claimed for job: " ++ jobId) }
  | some attempt =>
    let _ ← updateJobs (.claimed jobId agentId)
    insertAudit {
      entityType := "job", entityId := jobId, action := "updated"
      actor := agentId, actorType := "agent"
      changes := claimChanges currentJob agentId
      context := [("claim_attempt", some (toString attempt.id)),
        ("claim_mode", some "pending_attempt")] }
    insertAudit {
      entityType := "job_attempt", entityId := toString attempt.id, action := "updated"
      actor := agentId, actorType := "agent"
      changes := [("status", some "pending", some "running"),
        ("agent_id", pendingAttempt.agentId, some agentId),
        ("harness", pendingAttempt.harness, harness <|> pendingAttempt.harness)]
      context := [("job_id", some jobId)] }
    return { success := true, attempt := some attempt }

def claimReady (jobId : JobId) (agentId : String) (harness : Option String) : JobCall ClaimResult := do
  let count ← select fun db => db.attemptCount jobId
  let nextAttemptNumber := count + 1
  let attempt ← insertAttempt {
    jobId, attemptNumber := nextAttemptNumber, status := .running, triggerType := .manual
    harness, agentId := some agentId
    harnessProfileSource := currentJob.harnessProfileSource
    harnessProfileHash := currentJob.harnessProfileHash }
  let _ ← updateJobs (.claimed jobId agentId)
  insertAudit {
    entityType := "job", entityId := jobId, action := "updated"
    actor := agentId, actorType := "agent"
    changes := claimChanges currentJob agentId
    context := [("claim_attempt", some (toString attempt.id))] }
  insertAudit {
    entityType := "job_attempt", entityId := toString attempt.id, action := "created"
    actor := agentId, actorType := "agent"
    changes := [("attempt_number", none, some (toString nextAttemptNumber)),
      ("status", none, some "running")]
    context := [("job_id", some jobId)] }
  return { success := true, attempt := some attempt }

def claim (jobId : JobId) (agentId : String) (harness : Option String) : JobCall ClaimResult := do
  match ← findById jobId with
  | none => return { success := false, error := some ("Job not found: " ++ jobId) }
  | some currentJob =>
    if currentJob.phase ≠ .ready ∧ currentJob.phase ≠ .active then
      return { success := false, error := some ("Job must be in 'ready' or 'active' phase " ++
        "to claim (current: " ++ currentJob.phase.text ++ ")") }
    else
      match ← select fun db => db.latestAttempt jobId (· == .pending) with
      | some pendingAttempt => claimPending currentJob jobId agentId harness pendingAttempt
      | none =>
        if currentJob.phase ≠ .ready then
          return { success := false, error := some ("Job must be in 'ready' phase to claim " ++
            "(current: " ++ currentJob.phase.text ++ ")") }
        else
          claimReady currentJob jobId agentId harness

def release (jobId : JobId) (agentId : String) (reason : Option String) : JobCall ReleaseResult := do
  match ← findById jobId with
  | none => return { success := false, error := some ("Job not found: " ++ jobId) }
  | some currentJob =>
    if currentJob.phase ≠ .active then
      return { success := false, error := some ("Job must be in 'active' phase to release " ++
        "(current: " ++ currentJob.phase.text ++ ")") }
    else
      match ← getCurrentAttempt jobId with
      | none =>
        match ← updateJobs (.releasedIdle jobId) with
        | none => return { success := false, error := some ("No running attempt found for job: " ++ jobId) }
        | some requeuedJob =>
          insertAudit {
            entityType := "job", entityId := jobId, action := "updated"
            actor := agentId, actorType := "agent"
            changes := [("phase", some "active", some "ready"),
              ("assignee", currentJob.assignee, none)]
            context := [("reason", some (reason.getD "Job released by agent")),
              ("release_mode", some "no_running_attempt")] }
          return { success := true, job := some requeuedJob }
      | some currentAttempt =>
        let endedAttempt ← updateAttempts (.ended currentAttempt.id .cancelled
          (reason.getD "Job released by agent") rfl)
        let updatedJob ← updateJobs (.released jobId)
        match endedAttempt with
        | none => .raise "Cannot read properties of undefined (reading 'id')"
        | some endedAttempt =>
          insertAudit {
            entityType := "job_attempt", entityId := toString endedAttempt.id
            action := "updated", actor := agentId, actorType := "agent"
            changes := [("status", some "running", some "cancelled"),
              ("ended_at", none, endedAttempt.endedAt.map toString)]
            context := [("job_id", some jobId), ("reason", reason)] }
          insertAudit {
            entityType := "job", entityId := jobId, action := "updated"
            actor := agentId, actorType := "agent"
            changes := [("phase", some "active", some "ready"),
              ("assignee", currentJob.assignee, none)]
            context := [("release_attempt", some (toString endedAttempt.id))] }
          return { success := true, job := updatedJob }

def requeueReady (actor : String) (deferUntil : Option (Option Timestamp)) (reason : Option String) :
    JobCall (Option Job) := do
  match ← findById jobId with
  | none => return none
  | some currentJob =>
    let updatedJob ← updateJobs (.requeued jobId deferUntil)
    let deferChange := match deferUntil with
      | some deferUntil =>
        [("defer_until", currentJob.deferUntil.map toString, deferUntil.map toString)]
      | none => []
    insertAudit {
      entityType := "job", entityId := jobId, action := "updated"
      actor, actorType := "agent"
      changes := [("phase", some currentJob.phase.text, some "ready"),
        ("assignee", currentJob.assignee, none)] ++ deferChange
      context := [("reason", reason)] }
    return updatedJob

def getReadyJobs (projectId : String) (limit : Nat) : JobCall (List Job) :=
  select fun db =>
    ((db.jobs.filter fun row =>
      db.projects.contains row.projectId && (projectId == "" || row.projectId == projectId) &&
      (row.phase == .ready || row.phase == .active) && row.assignee.isNone && (match row.deferUntil with
        | none => true
        | some deferUntil => decide (deferUntil ≤ db.now)) &&
      !db.isBlocked row.id).insertionSort fun left right =>
        left.priority < right.priority ∨
          (left.priority = right.priority ∧ left.createdAt ≤ right.createdAt)).take limit

def claimNextJob (projectId : Option String) (agentId : String) (harness : Option String) :
    JobCall (Option (Job × JobAttempt)) := do
  match ← getReadyJobs (projectId.getD "") 1 with
  | [] => return none
  | job :: _ =>
    let effectiveHarness := harness <|> job.harness <|> job.hints.harness
    let result ← claim job.id agentId effectiveHarness
    match result.success, result.attempt with
    | true, some attempt =>
      match ← findById job.id with
      | none => return none
      | some updatedJob => return some (updatedJob, attempt)
    | _, _ => return none

inductive Outcome where
  | succeeded | failed

def Outcome.status : Outcome → AttemptStatus
  | .succeeded => .succeeded
  | .failed => .failed

theorem Outcome.status_final (outcome : Outcome) : outcome.status.live = false := by
  cases outcome <;> rfl

def completeAttempt (attemptId : AttemptId) (status : Outcome) (result : AttemptResult) :
    JobCall (Option JobAttempt) :=
  updateAttempts (.completed attemptId status.status result status.status_final)

def submitForReview (agentId : String) (summary : String) : JobCall Job := do
  match ← findById jobId with
  | none => .raise ("Job not found: " ++ jobId)
  | some currentJob =>
    if currentJob.phase ≠ .active then
      .raise ("Cannot submit for review. Job must be in 'active' phase, currently: " ++ currentJob.phase.text)
    else
      match ← select fun db =>
          db.latestAttempt jobId (fun status => status == .running || status == .succeeded) with
      | none => .raise ("No active attempt found for job: " ++ jobId)
      | some activeAttempt =>
        let _ ← updateAttempts (.submitted activeAttempt.id summary)
        match ← updateJobs (.submitted jobId) with
        | none => .raise ("Job " ++ jobId ++ " changed phase during review submission")
        | some updatedJob =>
          insertAudit {
            entityType := "job", entityId := jobId, action := "updated"
            actor := agentId, actorType := "agent"
            changes := [("phase", some "active", some "review"),
              ("review_status", currentJob.reviewStatus.map (·.text), some "pending")]
            context := [("action", some "submit_for_review"),
              ("attempt_id", some (toString activeAttempt.id)),
              ("summary", some summary)] }
          return updatedJob

def approveReview (reviewerId : String) (comment : Option String) : JobCall (Option Job) := do
  match ← findById jobId with
  | none => .raise ("Job not found: " ++ jobId)
  | some currentJob =>
    if currentJob.phase ≠ .review then
      .raise ("Cannot approve. Job must be in 'review' phase, currently: " ++ currentJob.phase.text)
    else
      let updatedJob ← updateJobs (.approved jobId reviewerId (comment.getD "Review approved"))
      insertAudit {
        entityType := "job", entityId := jobId, action := "updated"
        actor := reviewerId, actorType := "user"
        changes := [("phase", some "review", some "done"),
          ("review_status", some "pending", some "approved"),
          ("reviewer", currentJob.reviewer, some reviewerId)]
        context := [("action", some "approve_review"), ("comment", some (comment.getD ""))] }
      return updatedJob

def rejectReview (reviewerId : String) (reason : String) : JobCall (Option Job) := do
  match ← findById jobId with
  | none => .raise ("Job not found: " ++ jobId)
  | some currentJob =>
    if currentJob.phase ≠ .review then
      .raise ("Cannot reject. Job must be in 'review' phase, currently: " ++ currentJob.phase.text)
    else
      let updatedJob ← updateJobs (.rejected jobId reviewerId)
      let nextNum ← select fun db => db.nextAttemptNumber jobId
      let _ ← insertAttempt {
        jobId, attemptNumber := nextNum, status := .pending, triggerType := .autoRetry
        harnessProfileSource := currentJob.harnessProfileSource
        harnessProfileHash := currentJob.harnessProfileHash
        resultSummary := some ("Retry after rejection: " ++ reason) }
      insertAudit {
        entityType := "job", entityId := jobId, action := "updated"
        actor := reviewerId, actorType := "user"
        changes := [("phase", some "review", some "active"),
          ("review_status", some "pending", some "rejected"),
          ("reviewer", currentJob.reviewer, some reviewerId)]
        context := [("action", some "reject_review"), ("reason", some reason),
          ("new_attempt_number", some (toString nextNum))] }
      return updatedJob

def markJobDone (summary : Option String) : JobCall (Option Job) := do
  match ← findById jobId with
  | none => return none
  | some job =>
    if job.phase.terminal then
      return some job
    else if job.reviewRequired ≠ .none then
      if job.phase = .active then
        let _ ← submitForReview jobId (job.assignee.getD "orchestrator")
          (summary.getD "Completed")
      findById jobId
    else
      let result ← updatePhase jobId .done
      return result.job

/-- Closing a job, shared by `cancelJob` and `markJobFailed`: end the running attempt,
close the job unless it is closed already, and drop its gates. -/
def closeJobAndAttempt (reason : String) (status : AttemptStatus) (isFinal : status.live = false)
    (disposition : FailureDisposition) :
    JobCall (Option Job) := do
  match ← getCurrentAttempt jobId with
  | none => pure ()
  | some currentAttempt =>
    let _ ← updateAttempts (.ended currentAttempt.id status reason isFinal)
  let updatedJob ← updateJobs (.closed jobId reason disposition)
  deleteGates [jobId]
  let _ ← updateManyJobs (.gatesCleared [jobId])
  return updatedJob

def cancelJob (reason : Option String) : JobCall (Option Job) := do
  match ← findById jobId with
  | none => return none
  | some job =>
    if job.phase.terminal then
      return some job
    else
      match ← closeJobAndAttempt jobId (reason.getD "Job cancelled") .cancelled rfl
          .cancelled with
      | none => return none
      | some updatedJob =>
        let _ ← updateManyJobs (.backlogChildrenClosed jobId ("Parent job " ++ jobId ++ " cancelled") .cancelled)
        return some updatedJob

def markJobFailed (reason : Option String) : JobCall (Option Job) := do
  match ← findById jobId with
  | none => return none
  | some job =>
    if job.phase.terminal then
      return some job
    else
      match ← closeJobAndAttempt jobId (reason.getD "Job failed") .failed rfl .failed with
      | none => return none
      | some updatedJob =>
        let cancelled ← updateManyJobs (.cascaded jobId ("Upstream job " ++ jobId ++ " failed"))
        if cancelled ≠ [] then
          deleteGates cancelled
          let _ ← updateManyJobs (.gatesCleared cancelled)
        let _ ← updateManyJobs (.backlogChildrenClosed jobId ("Parent job " ++ jobId ++ " failed") .upstreamFailed)
        return some updatedJob

inductive JobOperation where
  | claim (jobId : JobId) (agentId : String) (harness : Option String)
  | claimNextJob (projectId : Option String) (agentId : String) (harness : Option String)
  | release (jobId : JobId) (agentId : String) (reason : Option String)
  | requeueReady (jobId : JobId) (actor : String) (deferUntil : Option (Option Timestamp))
      (reason : Option String)
  | submitForReview (jobId : JobId) (agentId : String) (summary : String)
  | approveReview (jobId : JobId) (reviewerId : String) (comment : Option String)
  | rejectReview (jobId : JobId) (reviewerId : String) (reason : String)
  | markJobDone (jobId : JobId) (summary : Option String)
  | cancelJob (jobId : JobId) (reason : Option String)
  | markJobFailed (jobId : JobId) (reason : Option String)
  | updatePhase (jobId : JobId) (newPhase : Phase)
  | completeAttempt (attemptId : AttemptId) (status : Outcome) (result : AttemptResult)
  | passTime (elapsed : Nat)

inductive JobReply where
  | claim (result : ClaimResult)
  | claimNextJob (result : Option (Job × JobAttempt))
  | release (result : ReleaseResult)
  | job (result : Option Job)
  | updatePhase (result : UpdatePhaseResult)
  | completeAttempt (result : Option JobAttempt)
  | timePassed

def JobOperation.call : JobOperation → JobCall JobReply
  | .claim jobId agentId harness => return .claim (← Jobs.claim jobId agentId harness)
  | .claimNextJob projectId agentId harness =>
    return .claimNextJob (← Jobs.claimNextJob projectId agentId harness)
  | .release jobId agentId reason => return .release (← Jobs.release jobId agentId reason)
  | .requeueReady jobId actor deferUntil reason =>
    return .job (← Jobs.requeueReady jobId actor deferUntil reason)
  | .submitForReview jobId agentId summary =>
    return .job (some (← Jobs.submitForReview jobId agentId summary))
  | .approveReview jobId reviewerId comment =>
    return .job (← Jobs.approveReview jobId reviewerId comment)
  | .rejectReview jobId reviewerId reason =>
    return .job (← Jobs.rejectReview jobId reviewerId reason)
  | .markJobDone jobId summary => return .job (← Jobs.markJobDone jobId summary)
  | .cancelJob jobId reason => return .job (← Jobs.cancelJob jobId reason)
  | .markJobFailed jobId reason => return .job (← Jobs.markJobFailed jobId reason)
  | .updatePhase jobId newPhase => return .updatePhase (← Jobs.updatePhase jobId newPhase)
  | .completeAttempt attemptId status result =>
    return .completeAttempt (← Jobs.completeAttempt attemptId status result)
  | .passTime elapsed => .perform (.passTime elapsed) fun _ => .timePassed

def runJobs (db : JobsDb) (schedule : List (Choice JobOperation)) : System JobStatement JobsDb String JobReply :=
  System.run (fun _ operation => operation.call) db schedule

end EveHorizon.Jobs
