import EveHorizon.Loop.Finalization

/-!
# Recovery sweeps

The sweeps of the recovery service: orphaned jobs at a restart, the watchdogs over running
attempts, and active jobs without a running attempt. What they read beside the job tables
(log times, the start of the harness, hints no query of the job tables inspects) is a
parameter. A statement of a sweep carries the attempt on whose account the sweep acts.
-/

namespace EveHorizon.Loop

open Interleaving
open Jobs (JobId AttemptId Timestamp Job JobAttempt AttemptStatus JobsDb AttemptResult Outcome)

/-- The attempt a sweep acts on, with the status the sweep has read or written. -/
structure Judgement where
  jobId : JobId
  attemptId : AttemptId
  status : AttemptStatus

inductive RecoveryStatement where
  | live (stmt : LoopStatement)
  | sweep (judged : Option Judgement) (stmt : LoopStatement)

def RecoveryStatement.erase : RecoveryStatement → LoopStatement
  | .live stmt => stmt
  | .sweep _ stmt => stmt

instance : Statement RecoveryStatement LoopDb where
  ready stmt := stmt.erase.ready
  effect stmt := stmt.erase.effect

abbrev RecoveryCall := Call RecoveryStatement LoopDb String

section

variable {α : Type}

def live (call : LoopCall α) : RecoveryCall α := call.lift .live id

def sweeping (call : LoopCall α) : RecoveryCall α := call.lift (.sweep none) id

def judging (judged : Judgement) (call : LoopCall α) : RecoveryCall α := call.lift (.sweep (some judged)) id

end

structure RecoveryConfig where
  attemptStaleMinutes : Nat := 5
  initTimeoutSeconds : Nat := 300
  startupTimeoutSeconds : Nat := 600
  staleRunningSeconds : Nat := 900
  staleIdleSeconds : Nat := 900
  timeoutGraceSeconds : Nat := 30
  terminatedGraceSeconds : Nat := 30

structure Readings where
  executionStartedAt : AttemptId → Option Timestamp
  harnessStarted : AttemptId → Bool
  lastLogAt : AttemptId → Option Timestamp
  timeoutSeconds : JobId → Option Nat
  supervising : JobId → Bool
  now : Timestamp

abbrev Unhealthy := Option (String × String)

def seconds (elapsedMs : Nat) : Nat := elapsedMs / 1000

def evaluateRunningAttemptHealth (startedAt lastLogAt : Timestamp)
    (timeoutSeconds timeoutGraceSeconds staleRunningSeconds staleIdleSeconds : Nat)
    (now : Timestamp) : Unhealthy :=
  let elapsedSeconds := seconds (now - startedAt)
  let idleSeconds := seconds (now - lastLogAt)
  let timeoutLimit := max 1 timeoutSeconds + timeoutGraceSeconds
  if timeoutLimit ≤ elapsedSeconds then
    some ("Attempt timed out (" ++ toString elapsedSeconds ++ "s >= " ++ toString timeoutLimit ++
      "s)", "attempt_timeout")
  else if 0 < staleRunningSeconds ∧ staleRunningSeconds ≤ elapsedSeconds ∧ max 1 staleIdleSeconds ≤ idleSeconds then
    some ("Attempt made no progress for " ++ toString idleSeconds ++ "s after " ++
      toString elapsedSeconds ++ "s runtime", "attempt_stale")
  else none

def evaluateAttemptInitHealth (startedAt : Timestamp) (initTimeoutSeconds : Nat)
    (now : Timestamp) : Unhealthy :=
  let elapsedSeconds := seconds (now - startedAt)
  let timeoutLimit := max 1 initTimeoutSeconds
  if timeoutLimit ≤ elapsedSeconds then
    some ("Attempt did not reach runtime acceptance within " ++ toString timeoutLimit ++
      "s of claim (" ++ toString elapsedSeconds ++ "s elapsed)", "attempt_init_timeout")
  else none

def evaluateAttemptStartupHealth (executionStartedAt : Timestamp) (startupTimeoutSeconds : Nat)
    (now : Timestamp) : Unhealthy :=
  let elapsedSeconds := seconds (now - executionStartedAt)
  let timeoutLimit := max 1 startupTimeoutSeconds
  if timeoutLimit ≤ elapsedSeconds then
    some ("Attempt did not start the harness within " ++ toString timeoutLimit ++
      "s of runtime acceptance (" ++ toString elapsedSeconds ++ "s elapsed)", "attempt_startup_timeout")
  else none

structure Candidate where
  attemptId : AttemptId
  jobId : JobId
  startedAt : Timestamp
  executionType : String
  parentId : Option JobId

def LoopDb.candidates (db : LoopDb) : List Candidate :=
  db.jobs.attempts.filterMap fun row =>
    match db.jobs.findJob row.jobId with
    | none => none
    | some job =>
      if row.status == .running && job.phase == .active then
        some ⟨row.id, job.id, row.startedAt, job.executionType.getD "agent", job.parentId⟩
      else none

inductive Watchdog where
  | initTimeout | startupTimeout | stale

variable (config : RecoveryConfig) (readings : Readings)

def Watchdog.selects (now : Timestamp) (candidate : Candidate) : Watchdog → Bool
  | .initTimeout => (readings.executionStartedAt candidate.attemptId).isNone &&
      decide (candidate.startedAt + config.initTimeoutSeconds * 1000 < now)
  | .startupTimeout => candidate.executionType == "agent" &&
      (readings.executionStartedAt candidate.attemptId).any (fun executionStartedAt =>
        decide (executionStartedAt + config.startupTimeoutSeconds * 1000 < now)) &&
      !readings.harnessStarted candidate.attemptId
  | .stale => true

variable (candidate : Candidate)

def Watchdog.health : Watchdog → Unhealthy
  | .initTimeout =>
    evaluateAttemptInitHealth candidate.startedAt config.initTimeoutSeconds readings.now
  | .startupTimeout =>
    match readings.executionStartedAt candidate.attemptId with
    | none => none
    | some executionStartedAt =>
      evaluateAttemptStartupHealth executionStartedAt config.startupTimeoutSeconds readings.now
  | .stale =>
    evaluateRunningAttemptHealth candidate.startedAt
      ((readings.lastLogAt candidate.attemptId).getD candidate.startedAt)
      ((readings.timeoutSeconds candidate.jobId).getD 1800) config.timeoutGraceSeconds
      config.staleRunningSeconds config.staleIdleSeconds readings.now

structure StepCounts where
  total : Nat
  terminal : Nat
  succeeded : Nat
  failed : Nat

def JobsDb.stepCounts (db : JobsDb) (parentId : JobId) : StepCounts :=
  let steps := db.jobs.filter fun row =>
    row.parentId == some parentId && row.hints.workflowRetrySupersededBy.isNone
  { total := steps.length
    terminal := steps.countP (·.phase.terminal)
    succeeded := steps.countP (·.phase == .done)
    failed := steps.countP (·.phase == .cancelled) }

def StepCounts.allSucceeded (counts : StepCounts) : Bool :=
  counts.failed == 0 && counts.succeeded == counts.total

def closeWorkflowRoot (parentId : JobId) : LoopCall Unit := do
  match ← onJobs (Jobs.findById parentId) with
  | none => return ()
  | some parent =>
    if parent.hints.workflowRoot = false ∨ parent.phase.terminal = true then
      return ()
    else
      let counts ← select fun db => JobsDb.stepCounts db.jobs parentId
      if counts.total = 0 ∨ counts.total ≠ counts.terminal then
        return ()
      else if counts.allSucceeded then
        let _ ← onJobs (Jobs.markJobDone parentId none)
        return ()
      else
        let _ ← onJobs (Jobs.cancelJob parentId (some ("Workflow failed: " ++
          toString counts.succeeded ++ "/" ++ toString counts.total ++ " current steps succeeded")))
        return ()

def tryCloseWorkflowRoot (parentId : JobId) : LoopCall Unit :=
  (closeWorkflowRoot parentId).handle fun _ => .ret ()

def closeRootOf : Option JobId → LoopCall Unit
  | none => .ret ()
  | some parentId => tryCloseWorkflowRoot parentId

/-- `failRunningAttemptFromWatchdog`; whoever ended the attempt first decides the job. -/
def failRunningAttemptFromWatchdog (reason errorCode : String) : RecoveryCall Unit := do
  let errorMessage := "Watchdog: " ++ reason
  match ← sweeping (onJobs (Jobs.completeAttempt candidate.attemptId .failed {
      exitCode := some 1, errorMessage := some errorMessage
      resultJson := some errorCode })) with
  | none => return ()
  | some _ =>
    judging ⟨candidate.jobId, candidate.attemptId, .failed⟩ do
      let _ ← onJobs (Jobs.markJobFailed candidate.jobId (some errorMessage))
      onJobs (Jobs.deleteGates [candidate.jobId])
      closeRootOf candidate.parentId

variable (watchdog : Watchdog)

def Watchdog.recover : RecoveryCall Unit :=
  match watchdog.health config readings candidate with
  | none => .ret ()
  | some (reason, errorCode) =>
    (failRunningAttemptFromWatchdog candidate reason errorCode).handle fun _ => .ret ()

def LoopDb.watched (db : LoopDb) : List Candidate :=
  db.candidates.filter fun candidate => watchdog.selects config readings db.jobs.now candidate

/-- `recoverAttemptInitTimeouts`, `recoverAttemptStartupTimeouts` and
`recoverStaleRunningAttempts`: one loop over three selections and health checks. -/
def Watchdog.sweep : RecoveryCall Unit := do
  let candidates ← sweeping (select fun db => db.watched config readings watchdog)
  Call.forEach candidates (watchdog.recover config readings)

structure StuckJob where
  jobId : JobId
  parentId : Option JobId
  latestAttempt : JobAttempt

def LoopDb.stuckJobs (db : LoopDb) : List StuckJob :=
  db.jobs.jobs.filterMap fun job =>
    match db.jobs.latestAttempt job.id fun _ => true with
    | none => none
    | some latest =>
      if job.phase == .active && !(db.jobs.attempts.any fun row => row.jobId == job.id && row.status == .running) &&
          latest.endedAt.any (fun endedAt =>
            decide (endedAt + config.terminatedGraceSeconds * 1000 < db.jobs.now)) then
        some ⟨job.id, job.parentId, latest⟩
      else none

def recoverStuckJob (stuckJob : StuckJob) : RecoveryCall Unit :=
  judging ⟨stuckJob.jobId, stuckJob.latestAttempt.id, stuckJob.latestAttempt.status⟩ do
    let errorMessage := stuckJob.latestAttempt.result.errorMessage.getD
      "Active job with no running attempts (pod terminated or attempt externally failed)"
    let _ ← onJobs (Jobs.markJobFailed stuckJob.jobId (some errorMessage))
    onJobs (Jobs.deleteGates [stuckJob.jobId])
    closeRootOf stuckJob.parentId

def recoverActiveJobsWithTerminatedAttempts : RecoveryCall Unit := do
  let stuckJobs ← sweeping (select fun db => db.stuckJobs config)
  Call.forEach stuckJobs fun stuckJob => (recoverStuckJob stuckJob).handle fun _ => .ret ()

def LoopDb.orphanedJobs (db : LoopDb) : List JobId :=
  (db.jobs.jobs.filter fun row => row.phase == .active && !readings.supervising row.id).map (·.id)

def JobsDb.runningRows (db : JobsDb) (jobId : JobId) : List JobAttempt :=
  db.attempts.filter fun row => row.jobId == jobId && row.status == .running

/-- Fail the stale attempts of an orphaned job, and hand the job out again when no other
attempt of it was running. -/
def resetOrphanedJob (jobId : JobId) (runningCount : Nat) (staleAttempts : List JobAttempt) : LoopCall Unit := do
  Call.forEach staleAttempts fun attempt => do
    let _ ← onJobs (Jobs.completeAttempt attempt.id .failed {
      exitCode := some 1
      errorMessage := some "Orchestrator restarted while attempt was running" })
    return ()
  if runningCount = staleAttempts.length then
    let _ ← onJobs (Jobs.updateManyJobs (.released jobId))
  onJobs (Jobs.deleteGates [jobId])

def recoverOrphanedJob (staleCutoff : Timestamp) (jobId : JobId) : LoopCall Unit := do
  let runningAttempts ← select fun db => JobsDb.runningRows db.jobs jobId
  if runningAttempts.isEmpty then
    resetOrphanedJob jobId 0 []
  else
    let runningRows ← select fun db => JobsDb.runningRows db.jobs jobId
    let staleAttempts := runningRows.filter fun row => decide (row.startedAt < staleCutoff)
    if staleAttempts.length < runningRows.length then
      let nonStaleIds := (runningRows.filter fun row => decide (staleCutoff ≤ row.startedAt)).map
        (·.id)
      let completionLogs ← if nonStaleIds.isEmpty then pure [] else
        select fun db => db.completions.filter fun log => nonStaleIds.contains log.attemptId
      if completionLogs.isEmpty then
        return ()
      else
        resetOrphanedJob jobId runningRows.length staleAttempts
    else
      resetOrphanedJob jobId runningRows.length staleAttempts

def staleCutoff : Timestamp :=
  readings.now - max 1 config.attemptStaleMinutes * 60 * 1000

def recoverOrphanedJobs : RecoveryCall Unit := do
  let orphanedJobs ← sweeping (select (LoopDb.orphanedJobs readings))
  Call.forEach orphanedJobs fun jobId =>
    (sweeping (recoverOrphanedJob (staleCutoff config readings) jobId)).handle fun _ => .ret ()

section

variable (assemble : AssembleReceipt) (toLowerCase : String → String)

def CompletionLog.outcome (log : CompletionLog) : ControlStatus :=
  resolveOrchestrationOutcome (log.exitCode.getD 1 == 0) log.control

def CompletionLog.errorMessage (log : CompletionLog) : Option String :=
  if log.outcome = .failed then
    some ("Recovered attempt " ++ toString log.attemptId ++ " with exit code " ++ toString (log.exitCode.getD 1))
  else none

variable (session : Nat)

def billJob (transactionId : String) (completed : JobAttempt) : Option Job → LoopCall Unit
  | none => .ret ()
  | some job => do
    tryPersistAttemptReceipt assemble job completed
    tryChargeForReceipt toLowerCase session transactionId job completed

def sweepCompletedAttempt (transactionId : String) (jobId : JobId) (log : CompletionLog) : RecoveryCall Unit := do
  match ← sweeping (onJobs (Jobs.completeAttempt log.attemptId (attemptOutcome log.outcome) {
      exitCode := some (log.exitCode.getD 1), durationMs := log.durationMs
      errorMessage := log.errorMessage })) with
  | none => return ()
  | some completed =>
    judging ⟨jobId, log.attemptId, (attemptOutcome log.outcome).status⟩ do
      let job ← onJobs (Jobs.findById jobId)
      billJob assemble toLowerCase session transactionId completed job
      closeRecovered jobId log.outcome log.errorMessage
      onJobs (Jobs.deleteGates [jobId])
      if log.outcome = .waiting then return () else closeRootOf (job.bind (·.parentId))

def recoverCompleted (newId : AttemptId → String) (inFlight : JobId → Option Timestamp) (now : Timestamp)
    (entry : JobId × CompletionLog) : RecoveryCall Unit :=
  if (inFlight entry.1).any fun dispatchStart => decide (now - dispatchStart < 30000) then .ret ()
  else (sweepCompletedAttempt assemble toLowerCase session (newId entry.2.attemptId) entry.1
    entry.2).handle fun _ => .ret ()

def sweepCompletedAttempts (newId : AttemptId → String) (inFlight : JobId → Option Timestamp) (now : Timestamp) :
    RecoveryCall Unit := do
  let completedAttempts ← sweeping (select LoopDb.completedAttempts)
  Call.forEach completedAttempts
    (recoverCompleted assemble toLowerCase session newId inFlight now)

end

end EveHorizon.Loop
