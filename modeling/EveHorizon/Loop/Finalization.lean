import EveHorizon.Jobs.Operations
import EveHorizon.Ledger.Operations

/-!
# Finalizing attempts

How the orchestrator ends an attempt: live, after the worker has answered
(`processJob`), or from the completion log of an attempt that nobody is waiting for
(`recoverCompletedAttempts`). Both complete the attempt, persist its receipt and
charge the organization. A receipt is assembled from the billing tables by a
function that is a parameter here; `none` stands for an assembly that throws. The
control block of a worker's result is kept as parsed.
-/

namespace EveHorizon.Loop

open Interleaving
open Jobs (JobId AttemptId Timestamp Job JobAttempt JobsDb JobStatement JobCall JobOperation
  JobReply AttemptResult Outcome)
open Ledger (OrgId LedgerDb LedgerStatement LedgerCall LedgerOperation LedgerReply)

structure Project where
  id : String
  orgId : OrgId

inductive ControlStatus where
  | success | failed | waiting | prepared
  deriving DecidableEq

structure CompletionLog where
  attemptId : AttemptId
  exitCode : Option Int
  durationMs : Option Nat
  control : Option ControlStatus

structure AttemptReceipt where
  json : String
  baseTotalUsd : String
  billedTotal : String
  billedCurrency : String

structure LoopDb where
  jobs : JobsDb := {}
  ledger : LedgerDb := {}
  projects : List Project := []
  completions : List CompletionLog := []

inductive LoopStatement where
  -- A `SELECT` over several tables.
  | select
  | jobs (stmt : JobStatement)
  | ledger (stmt : LedgerStatement)
  -- `updateAttemptReceipt`.
  | writeReceipt (attemptId : AttemptId) (receipt : AttemptReceipt)
  | appendCompletion (log : CompletionLog)
  -- Staged dispatch: the backlog children of a lead become ready.
  | promoteChildren (parentId : JobId)
  | unstage (jobId : JobId)

def AttemptReceipt.columns (receipt : AttemptReceipt) (row : JobAttempt) : JobAttempt :=
  { row with
    receiptJson := some receipt.json
    receiptBaseTotalUsd := some receipt.baseTotalUsd
    receiptBilledTotal := some receipt.billedTotal
    receiptBilledCurrency := some receipt.billedCurrency }

def writeReceipt (attemptId : AttemptId) (receipt : AttemptReceipt) (jobs : JobsDb) : JobsDb :=
  { jobs with
    attempts := Table.updateWhere (·.id == attemptId) receipt.columns jobs.attempts }

def promoteChildren (parentId : JobId) (jobs : JobsDb) : JobsDb :=
  { jobs with
    jobs := Table.updateWhere
      (fun row => row.parentId == some parentId && row.phase == .backlog)
      (fun row => { row with phase := .ready, updatedAt := jobs.now }) jobs.jobs }

def unstage (jobId : JobId) (jobs : JobsDb) : JobsDb :=
  { jobs with
    jobs := Table.updateWhere (·.id == jobId)
      (fun row => { row with
        hints := { row.hints with staged := false }, updatedAt := jobs.now }) jobs.jobs }

def LoopStatement.effect : LoopStatement → LoopDb → LoopDb
  | .select, db => db
  | .jobs stmt, db => { db with jobs := stmt.effect db.jobs }
  | .ledger stmt, db => { db with ledger := stmt.effect db.ledger }
  | .writeReceipt attemptId receipt, db =>
    { db with jobs := Loop.writeReceipt attemptId receipt db.jobs }
  | .appendCompletion log, db => { db with completions := log :: db.completions }
  | .promoteChildren parentId, db => { db with jobs := Loop.promoteChildren parentId db.jobs }
  | .unstage jobId, db => { db with jobs := Loop.unstage jobId db.jobs }

def LoopStatement.ready : LoopStatement → LoopDb → Bool
  | .ledger stmt, db => stmt.ready db.ledger
  | _, _ => true

instance : Statement LoopStatement LoopDb where
  ready := LoopStatement.ready
  effect := LoopStatement.effect

abbrev LoopCall := Call LoopStatement LoopDb String

def onJobs {α : Type} (call : JobCall α) : LoopCall α := call.lift .jobs LoopDb.jobs

def onLedger {α : Type} (call : LedgerCall α) : LoopCall α := call.lift .ledger LoopDb.ledger

def select {α : Type} (query : LoopDb → α) : LoopCall α := .perform .select query

def LoopDb.findProject (db : LoopDb) (projectId : String) : Option Project :=
  db.projects.find? fun row => row.id == projectId

/-- How an attempt is priced, and whether it is. -/
abbrev AssembleReceipt := LoopDb → Job → JobAttempt → OrgId → Option AttemptReceipt

section

variable (assemble : AssembleReceipt) (toLowerCase : String → String) (job : Job) (attempt : JobAttempt)

def tryPersistAttemptReceipt : LoopCall Unit := do
  if attempt.receiptJson.isSome then
    return ()
  else if attempt.endedAt.isNone then
    return ()
  else
    match ← select fun db => db.findProject job.projectId with
    | none => return ()
    | some project =>
      match ← select fun db => assemble db job attempt project.orgId with
      | none => return ()
      | some receipt => .perform (.writeReceipt attempt.id receipt) fun _ => ()

def notPositive (text : String) : Bool :=
  match Decimal.value text with
  | some amount => decide (amount ≤ 0)
  | none => false

variable (session : Nat) (transactionId : String)

def chargeForReceipt (job : Job) (attempt : JobAttempt) : LoopCall Unit := do
  if attempt.receiptJson.isNone then
    return ()
  else
    let billedTotal := attempt.receiptBilledTotal.getD ""
    let billedCurrency := attempt.receiptBilledCurrency.getD ""
    if billedTotal = "" ∨ notPositive billedTotal = true then
      return ()
    else if billedCurrency = "" then
      return ()
    else
      match ← select fun db => db.findProject job.projectId with
      | none => return ()
      | some project =>
        let _ ← onLedger (Ledger.ensureBalance toLowerCase project.orgId billedCurrency)
        let _ ← onLedger (Ledger.createTransaction toLowerCase session {
          id := transactionId
          orgId := project.orgId
          type := .charge
          amount := billedTotal
          currency := billedCurrency
          description := some ("Job " ++ job.id ++ " attempt " ++ toString attempt.id ++ " charge")
          sourceType := .receipt
          sourceId := toString attempt.id })
        return ()

/-- A failed charge is logged and does not fail the finalization. -/
def tryChargeForReceipt (job : Job) (attempt : JobAttempt) : LoopCall Unit :=
  (chargeForReceipt toLowerCase session transactionId job attempt).handle fun _ => .ret ()

structure HarnessResult where
  success : Bool
  exitCode : Int
  resultText : Option String := none
  resultJson : Option String := none
  durationMs : Option Nat := none
  tokenInput : Option Nat := none
  tokenOutput : Option Nat := none
  error : Option String := none
  control : Option ControlStatus := none
  summary : Option String := none

def resolveOrchestrationOutcome (success : Bool) (status : Option ControlStatus) : ControlStatus :=
  status.getD (if success then .success else .failed)

def attemptOutcome (outcome : ControlStatus) : Outcome :=
  if outcome = .failed then .failed else .succeeded

def waitingBackoffMs : Nat := 15000

def retryDelay : Option Nat :=
  match job.hints.retry with
  | none => none
  | some policy =>
    let errorCode := job.executionType.getD "agent" ++ "_failed"
    let mentions (word : String) : Bool := decide (word.toList <:+: errorCode.toList)
    let retryable := match policy.retryableErrors with
      | none => true
      | some errors => errors.contains errorCode ||
          (errors.contains "attempt_timeout" && mentions "timeout") ||
          (errors.contains "attempt_stale" && mentions "stale")
    if attempt.attemptNumber < policy.maxAttempts ∧ retryable = true then
      some (policy.backoffSeconds * policy.backoffMultiplier ^ (attempt.attemptNumber - 1) * 1000)
    else none

/-- The rest of `finalizeJobResult`: what the outcome means for the job. -/
def applyOutcome (result : HarnessResult) (outcome : ControlStatus) : LoopCall Unit := do
  if outcome = .prepared ∧ job.hints.staged = true then
    let promoted ← .perform (.promoteChildren job.id) fun db => db.jobs.jobs.countP
      fun row => row.parentId == some job.id && row.phase == .backlog
    .perform (.unstage job.id) fun _ => ()
    let reason := if promoted = 0 then "Staged dispatch fallback: no children to run"
      else "Staged dispatch: waiting for members"
    let _ ← onJobs (Jobs.requeueReady job.id "orchestrator" none (some reason))
    return ()
  else
    match outcome with
    | .waiting =>
      let (isBlocked, now) ← select fun db => (db.jobs.isBlocked job.id, db.jobs.now)
      let deferUntil := if isBlocked then none else some (some (now + waitingBackoffMs))
      let _ ← onJobs (Jobs.requeueReady job.id "orchestrator" deferUntil (some "Worker requested waiting"))
      return ()
    | .success =>
      let _ ← onJobs (Jobs.markJobDone job.id none)
      return ()
    | .failed | .prepared =>
      match retryDelay job attempt with
      | some delay =>
        let now ← select fun db => db.jobs.now
        let _ ← onJobs (Jobs.requeueReady job.id "orchestrator" (some (some (now + delay)))
          (some ("Auto-retry #" ++ toString (attempt.attemptNumber + 1) ++ " after " ++ result.error.getD "failure")))
        return ()
      | none =>
        let _ ← onJobs (Jobs.markJobFailed job.id result.error)
        return ()

def finalizeJobResult (job : Job) (attempt : JobAttempt) (result : HarnessResult) (outcome : ControlStatus)
    (completedAttempt : JobAttempt) :
    LoopCall Unit := do
  tryPersistAttemptReceipt assemble job completedAttempt
  tryChargeForReceipt toLowerCase session transactionId job completedAttempt
  applyOutcome job attempt result outcome

/-- The attempt was ended by somebody else: only the job is brought to its end. -/
def externallyFinalized (result : HarnessResult) : LoopCall Unit := do
  let latestAttempt ← select fun db => db.jobs.latestAttempt job.id fun _ => true
  match ← onJobs (Jobs.findById job.id) with
  | some currentJob =>
    if currentJob.phase.terminal then
      return ()
    else
      finish latestAttempt
  | none => finish latestAttempt
where
  finish (latestAttempt : Option JobAttempt) : LoopCall Unit := do
    if latestAttempt.any (·.status == .succeeded) then
      let _ ← onJobs (Jobs.markJobDone job.id none)
      return ()
    else
      let externalError := (latestAttempt.bind (·.result.errorMessage) <|> result.error).getD
        "Attempt terminated externally"
      let _ ← onJobs (Jobs.markJobFailed job.id (some externalError))
      return ()

def HarnessResult.stored (result : HarnessResult) : AttemptResult where
  exitCode := some result.exitCode
  resultText := result.resultText
  resultJson := result.resultJson
  resultSummary := result.summary
  durationMs := result.durationMs
  tokenInput := result.tokenInput
  tokenOutput := result.tokenOutput
  errorMessage := result.error

/-- The end of `dispatchAndAwait`, once the worker has answered, and what follows it. -/
def completeAndFinalize (job : Job) (attempt : JobAttempt) (result : HarnessResult) :
    LoopCall Unit := do
  let outcome := resolveOrchestrationOutcome result.success result.control
  match ← onJobs (Jobs.completeAttempt attempt.id (attemptOutcome outcome) result.stored) with
  | none => externallyFinalized job result
  | some completedAttempt =>
    finalizeJobResult assemble toLowerCase session transactionId job attempt result outcome
      completedAttempt

/-- The attempt part of `handleProcessJobError`; true when the job is already closed. -/
def failAttempt (job : Job) (attempt : JobAttempt) (message : String) : LoopCall Bool := do
  match ← onJobs (Jobs.completeAttempt attempt.id .failed {
      exitCode := some 1, errorMessage := some message }) with
  | none =>
    let currentJob ← onJobs (Jobs.findById job.id)
    return currentJob.any (·.phase.terminal)
  | some completedAttempt =>
    tryPersistAttemptReceipt assemble job completedAttempt
    tryChargeForReceipt toLowerCase session transactionId job completedAttempt
    return false

def handleProcessJobError (job : Job) (attempt : JobAttempt) (message : String) :
    LoopCall Unit := do
  let closed ← (failAttempt assemble toLowerCase session transactionId job attempt message).handle
    fun _ => .ret false
  if closed then
    return ()
  else
    let _ ← onJobs (Jobs.markJobFailed job.id (some message))
    return ()

/-- `processJob` from the worker's answer on. Each charge draws a new transaction id. -/
def processJob (newId : Nat → String) (job : Job) (attempt : JobAttempt) (worker : Except String HarnessResult) :
    LoopCall Unit :=
  let body : LoopCall Unit := match worker with
    | .error message => .raise message
    | .ok result => completeAndFinalize assemble toLowerCase session (newId 0) job attempt result
  body.handle (handleProcessJobError assemble toLowerCase session (newId 1) job attempt)

def LoopDb.completedAttempts (db : LoopDb) : List (JobId × CompletionLog) :=
  db.jobs.attempts.filterMap fun row =>
    if row.status == .running && db.jobs.phaseOf row.jobId == some .active then
      (db.completions.find? fun log => log.attemptId == row.id).map fun log => (row.jobId, log)
    else none

variable (jobId : JobId)

def billRecovered (completed : JobAttempt) : LoopCall Unit := do
  match ← onJobs (Jobs.findById jobId) with
  | none => return ()
  | some job =>
    tryPersistAttemptReceipt assemble job completed
    tryChargeForReceipt toLowerCase session transactionId job completed

def closeRecovered (outcome : ControlStatus) (errorMessage : Option String) : LoopCall Unit :=
  match outcome with
  | .success => do
    let _ ← onJobs (Jobs.markJobDone jobId none)
    return ()
  | .waiting => return ()
  | .failed | .prepared => do
    let _ ← onJobs (Jobs.markJobFailed jobId (some (errorMessage.getD "Recovered failed attempt")))
    return ()

def recoverAttempt (log : CompletionLog) : LoopCall Unit := do
  let exitCode := log.exitCode.getD 1
  let outcome := resolveOrchestrationOutcome (exitCode == 0) log.control
  let errorMessage := if outcome = .failed then
      some ("Recovered attempt " ++ toString log.attemptId ++ " with exit code " ++ toString exitCode)
    else none
  match ← onJobs (Jobs.completeAttempt log.attemptId (attemptOutcome outcome) {
      exitCode := some exitCode, durationMs := log.durationMs, errorMessage }) with
  | none => return ()
  | some completed =>
    billRecovered assemble toLowerCase session transactionId jobId completed
    closeRecovered jobId outcome errorMessage
    onJobs (Jobs.deleteGates [jobId])

/-- `inFlight` is the in-memory map of dispatches this process is still waiting for;
a dispatch younger than thirty seconds is left to finalize its own attempt. -/
def recoverCompletedAttempts (newId : AttemptId → String) (inFlight : JobId → Option Timestamp) (now : Timestamp) :
    LoopCall Unit := do
  let completedAttempts ← select LoopDb.completedAttempts
  Call.forEach completedAttempts fun (jobId, log) =>
    let skipped := (inFlight jobId).any fun dispatchStart => decide (now - dispatchStart < 30000)
    if skipped then .ret ()
    else (recoverAttempt assemble toLowerCase session (newId log.attemptId) jobId log).handle
      fun _ => .ret ()

def LoopDb.recomputedAttempts (db : LoopDb) (since : Timestamp) (projectId : Option String)
    (force : Bool) : List (JobAttempt × Job × Project) :=
  db.jobs.attempts.filterMap fun row =>
    match db.jobs.findJob row.jobId with
    | none => none
    | some job =>
      match db.findProject job.projectId with
      | none => none
      | some project =>
        if row.endedAt.any (fun endedAt => decide (since ≤ endedAt)) &&
            projectId.all (· == job.projectId) && (force || row.receiptJson.isNone) then
          some (row, job, project)
        else none

def recomputeReceipt (entry : JobAttempt × Job × Project) : LoopCall Unit := do
  match ← select fun db => assemble db entry.2.1 entry.1 entry.2.2.orgId with
  | none => return ()
  | some receipt => .perform (.writeReceipt entry.1.id receipt) fun _ => ()

/-- `recompute` of the receipts administration: nobody is charged. -/
def recomputeReceipts (since : Timestamp) (projectId : Option String) (force : Bool) : LoopCall Unit := do
  let rows ← select fun db => db.recomputedAttempts since projectId force
  Call.forEach rows (recomputeReceipt assemble)

def foreign : LedgerOperation → Prop
  | .createTransaction input => ¬ (input.type = .charge ∧ input.sourceType = .receipt)
  | _ => True

/-- What can happen around the attempts: the job queries, a worker's answer to a job
that is being processed, recovery ticks (also at a restart), completion logs, receipt
administration, and every other use of the ledger. -/
inductive LoopOperation where
  | jobQuery (operation : JobOperation)
  | processJob (newId : Nat → String) (job : Job) (attempt : JobAttempt)
      (worker : Except String HarnessResult)
  | recoverCompletedAttempts (newId : AttemptId → String) (inFlight : JobId → Option Timestamp)
      (now : Timestamp)
  | recomputeReceipts (since : Timestamp) (projectId : Option String) (force : Bool)
  | logCompletion (log : CompletionLog)
  | ledger (operation : LedgerOperation) (isForeign : foreign operation)

def LoopOperation.call : LoopOperation → LoopCall Unit
  | .jobQuery operation => do
    let _ ← onJobs operation.call
    return ()
  | .processJob newId job attempt worker =>
    Loop.processJob assemble toLowerCase session newId job attempt worker
  | .recoverCompletedAttempts newId inFlight now =>
    Loop.recoverCompletedAttempts assemble toLowerCase session newId inFlight now
  | .recomputeReceipts since projectId force =>
    Loop.recomputeReceipts assemble since projectId force
  | .logCompletion log => .perform (.appendCompletion log) fun _ => ()
  | .ledger operation _ => do
    let _ ← onLedger (operation.call toLowerCase session)
    return ()

def runLoop (db : LoopDb) (schedule : List (Choice LoopOperation)) : System LoopStatement LoopDb String Unit :=
  System.run (LoopOperation.call assemble toLowerCase) db schedule

end

end EveHorizon.Loop
