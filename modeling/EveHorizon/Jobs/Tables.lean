import EveHorizon.Library.Interleaving
import EveHorizon.Library.Table
import Mathlib.Data.List.Sort

/-!
# Job tables and the statements on them

The rows of `jobs`, `job_attempts`, `job_relations`, `job_gates` and `audit_log`
that the job queries read and write, and one constructor for each `UPDATE`,
`INSERT` and `DELETE` those queries issue. Timestamps are clock readings; JSON
columns that no query inspects are kept as text.
-/

namespace EveHorizon.Jobs

open Interleaving

abbrev JobId := String
abbrev AttemptId := Nat
abbrev Timestamp := Nat

inductive Phase where
  | idea | backlog | ready | active | review | done | cancelled
  deriving DecidableEq

def Phase.text : Phase → String
  | .idea => "idea"
  | .backlog => "backlog"
  | .ready => "ready"
  | .active => "active"
  | .review => "review"
  | .done => "done"
  | .cancelled => "cancelled"

def Phase.terminal : Phase → Bool
  | .done | .cancelled => true
  | _ => false

def validTransitions : Phase → List Phase
  | .idea => [.backlog, .cancelled]
  | .backlog => [.ready, .cancelled]
  | .ready => [.active, .backlog, .cancelled]
  | .active => [.review, .done, .ready, .cancelled]
  | .review => [.done, .active, .cancelled]
  | .done => []
  | .cancelled => []

def canTransition (source target : Phase) : Bool := (validTransitions source).contains target

theorem not_canTransition_of_terminal {source : Phase} (closed : source.terminal = true)
    (target : Phase) : canTransition source target = false := by
  cases source <;> first | rfl | cases closed

inductive ReviewRequired where
  | none | human | agent
  deriving DecidableEq

inductive ReviewStatus where
  | pending | approved | rejected
  deriving DecidableEq

def ReviewStatus.text : ReviewStatus → String
  | .pending => "pending"
  | .approved => "approved"
  | .rejected => "rejected"

inductive FailureDisposition where
  | cancelled | failed | upstreamFailed
  deriving DecidableEq

structure RetryPolicy where
  maxAttempts : Nat := 1
  retryableErrors : Option (List String) := none
  backoffSeconds : Nat := 60
  backoffMultiplier : Nat := 2
  deriving DecidableEq

structure JobHints where
  harness : Option String := none
  staged : Bool := false
  retry : Option RetryPolicy := none
  workflowName : Option String := none
  workflowRoot : Bool := false
  stepName : Option String := none
  stepIndex : Option Nat := none
  condition : Option String := none
  workflowRetryGeneration : Option Nat := none
  workflowRetryOf : Option String := none
  workflowRetryRoot : Option String := none
  workflowRetrySupersededBy : Option String := none
  workflowRetrySupersededGeneration : Option Nat := none
  deriving DecidableEq

structure Job where
  id : JobId
  projectId : String
  parentId : Option JobId := none
  depth : Nat := 0
  title : String := ""
  labels : List String := []
  phase : Phase
  priority : Nat := 2
  assignee : Option String := none
  reviewRequired : ReviewRequired := .none
  reviewStatus : Option ReviewStatus := none
  reviewer : Option String := none
  deferUntil : Option Timestamp := none
  readyAt : Option Timestamp := none
  hints : JobHints := {}
  executionType : Option String := none
  harness : Option String := none
  harnessProfileSource : Option String := none
  harnessProfileHash : Option String := none
  blockedOnGates : List String := []
  runId : Option String := none
  stepName : Option String := none
  actorUserId : Option String := none
  failureDisposition : Option FailureDisposition := none
  createdAt : Timestamp := 0
  updatedAt : Timestamp := 0
  closedAt : Option Timestamp := none
  closeReason : Option String := none
  deriving DecidableEq

inductive AttemptStatus where
  | pending | running | succeeded | failed | cancelled
  deriving DecidableEq

def AttemptStatus.live : AttemptStatus → Bool
  | .pending | .running => true
  | _ => false

inductive TriggerType where
  | manual | autoRetry | scheduled
  deriving DecidableEq

structure AttemptResult where
  exitCode : Option Int := none
  resultText : Option String := none
  resultJson : Option String := none
  resultSummary : Option String := none
  durationMs : Option Nat := none
  tokenInput : Option Nat := none
  tokenOutput : Option Nat := none
  errorMessage : Option String := none
  deriving DecidableEq

def AttemptResult.coalesce (new old : AttemptResult) : AttemptResult where
  exitCode := new.exitCode <|> old.exitCode
  resultText := new.resultText <|> old.resultText
  resultJson := new.resultJson <|> old.resultJson
  resultSummary := new.resultSummary <|> old.resultSummary
  durationMs := new.durationMs <|> old.durationMs
  tokenInput := new.tokenInput <|> old.tokenInput
  tokenOutput := new.tokenOutput <|> old.tokenOutput
  errorMessage := new.errorMessage <|> old.errorMessage

structure JobAttempt where
  id : AttemptId
  jobId : JobId
  attemptNumber : Nat
  status : AttemptStatus
  triggerType : TriggerType := .manual
  harness : Option String := none
  agentId : Option String := none
  startedAt : Timestamp := 0
  endedAt : Option Timestamp := none
  runtimeMeta : Option String := some "{}"
  result : AttemptResult := {}
  harnessProfileSource : Option String := none
  harnessProfileHash : Option String := none
  receiptJson : Option String := none
  receiptBaseTotalUsd : Option String := none
  receiptBilledTotal : Option String := none
  receiptBilledCurrency : Option String := none
  deriving DecidableEq

inductive RelationType where
  | blocks | conditionalBlocks | waitsFor | related | discoveredFrom
  deriving DecidableEq

def RelationType.blocking : RelationType → Bool
  | .blocks | .conditionalBlocks | .waitsFor => true
  | _ => false

structure JobRelation where
  jobId : JobId
  relatedJobId : JobId
  relationType : RelationType
  deriving DecidableEq

structure JobGate where
  gateKey : String
  jobId : JobId
  ttlExpiresAt : Timestamp := 0
  deriving DecidableEq

/-- `changes` and `context` hold the JSON members; `null` is `none`. -/
structure AuditEntry where
  entityType : String
  entityId : String
  action : String
  actor : String
  actorType : String
  changes : List (String × Option String × Option String)
  context : List (String × Option String)
  deriving DecidableEq

structure JobsDb where
  now : Timestamp := 0
  projects : List String := []
  jobs : List Job := []
  attempts : List JobAttempt := []
  relations : List JobRelation := []
  gates : List JobGate := []
  audit : List AuditEntry := []
  -- The next attempt id; ids are never reused.
  nextAttempt : AttemptId := 0
  deriving DecidableEq

variable (db : JobsDb) (jobId : JobId)

def JobsDb.findJob : Option Job := db.jobs.find? fun row => row.id == jobId

def JobsDb.phaseOf : Option Phase := (db.findJob jobId).map (·.phase)

def JobsDb.latestAttempt (wanted : AttemptStatus → Bool) : Option JobAttempt :=
  Table.latest (·.attemptNumber)
    (db.attempts.filter fun row => row.jobId == jobId && wanted row.status)

def JobsDb.attemptCount : Nat :=
  (db.attempts.filter fun row => row.jobId == jobId).length

def JobsDb.nextAttemptNumber : Nat :=
  ((db.attempts.filter fun row => row.jobId == jobId).map (·.attemptNumber)).foldl max 0 + 1

def JobsDb.isBlocked : Bool :=
  db.relations.any fun relation => relation.jobId == jobId && relation.relationType.blocking &&
    db.jobs.any fun blocker => blocker.id == relation.relatedJobId && !blocker.phase.terminal

def downstreamStep (relations : List JobRelation) (root : JobId) (known : List JobId) : List JobId :=
  ((relations.filter fun relation => relation.relationType.blocking &&
    (relation.relatedJobId == root || known.contains relation.relatedJobId)).map (·.jobId)).dedup

/-- The jobs that depend on `root` through blocking relations. Every round but the
last adds a job of some relation, so one round a relation reaches the fixed point. -/
def downstream (relations : List JobRelation) (root : JobId) : List JobId :=
  (downstreamStep relations root)^[relations.length] []

inductive JobUpdate where
  -- `claim`: the job becomes active.
  | claimed (jobId : JobId) (agentId : String)
  -- `release` when no attempt is running.
  | releasedIdle (jobId : JobId)
  -- `release` after its attempt was ended.
  | released (jobId : JobId)
  -- `requeueReady`; `defer_until` is written only when the option was given.
  | requeued (jobId : JobId) (deferUntil : Option (Option Timestamp))
  | submitted (jobId : JobId)
  | approved (jobId : JobId) (reviewerId : String) (closeReason : String)
  | rejected (jobId : JobId) (reviewerId : String)
  -- `updatePhase`, after it has checked the transition.
  | phaseChanged (jobId : JobId) (current new : Phase) (valid : canTransition current new = true)
  -- `cancelJob` and `markJobFailed`.
  | closed (jobId : JobId) (reason : String) (disposition : FailureDisposition)
  | gatesCleared (jobIds : List JobId)
  -- The cascade of `markJobFailed`.
  | cascaded (jobId : JobId) (reason : String)
  | backlogChildrenClosed (parentId : JobId) (reason : String) (disposition : FailureDisposition)

def JobUpdate.selects : JobUpdate → Job → Bool
  | .claimed jobId _, row => row.id == jobId
  | .releasedIdle jobId, row => row.id == jobId && row.phase == .active
  | .released jobId, row => row.id == jobId
  | .requeued jobId _, row => row.id == jobId
  | .submitted jobId, row => row.id == jobId && row.phase == .active
  | .approved jobId _ _, row => row.id == jobId
  | .rejected jobId _, row => row.id == jobId
  | .phaseChanged jobId current _ _, row => row.id == jobId && row.phase == current
  | .closed jobId _ _, row => row.id == jobId && !row.phase.terminal
  | .gatesCleared jobIds, row => jobIds.contains row.id
  | .cascaded jobId _, row =>
    (downstream db.relations jobId).contains row.id && !row.phase.terminal
  | .backlogChildrenClosed parentId _ _, row =>
    row.parentId == some parentId && row.phase == .backlog

variable (now : Timestamp)

def closeJob (reason : String) (disposition : FailureDisposition) (row : Job) : Job :=
  { row with
    phase := .cancelled
    closedAt := some now
    closeReason := some reason
    failureDisposition := some disposition
    updatedAt := now }

def readyJob (row : Job) : Job :=
  { row with phase := .ready, readyAt := some now, assignee := none, updatedAt := now }

def JobUpdate.changes : JobUpdate → Job → Job
  | .claimed _ agentId, row =>
    { row with phase := .active, assignee := some agentId, updatedAt := now }
  | .releasedIdle _, row => readyJob now row
  | .released _, row => readyJob now row
  | .requeued _ deferUntil, row =>
    match deferUntil with
    | some deferUntil => { readyJob now row with deferUntil }
    | none => readyJob now row
  | .submitted _, row =>
    { row with phase := .review, reviewStatus := some .pending, updatedAt := now }
  | .approved _ reviewerId closeReason, row =>
    { row with
      phase := .done
      reviewStatus := some .approved
      reviewer := some reviewerId
      closedAt := some now
      closeReason := some closeReason
      updatedAt := now }
  | .rejected _ reviewerId, row =>
    { row with
      phase := .active
      reviewStatus := some .rejected
      reviewer := some reviewerId
      updatedAt := now }
  | .phaseChanged _ _ new _, row =>
    { row with
      phase := new
      readyAt := if new = .ready then some now else row.readyAt
      updatedAt := now
      closedAt := if new.terminal then some now else none }
  | .closed _ reason disposition, row => closeJob now reason disposition row
  | .gatesCleared _, row => { row with blockedOnGates := [], updatedAt := now }
  | .cascaded _ reason, row => closeJob now reason .upstreamFailed row
  | .backlogChildrenClosed _ reason disposition, row => closeJob now reason disposition row

@[simp] theorem JobUpdate.changes_id (update : JobUpdate) (row : Job) : (update.changes now row).id = row.id := by
  cases update with
  | requeued jobId deferUntil => cases deferUntil <;> rfl
  | _ => rfl

inductive AttemptUpdate where
  -- `claim`: a pending attempt starts.
  | startedPending (attemptId : AttemptId) (agentId : String) (harness : Option String)
      (profileSource profileHash : Option String)
  -- `release`, `cancelJob` and `markJobFailed` end the attempt they read.
  | ended (attemptId : AttemptId) (status : AttemptStatus) (summary : String)
      (isFinal : status.live = false)
  -- `submitForReview`.
  | submitted (attemptId : AttemptId) (summary : String)
  | completed (attemptId : AttemptId) (status : AttemptStatus) (result : AttemptResult)
      (isFinal : status.live = false)

def AttemptUpdate.selects : AttemptUpdate → JobAttempt → Bool
  | .startedPending attemptId _ _ _ _, row => row.id == attemptId && row.status == .pending
  | .ended attemptId _ _ _, row => row.id == attemptId
  | .submitted attemptId _, row =>
    row.id == attemptId && (row.status == .running || row.status == .succeeded)
  | .completed attemptId _ _ _, row => row.id == attemptId && row.status == .running

def AttemptUpdate.changes : AttemptUpdate → JobAttempt → JobAttempt
  | .startedPending _ agentId harness profileSource profileHash, row =>
    { row with
      status := .running
      harness := harness <|> row.harness
      agentId := some agentId
      startedAt := now
      harnessProfileSource := row.harnessProfileSource <|> profileSource
      harnessProfileHash := row.harnessProfileHash <|> profileHash
      runtimeMeta := row.runtimeMeta <|> some "{}" }
  | .ended _ status summary _, row =>
    { row with
      status
      endedAt := some now
      result := { row.result with resultSummary := some summary } }
  | .submitted _ summary, row =>
    { row with
      status := .succeeded
      endedAt := some now
      result := { row.result with resultSummary := some summary } }
  | .completed _ status result _, row =>
    { row with status, endedAt := some now, result := result.coalesce row.result }

structure NewAttempt where
  jobId : JobId
  attemptNumber : Nat
  status : AttemptStatus
  triggerType : TriggerType
  harness : Option String := none
  agentId : Option String := none
  harnessProfileSource : Option String
  harnessProfileHash : Option String
  resultSummary : Option String := none

def NewAttempt.row (new : NewAttempt) (id : AttemptId) (now : Timestamp) : JobAttempt where
  id := id
  jobId := new.jobId
  attemptNumber := new.attemptNumber
  status := new.status
  triggerType := new.triggerType
  harness := new.harness
  agentId := new.agentId
  startedAt := now
  result := { resultSummary := new.resultSummary }
  harnessProfileSource := new.harnessProfileSource
  harnessProfileHash := new.harnessProfileHash

inductive JobStatement where
  -- Any `SELECT`.
  | select
  | updateJobs (update : JobUpdate)
  | updateAttempts (update : AttemptUpdate)
  | insertAttempt (new : NewAttempt)
  | insertAudit (entry : AuditEntry)
  | deleteGates (jobIds : List JobId)
  -- The database clock moves on between statements.
  | passTime (elapsed : Nat)

/-- `UNIQUE(job_id, attempt_number)` and the foreign key on `job_id`. -/
def JobsDb.refusal (new : NewAttempt) : Option String :=
  if db.attempts.any fun row =>
      row.jobId == new.jobId && row.attemptNumber == new.attemptNumber then
    some "duplicate key value violates unique constraint \"job_attempts_job_id_attempt_number_key\""
  else if (db.findJob new.jobId).isNone then
    some "insert or update on table \"job_attempts\" violates foreign key constraint"
  else none

def JobStatement.effect : JobStatement → JobsDb → JobsDb
  | .select, db => db
  | .updateJobs update, db =>
    { db with jobs := Table.updateWhere (update.selects db) (update.changes db.now) db.jobs }
  | .updateAttempts update, db =>
    { db with attempts := Table.updateWhere update.selects (update.changes db.now) db.attempts }
  | .insertAttempt new, db =>
    match db.refusal new with
    | some _ => db
    | none =>
      { db with
        attempts := db.attempts ++ [new.row db.nextAttempt db.now]
        nextAttempt := db.nextAttempt + 1 }
  | .insertAudit entry, db => { db with audit := db.audit ++ [entry] }
  | .deleteGates jobIds, db =>
    { db with gates := db.gates.filter fun gate => !jobIds.contains gate.jobId }
  | .passTime elapsed, db => { db with now := db.now + elapsed }

@[simp] theorem insertAttempt_jobs (new : NewAttempt) (db : JobsDb) :
    (JobStatement.effect (.insertAttempt new) db).jobs = db.jobs := by
  cases refused : db.refusal new <;> simp [JobStatement.effect, refused]

instance : Statement JobStatement JobsDb where
  ready _ _ := true
  effect := JobStatement.effect

abbrev JobCall := Call JobStatement JobsDb String

def select {α : Type} (query : JobsDb → α) : JobCall α := .perform .select query

def updateJobs (update : JobUpdate) : JobCall (Option Job) :=
  .perform (.updateJobs update) fun db =>
    Table.returning (update.selects db) (update.changes db.now) db.jobs

def updateManyJobs (update : JobUpdate) : JobCall (List JobId) :=
  .perform (.updateJobs update) fun db => (db.jobs.filter (update.selects db)).map (·.id)

def updateAttempts (update : AttemptUpdate) : JobCall (Option JobAttempt) :=
  .perform (.updateAttempts update) fun db =>
    Table.returning update.selects (update.changes db.now) db.attempts

def insertAttempt (new : NewAttempt) : JobCall JobAttempt :=
  .stmt (.insertAttempt new) fun db =>
    match db.refusal new with
    | some error => .raise error
    | none => .ret (new.row db.nextAttempt db.now)

def insertAudit (entry : AuditEntry) : JobCall Unit := .perform (.insertAudit entry) fun _ => ()

def deleteGates (jobIds : List JobId) : JobCall Unit := .perform (.deleteGates jobIds) fun _ => ()

end EveHorizon.Jobs
