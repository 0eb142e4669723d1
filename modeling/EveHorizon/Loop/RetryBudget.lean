import EveHorizon.Library.Visits
import EveHorizon.Loop.GateExclusion
import EveHorizon.Loop.Numbering

/-!
# The retry budget

A retry policy counts attempts by their numbers.
-/

namespace EveHorizon.Loop

open Interleaving List Call Statement System
open Jobs (JobId AttemptId Timestamp Job JobAttempt JobsDb JobStatement JobCall JobOperation RetryPolicy Counted)
open GateOperation (call)

/-! ## Failures that go by the policy -/

def retryable (job : Job) (policy : RetryPolicy) : Bool :=
  let errorCode := job.executionType.getD "agent" ++ "_failed"
  let mentions (word : String) : Bool := decide (word.toList <:+: errorCode.toList)
  match policy.retryableErrors with
  | none => true
  | some errors => errors.contains errorCode ||
      (errors.contains "attempt_timeout" && mentions "timeout") ||
      (errors.contains "attempt_stale" && mentions "stale")

variable {policy : RetryPolicy}

theorem retryDelay_isSome_iff {job : Job} (isPolicy : job.hints.retry = some policy) (attempt : JobAttempt) :
    (retryDelay job attempt).isSome = true ↔
      attempt.attemptNumber < policy.maxAttempts ∧ retryable job policy = true := by
  have same : retryDelay job attempt = if attempt.attemptNumber < policy.maxAttempts ∧ retryable job policy = true then
        some (policy.backoffSeconds * policy.backoffMultiplier ^ (attempt.attemptNumber - 1) * 1000)
      else none := by
    rw [retryDelay, isPolicy]
    rfl
  rw [same]
  split
  · next allowed => exact ⟨fun _ => allowed, fun _ => rfl⟩
  · next refused => exact ⟨fun isSome => (by cases isSome), fun allowed => absurd allowed refused⟩

def isFailure (job : Job) (result : HarnessResult) : Bool :=
  match resolveOrchestrationOutcome result.success result.control with
  | .failed => true
  | .prepared => !job.hints.staged
  | _ => false

variable (attemptId : AttemptId)

def completesAttempt : GateStatement → Bool
  | .loop (.jobs (.updateAttempts (.completed completed _ _ _))) => completed == attemptId
  | _ => false

variable (jobId : JobId)

def executesJob : GateStatement → Bool
  | .execute _ executed _ => executed == jobId
  | _ => false

def requeuesJob : GateStatement → Bool
  | .loop (.jobs (.updateJobs (.requeued requeued _))) => requeued == jobId
  | _ => false

def failsJob : GateStatement → Bool
  | .loop (.jobs (.updateJobs (.closed closed _ .failed))) => closed == jobId
  | _ => false

def JobsDb.isRunning (db : JobsDb) (attemptId : AttemptId) : Bool :=
  db.attempts.any fun row => row.id == attemptId && row.status == .running

def ownCompletion (trace : List (Execution GateStatement GateDb)) (session : Nat)
    (attemptId : AttemptId) : Option Bool :=
  (trace.find? fun execution =>
    execution.session == session && completesAttempt attemptId execution.statement).map
      fun execution => JobsDb.isRunning execution.before.loop.jobs attemptId

structure FailedDispatch (schedule : List (Choice GateOperation))
    (trace : List (Execution GateStatement GateDb)) (session : Nat) (job : Job)
    (attempt : JobAttempt) : Prop where
  dispatched : ∃ newId relevant ttlExpiresAt result, (operations schedule)[session]? =
      some (.dispatchJob newId job attempt relevant ttlExpiresAt (.ok result)) ∧ isFailure job result = true
  finalized : ownCompletion trace session attempt.id = some true

variable (trace : List (Execution GateStatement GateDb))

/-- The session hands the job out again, after a worker has executed it. -/
def Retries (session : Nat) (jobId : JobId) : Prop :=
  ∃ earlier requeue later, trace = earlier ++ requeue :: later ∧ requeue.session = session ∧
    requeuesJob jobId requeue.statement = true ∧ ∃ execution ∈ earlier, execution.session = session ∧
      executesJob jobId execution.statement = true

variable (schedule : List (Choice GateOperation))

/-- The failures of the job that its dispatches finalize are within its policy. -/
def WithinBudget (trace : List (Execution GateStatement GateDb)) (jobId : JobId) (policy : RetryPolicy) : Prop :=
  (∀ session job attempt, FailedDispatch schedule trace session job attempt →
    job.id = jobId → job.hints.retry = some policy → retryable job policy = true →
    ∀ execution ∈ trace, execution.session = session → failsJob jobId execution.statement = true →
      policy.maxAttempts ≤ attempt.attemptNumber ∧
        policy.maxAttempts ≤ JobsDb.attemptCount execution.before.loop.jobs jobId) ∧
  ∀ sessions : List Nat, sessions.Nodup →
    (∀ session ∈ sessions, ∃ job attempt, FailedDispatch schedule trace session job attempt ∧
      job.id = jobId ∧ job.hints.retry = some policy ∧ Retries trace session jobId) →
    sessions.length ≤ policy.maxAttempts - 1

def failsOnWorker : GateOperation → Bool
  | .dispatchJob _ job _ _ _ (.ok result) => isFailure job result
  | .dispatchJob _ _ _ _ _ (.error _) => true
  | _ => false

def executions (jobId : JobId) : Nat :=
  trace.countP fun execution => executesJob jobId execution.statement

def failedExecutions (trace : List (Execution GateStatement GateDb)) (jobId : JobId) : Nat :=
  trace.countP fun execution => executesJob jobId execution.statement &&
    (operations schedule)[execution.session]?.any failsOnWorker

/-- The policy covers the failures of every dispatch of the job. -/
def Budgeted (policy : RetryPolicy) : GateOperation → Prop
  | .dispatchJob _ job _ _ _ _ =>
    job.id = jobId → job.hints.retry = some policy ∧ retryable job policy = true
  | _ => True

instance (jobId : JobId) (policy : RetryPolicy) (operation : GateOperation) :
    Decidable (Budgeted jobId policy operation) := by
  unfold Budgeted
  split <;> infer_instance

def FailsAfterExecutions (history : List (Execution GateStatement GateDb)) (jobId : JobId) (policy : RetryPolicy) :
    Prop :=
  ∀ position execution, history[position]? = some execution → failsJob jobId execution.statement = true →
    (operations schedule)[execution.session]?.any failsOnWorker = true →
      policy.maxAttempts ≤ failedExecutions schedule (history.take (position + 1)) jobId

structure Progress where
  executed : Bool := false
  -- Whether the first completion of the attempt has found it running.
  returned : Option Bool := none

variable (progress : Progress)

def Progress.noteJob : JobStatement → JobsDb → Progress
  | .updateAttempts (.completed completed _ _ _), found =>
    if completed = attemptId ∧ progress.returned = none then
      { progress with returned := some (JobsDb.isRunning found attemptId) }
    else progress
  | _, _ => progress

def Progress.noteLoop : LoopStatement → LoopDb → Progress
  | .jobs statement, found => progress.noteJob attemptId statement found.jobs
  | _, _ => progress

def Progress.note : GateStatement → GateDb → Progress
  | .loop statement, found => progress.noteLoop attemptId statement found.loop
  | .execute _ _ _, _ => { progress with executed := true }
  | _, _ => progress

variable (job : Job) (attempt : JobAttempt)

/-- The attempt was ended by somebody else, or allows no other try. -/
def Progress.Final (progress : Progress) : Prop :=
  progress.returned = some false ∨ progress.returned = some true ∧ (retryDelay job attempt).isSome = false

def Progress.mayJob (progress : Progress) : JobStatement → Prop
  | .updateJobs (.requeued _ _) => progress.executed = true →
      progress.returned = some true ∧ (retryDelay job attempt).isSome = true
  | .updateJobs (.closed _ _ .failed) => progress.Final job attempt
  | _ => True

def Progress.mayLoop (progress : Progress) : LoopStatement → Prop
  | .jobs statement => progress.mayJob job attempt statement
  | _ => True

def Progress.may (progress : Progress) : GateStatement → Prop
  | .loop statement => progress.mayLoop job attempt statement
  | _ => True

open Progress (may mayJob mayLoop note noteJob noteLoop)

section

variable {job : Job} {attempt : JobAttempt} {progress : Progress}

theorem noteLoop_of_returned (returned : progress.returned ≠ none) (attemptId : AttemptId)
    (stmt : LoopStatement) (found : LoopDb) : progress.noteLoop attemptId stmt found = progress := by
  unfold noteLoop
  split
  · unfold noteJob
    split
    · simp [returned]
    · rfl
  · rfl

theorem Progress.Final.returned (final : progress.Final job attempt) : progress.returned ≠ none := by
  rcases final with isFalse | ⟨isTrue, _⟩
  · simp [isFalse]
  · simp [isTrue]

def LoopStatement.keepsBack : LoopStatement → Prop
  | .jobs (.updateJobs (.requeued _ _)) => False
  | _ => True

variable {α : Type} {call : LoopCall α}

theorem final_heeds (issues : call.Issues LoopStatement.keepsBack) (final : progress.Final job attempt) :
    call.Heeds (noteLoop attempt.id) (mayLoop job attempt) (fun reached _ => reached.Final job attempt) progress := by
  refine issues.heeds final (fun stmt memory keeps isFinal => ?_) fun stmt memory found _ isFinal => ?_
  · unfold mayLoop mayJob
    split
    · split
      · cases keeps
      · exact isFinal
      · trivial
    · trivial
  · rw [noteLoop_of_returned isFinal.returned]
    exact isFinal

theorem bills_heeds (issues : call.Issues bills) : call.Heeds (noteLoop attempt.id) (mayLoop job attempt)
      (fun reached _ => reached = progress) progress := by
  refine issues.heeds rfl (fun stmt memory isBill _ => ?_) fun stmt memory found isBill same => ?_
  · cases stmt with
    | select | ledger | writeReceipt => trivial
    | _ => cases isBill
  · cases stmt with
    | select | ledger | writeReceipt => exact same
    | _ => cases isBill

variable {writes : Jobs.Writes}

theorem writes_keepBack {call : JobCall α} (issues : call.Writes writes)
    (others : ∀ jobId deferUntil, ¬ writes.updates (.requeued jobId deferUntil)) :
    (onJobs call).Issues LoopStatement.keepsBack := by
  refine Issues.lift (Issues.imp issues fun stmt allowed => ?_)
  cases stmt with
  | updateJobs update =>
    cases update with
    | requeued jobId deferUntil => exact others jobId deferUntil allowed
    | _ => trivial
  | _ => trivial

theorem markJobDone_keepsBack (jobId : JobId) (summary : Option String) :
    (onJobs (Jobs.markJobDone jobId summary)).Issues LoopStatement.keepsBack :=
  writes_keepBack (Jobs.markJobDone_writes jobId summary)
    (by simp [Jobs.doneWrites, Jobs.submitWrites, Jobs.phaseWrites])

theorem markJobFailed_keepsBack (jobId : JobId) (reason : Option String) :
    (onJobs (Jobs.markJobFailed jobId reason)).Issues LoopStatement.keepsBack :=
  writes_keepBack (Jobs.markJobFailed_writes jobId reason) (by simp [Jobs.closingWrites])

theorem bills_keepsBack {stmt : LoopStatement} (isBill : bills stmt) : stmt.keepsBack := by
  cases stmt with
  | select | ledger | writeReceipt => trivial
  | _ => cases isBill

theorem externallyFinalized_keepsBack (result : HarnessResult) :
    (externallyFinalized job result).Issues LoopStatement.keepsBack := by
  have finishes : ∀ latestAttempt,
      (externallyFinalized.finish job result latestAttempt).Issues LoopStatement.keepsBack := by
    intro latestAttempt
    rw [externallyFinalized.finish]
    split
    · exact (markJobDone_keepsBack job.id none).bind fun _ => trivial
    · exact (markJobFailed_keepsBack job.id _).bind fun _ => trivial
  refine ⟨trivial, fun _ => ⟨trivial, fun found => ?_⟩⟩
  dsimp only [Call.lift, Call.bind]
  split
  · split
    · trivial
    · exact finishes _
  · exact finishes _

variable (assemble : AssembleReceipt) (toLowerCase : String → String) (session : Nat) (transactionId : String)

theorem handleProcessJobError_keepsBack (message : String) :
    (handleProcessJobError assemble toLowerCase session transactionId job attempt message).Issues
      LoopStatement.keepsBack := by
  refine Issues.bind ?_ fun closed => ?_
  · refine Issues.handle ⟨trivial, fun found => ?_⟩ fun _ => by trivial
    dsimp only [Call.lift, Call.bind]
    split
    · exact ⟨trivial, fun _ => by trivial⟩
    · next completedAttempt _ =>
      have receipt := (tryPersistAttemptReceipt_bills assemble job completedAttempt).imp fun _ => bills_keepsBack
      have charge := (chargeForReceipt_bills toLowerCase session transactionId job completedAttempt).imp
        fun _ => bills_keepsBack
      refine receipt.bind fun _ => Issues.bind ?_ fun _ => by trivial
      exact charge.handle fun _ => by trivial
  · split
    · trivial
    · exact (markJobFailed_keepsBack job.id _).bind fun _ => trivial

theorem tryPersistAttemptReceipt_noRaise (completedAttempt : JobAttempt) :
    (tryPersistAttemptReceipt assemble job completedAttempt).NoRaise fun _ _ => True := by
  rw [tryPersistAttemptReceipt]
  split
  · trivial
  · split
    · trivial
    · intro found _
      dsimp only [Call.bind]
      split
      · trivial
      · intro store _
        dsimp only [Call.bind]
        split
        · trivial
        · exact noRaise_perform

theorem billing_heeds {rest : LoopCall α} {post : Progress → Except String α → Prop} (completedAttempt : JobAttempt)
    (continues : rest.Heeds (noteLoop attempt.id) (mayLoop job attempt) post progress) :
    (tryPersistAttemptReceipt assemble job completedAttempt >>= fun _ =>
      tryChargeForReceipt toLowerCase session transactionId job completedAttempt >>= fun _ =>
        rest).Heeds (noteLoop attempt.id) (mayLoop job attempt) post progress := by
  have bill : ∀ {call : LoopCall Unit}, call.Issues bills → call.NoRaise (fun _ _ => True) →
      call.Heeds (noteLoop attempt.id) (mayLoop job attempt)
        (fun reached ended => reached = progress ∧ ended.isOk = true) progress :=
    fun issues safe => safe.heeds (bills_heeds issues)
  have persists := bill (tryPersistAttemptReceipt_bills assemble job completedAttempt)
    (tryPersistAttemptReceipt_noRaise assemble completedAttempt)
  have charged : (tryChargeForReceipt toLowerCase session transactionId job completedAttempt).Issues bills :=
    (chargeForReceipt_bills toLowerCase session transactionId job completedAttempt).handle
      fun _ => trivial
  have caught : (tryChargeForReceipt toLowerCase session transactionId job completedAttempt).NoRaise
      fun _ _ => True := Call.NoRaise.handle fun _ => trivial
  have charges := bill charged caught
  refine persists.bind (fun _ reached same => ?_) fun _ _ ended => by cases ended.2
  rw [same.1]
  refine charges.bind (fun _ reached same => ?_) fun _ _ ended => by cases ended.2
  rw [same.1]
  exact continues

theorem applyOutcome_heeds (result : HarnessResult) {outcome : ControlStatus}
    (failed : outcome = .failed ∨ outcome = .prepared ∧ job.hints.staged = false)
    (returned : progress.returned = some true) :
    (applyOutcome job attempt result outcome).Heeds (noteLoop attempt.id) (mayLoop job attempt)
      (fun reached ended => reached.Final job attempt ∨ ended.isOk = true) progress := by
  have isFailing : ¬ (outcome = .prepared ∧ job.hints.staged = true) := by
    rintro ⟨isPrepared, isStaged⟩
    rcases failed with isFailed | ⟨_, unstaged⟩
    · rw [isPrepared] at isFailed
      cases isFailed
    · rw [isStaged] at unstaged
      cases unstaged
  have same : applyOutcome job attempt result outcome = applyOutcome job attempt result .failed := by
    unfold applyOutcome
    rw [if_neg isFailing, if_neg (by rintro ⟨⟨⟩, _⟩)]
    rcases failed with rfl | ⟨rfl, _⟩
    · rfl
    · rfl
  rw [same]
  unfold applyOutcome
  rw [if_neg (by rintro ⟨⟨⟩, _⟩)]
  cases isDelay : retryDelay job attempt with
  | none =>
    have final : progress.Final job attempt := .inr ⟨returned, by rw [isDelay]; rfl⟩
    have closes := final_heeds (markJobFailed_keepsBack job.id result.error) final
    exact closes.bind (fun _ _ isFinal => .inl isFinal) fun _ _ isFinal => .inl isFinal
  | some delay =>
    refine ⟨trivial, fun _ => ⟨trivial, fun found => ?_⟩⟩
    dsimp only [Call.lift, Call.bind]
    split
    · exact .inr rfl
    · refine ⟨fun _ => ⟨returned, by rw [isDelay]; rfl⟩, fun _ => ⟨trivial, fun _ => ?_⟩⟩
      exact .inr rfl

theorem running_of_returning {found : JobsDb} {attemptId : AttemptId} {outcome : Jobs.Outcome}
    {result : Jobs.AttemptResult} {update : Jobs.AttemptUpdate}
    (isUpdate : update = .completed attemptId outcome.status result outcome.status_final) :
    JobsDb.isRunning found attemptId =
      (Table.returning update.selects (update.changes found.now) found.attempts).isSome := by
  subst isUpdate
  rw [Table.returning, Option.isSome_map, JobsDb.isRunning]
  exact (isSome_find? ..).symm

variable {result : HarnessResult}

theorem completeAndFinalize_heeds (failed : isFailure job result = true) :
    (completeAndFinalize assemble toLowerCase session transactionId job attempt result).Heeds
      (noteLoop attempt.id) (mayLoop job attempt)
      (fun reached ended => reached.Final job attempt ∨ ended.isOk = true) { executed := true } := by
  have isFailed : resolveOrchestrationOutcome result.success result.control = .failed ∨
      resolveOrchestrationOutcome result.success result.control = .prepared ∧ job.hints.staged = false := by
    rw [isFailure] at failed
    split at failed
    · next isOutcome => exact .inl isOutcome
    · next isOutcome => exact .inr ⟨isOutcome, by simpa using failed⟩
    · cases failed
  refine ⟨trivial, fun found => ?_⟩
  have noted : (noteLoop attempt.id { executed := true } (.jobs (.updateAttempts
      (.completed attempt.id (attemptOutcome (resolveOrchestrationOutcome result.success
        result.control)).status result.stored (Jobs.Outcome.status_final _)))) found) =
      { executed := true, returned := some (JobsDb.isRunning found.jobs attempt.id) } := by
    simp [noteLoop, noteJob]
  rw [noted, running_of_returning rfl]
  dsimp only [Call.lift, Call.bind]
  split
  · next isNone =>
    rw [isNone]
    exact (final_heeds (externallyFinalized_keepsBack result) (.inl rfl)).imp fun _ _ final => .inl final
  · next completedAttempt isSome =>
    rw [isSome]
    refine billing_heeds assemble toLowerCase session transactionId completedAttempt ?_
    exact applyOutcome_heeds result isFailed rfl

theorem processJob_heeds (newId : Nat → String) (failed : isFailure job result = true) :
    (processJob assemble toLowerCase session newId job attempt (.ok result)).Heeds
      (noteLoop attempt.id) (mayLoop job attempt) (fun _ _ => True) { executed := true } := by
  refine (completeAndFinalize_heeds assemble toLowerCase session (newId 0) failed).handle
    (fun _ _ _ => trivial) fun message reached ended => ?_
  rcases ended with final | isOk
  · exact (final_heeds (handleProcessJobError_keepsBack assemble toLowerCase session (newId 1)
      message) final).imp fun _ _ _ => trivial
  · cases isOk

theorem noteLoop_executed (attemptId : AttemptId) (progress : Progress) (stmt : LoopStatement) (found : LoopDb) :
    (progress.noteLoop attemptId stmt found).executed = progress.executed := by
  unfold noteLoop
  split
  · unfold noteJob
    split
    · split <;> rfl
    · rfl
  · rfl

theorem preparing_heeds {call : GateCall α} (issues : call.Issues (GateStatement.prepares job.id))
    (waits : progress.executed = false) : call.Heeds (note attempt.id) (may job attempt)
      (fun reached _ => reached.executed = false) progress := by
  refine issues.heeds waits (fun stmt memory prepares waiting => ?_)
    fun stmt memory found prepares waiting => ?_
  · cases stmt with
    | loop stmt =>
      change memory.mayLoop job attempt stmt
      unfold mayLoop mayJob
      split
      · split
        · exact fun executed => absurd (waiting.symm.trans executed) nofun
        · obtain ⟨deferUntil, ⟨⟩⟩ := prepares
        · trivial
      · trivial
    | _ => trivial
  · cases stmt with
    | loop stmt => exact (noteLoop_executed _ _ _ _).trans waiting
    | execute dispatch jobId relevant => cases prepares
    | _ => exact waiting

theorem acquiring_heeds {call : GateCall α} (issues : call.Issues GateStatement.acquires) :
    call.Heeds (note attempt.id) (may job attempt) (fun reached _ => reached = progress) progress := by
  refine issues.heeds rfl (fun stmt memory acquires _ => ?_)
    fun stmt memory found acquires same => ?_
  · cases stmt with
    | loop stmt =>
      cases stmt with
      | select => trivial
      | _ => cases acquires
    | _ => trivial
  · cases stmt with
    | loop stmt =>
      cases stmt with
      | select => exact same
      | _ => cases acquires
    | execute dispatch jobId relevant => cases acquires
    | _ => exact same

theorem acquireJobGates_heeds (dispatch : Nat) (requiredGates : List String) (ttlExpiresAt : Timestamp) :
    (acquireJobGates dispatch job attempt requiredGates ttlExpiresAt).Heeds (note attempt.id) (may job attempt)
      (fun reached ended => ended = .ok .acquired → reached = {}) {} := by
  rw [acquireJobGates]
  split
  · exact fun _ => rfl
  · refine (acquiring_heeds (acquireGates_acquires _ _ _ _)).bind (fun gateResult reached same => ?_)
      fun _ _ _ ended => by cases ended
    rw [same]
    split
    · exact ⟨trivial, fun _ _ => rfl⟩
    · refine ⟨trivial, fun _ => ⟨trivial, fun found => ⟨trivial, fun store => ?_⟩⟩⟩
      have requeues : (onLoop (onJobs (Jobs.requeueReady job.id "orchestrator"
          (some (some (store.now + waitingBackoffMs))) (some "Blocked on gates")))).Issues
            (GateStatement.prepares job.id) :=
        onLoop_onJobs_issues (requeueReady_prepares _ _ _ _)
      refine (preparing_heeds requeues ?_).bind (fun _ _ _ ended => by cases ended)
        fun _ _ _ ended => by cases ended
      simp only [note, noteLoop_executed]

def LoopStatement.tidies : LoopStatement → Prop
  | .jobs (.updateJobs (.requeued _ _)) => False
  | .jobs (.updateJobs (.closed _ _ .failed)) => False
  | _ => True

theorem writes_tidy {call : JobCall α} (issues : call.Writes writes)
    (requeues : ∀ jobId deferUntil, ¬ writes.updates (.requeued jobId deferUntil))
    (fails : ∀ jobId reason, ¬ writes.updates (.closed jobId reason .failed)) :
    (onJobs call).Issues LoopStatement.tidies := by
  refine Issues.lift (Issues.imp issues fun stmt allowed => ?_)
  cases stmt with
  | updateJobs update =>
    cases update with
    | requeued jobId deferUntil => exact requeues jobId deferUntil allowed
    | closed jobId reason disposition =>
      cases disposition with
      | failed => exact fails jobId reason allowed
      | _ => trivial
    | _ => trivial
  | _ => trivial

theorem closeRootOf_tidies (parent : Option JobId) : (closeRootOf parent).Issues LoopStatement.tidies := by
  have closes : ∀ parentId, (closeWorkflowRoot parentId).Issues LoopStatement.tidies := by
    intro parentId
    refine ⟨trivial, fun found => ?_⟩
    dsimp only [Call.lift, Call.bind]
    split
    · trivial
    · split
      · trivial
      · refine ⟨trivial, fun store => ?_⟩
        dsimp only [Call.bind]
        split
        · trivial
        · split
          · refine Issues.bind ?_ fun _ => by trivial
            exact writes_tidy (Jobs.markJobDone_writes parentId none)
              (by simp [Jobs.doneWrites, Jobs.submitWrites, Jobs.phaseWrites])
              (by simp [Jobs.doneWrites, Jobs.submitWrites, Jobs.phaseWrites])
          · refine Issues.bind ?_ fun _ => by trivial
            exact writes_tidy (Jobs.cancelJob_writes parentId _) (by simp [Jobs.closingWrites])
              (by simp [Jobs.closingWrites])
  cases parent with
  | none => trivial
  | some parentId => exact (closes parentId).handle fun _ => by trivial

theorem tidying_heeds (issues : call.Issues LoopStatement.tidies) :
    (onLoop call).Heeds (note attempt.id) (may job attempt) (fun _ _ => True) progress := by
  have tidies : (onLoop call).Issues fun stmt => ∃ issued, stmt = .loop issued ∧
      issued.tidies := onLoop_issues (issues.imp fun issued tidy => ⟨issued, rfl, tidy⟩)
  refine tidies.heeds trivial (fun stmt memory isIssued _ => ?_) fun _ _ _ _ _ => trivial
  obtain ⟨issued, rfl, tidy⟩ := isIssued
  change memory.mayLoop job attempt issued
  unfold mayLoop mayJob
  split
  · split
    · cases tidy
    · cases tidy
    · trivial
  · trivial

theorem releaseJobResources_heeds (requiredGates : List String) (outcome : GateOutcome) :
    (releaseJobResources job requiredGates outcome).Heeds (note attempt.id)
      (may job attempt) (fun _ _ => True) progress := by
  have released : (if requiredGates = [] then .ret () else
      onLoop (onJobs (Jobs.deleteGates [job.id])) : GateCall Unit).Heeds
        (note attempt.id) (may job attempt) (fun _ _ => True) progress := by
    split
    · trivial
    · exact tidying_heeds (issues_perform trivial)
  refine released.bind (fun _ reached _ => ?_) fun _ _ _ => trivial
  cases outcome with
  | blocked => trivial
  | acquired => exact tidying_heeds (closeRootOf_tidies job.parentId)

theorem processGatedJob_heeds (dispatch : Nat) (newId : Nat → String) (relevant : GateRelevantJob)
    (ttlExpiresAt : Timestamp) (failed : isFailure job result = true) :
    (processGatedJob assemble toLowerCase dispatch newId job attempt relevant ttlExpiresAt
      (.ok result)).Heeds (note attempt.id) (may job attempt) (fun _ _ => True) {} := by
  refine (acquireJobGates_heeds dispatch _ ttlExpiresAt).bind (fun outcome reached acquired => ?_)
    fun _ _ _ => trivial
  have executes : (executeJob assemble toLowerCase dispatch newId job attempt relevant (.ok result)
      outcome).Heeds (note attempt.id) (may job attempt) (fun _ _ => True)
      reached := by
    cases outcome with
    | blocked => trivial
    | acquired =>
      rw [acquired rfl]
      refine ⟨trivial, fun _ => ⟨trivial, fun _ => ?_⟩⟩
      have finalizes : (processJob assemble toLowerCase dispatch newId job attempt
          (.ok result)).Heeds (noteLoop attempt.id)
          (fun reached stmt => may job attempt reached (.loop stmt))
          (fun _ _ => True) { executed := true } :=
        processJob_heeds assemble toLowerCase dispatch newId failed
      have processes : (onLoop (processJob assemble toLowerCase dispatch newId job attempt
          (.ok result))).Heeds (note attempt.id) (may job attempt)
          (fun _ _ => True) { executed := true } :=
        Call.Heeds.lift finalizes fun _ _ _ => rfl
      exact processes.handle (fun _ _ _ => trivial) fun _ _ _ => trivial
  exact executes.bind (fun _ _ _ => releaseJobResources_heeds _ outcome) fun _ _ _ => trivial

end

/-! ## What a session has done so far -/

variable (attemptId : AttemptId)

theorem note_returned (progress : Progress) (stmt : GateStatement) (found : GateDb) :
    (progress.note attemptId stmt found).returned =
      if completesAttempt attemptId stmt = true ∧ progress.returned = none then
        some (JobsDb.isRunning found.loop.jobs attemptId) else progress.returned := by
  cases stmt with
  | loop stmt =>
    cases stmt with
    | jobs stmt =>
      cases stmt with
      | updateAttempts update =>
        cases update with
        | completed completed status result isFinal =>
          simp only [note, noteLoop, noteJob, completesAttempt, beq_iff_eq]
          split <;> rfl
        | _ => simp [note, noteLoop, noteJob, completesAttempt]
      | _ => simp [note, noteLoop, noteJob, completesAttempt]
    | _ => simp [note, noteLoop, completesAttempt]
  | _ => simp [note, completesAttempt]

theorem progress_returned (steps : List (GateStatement × GateDb)) (start : Progress) :
    (steps.foldl (fun progress step => progress.note attemptId step.1 step.2) start).returned =
      (start.returned <|> (steps.find? fun step => completesAttempt attemptId step.1).map
        fun step => JobsDb.isRunning step.2.loop.jobs attemptId) := by
  induction steps generalizing start with
  | nil => simp
  | cons step rest ih =>
    rw [foldl_cons, ih, find?_cons, note_returned]
    cases start.returned <;> cases completesAttempt attemptId step.1 <;> simp

theorem note_executed (progress : Progress) (stmt : GateStatement) (found : GateDb)
    (executed : progress.executed = true) : (progress.note attemptId stmt found).executed = true := by
  cases stmt with
  | loop stmt => exact (noteLoop_executed _ _ _ _).trans executed
  | execute dispatch jobId relevant => rfl
  | _ => exact executed

theorem progress_executed {jobId : JobId} {steps : List (GateStatement × GateDb)} {start : Progress}
    (executes : start.executed = true ∨ ∃ step ∈ steps, executesJob jobId step.1 = true) :
    (steps.foldl (fun progress step => progress.note attemptId step.1 step.2) start).executed = true := by
  induction steps generalizing start with
  | nil =>
    rcases executes with executed | ⟨step, member, _⟩
    · exact executed
    · cases member
  | cons step rest ih =>
    apply ih
    rcases executes with executed | ⟨other, member, isExecute⟩
    · exact .inl (note_executed _ _ _ _ executed)
    · cases member with
      | head =>
        obtain ⟨stmt, found⟩ := step
        cases stmt with
        | execute dispatch executed relevant => exact .inl rfl
        | _ => cases isExecute
      | tail _ member => exact .inr ⟨other, member, isExecute⟩

theorem ownCompletion_eq (trace : List (Execution GateStatement GateDb)) (session : Nat) (attemptId : AttemptId) :
    ownCompletion trace session attemptId =
      ((stepsIn trace session).find? fun step => completesAttempt attemptId step.1).map
        fun step => JobsDb.isRunning step.2.loop.jobs attemptId := by
  rw [ownCompletion, stepsIn, find?_map, find?_filter, Option.map_map]
  congr 2
  funext execution
  rw [Bool.eq_iff_iff]
  simp

variable {earlier : List (Execution GateStatement GateDb)} {session : Nat}

theorem ownCompletion_append {attemptId : AttemptId} {ran : Bool}
    (found : ownCompletion earlier session attemptId = some ran) (later : List (Execution GateStatement GateDb)) :
    ownCompletion (earlier ++ later) session attemptId = some ran := by
  rw [ownCompletion, Option.map_eq_some_iff] at found
  obtain ⟨execution, isFirst, isRan⟩ := found
  rw [ownCompletion, find?_append, isFirst]
  exact congrArg some isRan

theorem mem_of_ownCompletion {trace : List (Execution GateStatement GateDb)} {attemptId : AttemptId}
    (found : ownCompletion trace session attemptId = some true) :
    ∃ execution ∈ trace, execution.session = session ∧ completesAttempt attemptId execution.statement = true ∧
      JobsDb.isRunning execution.before.loop.jobs attemptId = true := by
  rw [ownCompletion, Option.map_eq_some_iff] at found
  obtain ⟨execution, isFirst, isRan⟩ := found
  have isOwn := find?_some isFirst
  rw [Bool.and_eq_true, beq_iff_eq] at isOwn
  exact ⟨execution, mem_of_find?_eq_some isFirst, isOwn.1, isOwn.2, isRan⟩

section

variable (assemble : AssembleReceipt) (toLowerCase : String → String) {db : GateDb}
  {schedule : List (Choice GateOperation)} {execution : Execution GateStatement GateDb}
  {later : List (Execution GateStatement GateDb)}

theorem dispatch_may {session : Nat} {newId : Nat → String} {job : Job} {attempt : JobAttempt}
    {relevant : GateRelevantJob} {ttlExpiresAt : Timestamp} {result : HarnessResult}
    (named : (operations schedule)[session]? = some (.dispatchJob newId job attempt relevant ttlExpiresAt (.ok result)))
    (failed : isFailure job result = true) (own : execution.session = session)
    (split : (runGates assemble toLowerCase db schedule).trace = earlier ++ execution :: later) :
    ∃ progress : Progress, progress.may job attempt execution.statement ∧
      progress.returned = ownCompletion earlier session attempt.id ∧ ((∃ started ∈ earlier, started.session = session ∧
        executesJob job.id started.statement = true) → progress.executed = true) := by
  subst own
  have heeds : ∀ operation, (operations schedule)[execution.session]? = some operation →
      (operation.call assemble toLowerCase execution.session).Heeds (note attempt.id)
        (may job attempt) (fun _ _ => True) {} := by
    intro operation isOperation
    rw [named] at isOperation
    cases isOperation
    exact processGatedJob_heeds assemble toLowerCase execution.session newId relevant ttlExpiresAt failed
  refine ⟨_, run_heeds _ db schedule heeds split, ?_, ?_⟩
  · rw [progress_returned, ownCompletion_eq]
    rfl
  · intro started
    obtain ⟨begun, member, same, isExecute⟩ := started
    have own : (begun.statement, begun.before) ∈ stepsIn earlier execution.session :=
      mem_map_of_mem (mem_filter.mpr ⟨member, by simpa using same⟩)
    exact progress_executed attempt.id (.inr ⟨_, own, isExecute⟩)

/-! ## Attempts are completed once -/

def EndedIn (attemptId : AttemptId) (db : GateDb) : Prop := Ended db.loop.jobs attemptId

def NumberedGates (db : GateDb) : Prop := Numbered db.loop

variable {attemptId : AttemptId} {db : GateDb}

omit assemble toLowerCase in
theorem endedIn_effect (ended : EndedIn attemptId db) (stmt : GateStatement) :
    EndedIn attemptId (effect stmt db) := by
  cases stmt with
  | loop stmt => exact ended_loop_effect ended stmt
  | upsert dispatch jobId gateKey ttlExpiresAt =>
    simp only [effect, GateStatement.effect]
    split
    · exact ⟨ended.known, ended.final⟩
    · exact ⟨ended.known, ended.final⟩
  | _ => exact ⟨ended.known, ended.final⟩

variable {stmt : GateStatement}

section

variable (numbered : NumberedGates db)
include numbered

omit assemble toLowerCase in
theorem numberedGates_effect (stmt : GateStatement) : NumberedGates (effect stmt db) := by
  have same : ∀ {other : GateDb}, other.loop.jobs.attempts = db.loop.jobs.attempts →
      other.loop.jobs.nextAttempt = db.loop.jobs.nextAttempt → NumberedGates other := by
    intro other attempts next
    constructor
    · rw [attempts]
      exact numbered.distinct
    · rw [attempts, next]
      exact numbered.numbered
    · rw [attempts]
      exact numbered.unended
  cases stmt with
  | loop stmt => exact numbered_effect numbered stmt
  | upsert dispatch jobId gateKey ttlExpiresAt =>
    simp only [effect, GateStatement.effect]
    split
    · exact same rfl rfl
    · exact same rfl rfl
  | _ => exact same rfl rfl

omit assemble toLowerCase in
theorem ended_of_completion (completes : completesAttempt attemptId stmt = true)
    (running : JobsDb.isRunning db.loop.jobs attemptId = true) : EndedIn attemptId (effect stmt db) := by
  obtain ⟨old, member, isOld⟩ := any_eq_true.mp running
  rw [Bool.and_eq_true, beq_iff_eq, beq_iff_eq] at isOld
  unfold completesAttempt at completes
  split at completes
  · next completed status result isFinal =>
    cases beq_iff_eq.mp completes
    refine ⟨isOld.1 ▸ numbered.numbered old member, fun row present same => ?_⟩
    obtain ⟨earlier, kept, ⟨_, rfl⟩ | ⟨skipped, rfl⟩⟩ := Table.mem_updateWhere present
    · exact isFinal
    · have equal : row = old := inj_on_of_nodup_map numbered.distinct kept member (same.trans isOld.1.symm)
      simp [Jobs.AttemptUpdate.selects, equal, isOld.1, isOld.2] at skipped
  · cases completes

theorem numbered_throughout : NumberedGates (runGates assemble toLowerCase db schedule).store ∧
      ∀ execution ∈ (runGates assemble toLowerCase db schedule).trace,
        NumberedGates execution.before ∧ NumberedGates execution.after := by
  refine run_invariant _ numbered schedule fun execution member holds => ?_
  rw [(run_executes _ db schedule execution member).2]
  exact numberedGates_effect holds execution.statement

variable {second first : Execution GateStatement GateDb}

theorem completed_once {middle : List (Execution GateStatement GateDb)}
    (split : (runGates assemble toLowerCase db schedule).trace = earlier ++ first :: middle ++ second :: later)
    (completes : completesAttempt attemptId first.statement = true)
    (running : JobsDb.isRunning first.before.loop.jobs attemptId = true) :
    JobsDb.isRunning second.before.loop.jobs attemptId = false := by
  have member : first ∈ (runGates assemble toLowerCase db schedule).trace := by
    rw [split]
    simp
  obtain ⟨before, _⟩ := (numbered_throughout assemble toLowerCase numbered).2 first member
  have ended : EndedIn attemptId second.before :=
    run_stretch _ db schedule split (ended_of_completion before completes running)
      fun _ _ holds => endedIn_effect holds _
  rw [JobsDb.isRunning, any_eq_false]
  intro row present isRow
  rw [Bool.and_eq_true, beq_iff_eq, beq_iff_eq] at isRow
  have final := ended.final row present isRow.1
  rw [isRow.2] at final
  cases final

theorem session_of_completion (isFirst : first ∈ (runGates assemble toLowerCase db schedule).trace)
    (isSecond : second ∈ (runGates assemble toLowerCase db schedule).trace)
    (firstCompletes : completesAttempt attemptId first.statement = true)
    (firstRunning : JobsDb.isRunning first.before.loop.jobs attemptId = true)
    (secondCompletes : completesAttempt attemptId second.statement = true)
    (secondRunning : JobsDb.isRunning second.before.loop.jobs attemptId = true) : first.session = second.session := by
  obtain ⟨earlier, later, split⟩ := append_of_mem isFirst
  rw [split] at isSecond
  rcases mem_append.mp isSecond with before | after
  · obtain ⟨front, middle, rfl⟩ := append_of_mem before
    rw [completed_once assemble toLowerCase numbered split secondCompletes secondRunning] at firstRunning
    cases firstRunning
  · cases after with
    | head => rfl
    | tail _ after =>
      obtain ⟨middle, rest, rfl⟩ := append_of_mem after
      rw [← cons_append, ← append_assoc] at split
      rw [completed_once assemble toLowerCase numbered split firstCompletes firstRunning] at secondRunning
      cases secondRunning

end

omit assemble toLowerCase in
def Handed (system : System GateStatement GateDb String Unit) : Choice GateOperation → Prop
  | .start (.dispatchJob _ job attempt _ _ _) =>
    attempt.key ∈ system.store.attemptKeys ∧ attempt.jobId = job.id
  | _ => True

omit assemble toLowerCase in
instance (system : System GateStatement GateDb String Unit) (choice : Choice GateOperation) :
    Decidable (Handed system choice) := by
  unfold Handed
  split <;> infer_instance

variable {system : System GateStatement GateDb String Unit} {keys : List (AttemptId × JobId × Nat)}

theorem move_holds (holds : Holds keys system.store) (choice : Choice GateOperation) :
    Holds keys (system.move (call assemble toLowerCase) choice).store :=
  move_induction _ (fun other => Holds keys other.store) holds choice (fun _ _ => holds)
    (fun _ _ _ _ => holds) fun _ _ stmt _ _ _ => holds_effect holds stmt

theorem play_holds (schedule : List (Choice GateOperation)) (holds : Holds keys system.store) :
    Holds keys (system.play (call assemble toLowerCase) schedule).store :=
  play_induction _ (fun other => Holds keys other.store)
    (fun _ choice kept => move_holds assemble toLowerCase kept choice) schedule system holds

theorem handed_stored {schedule : List (Choice GateOperation)}
    (handed : ∀ visit ∈ visits (System.move (call assemble toLowerCase)) system schedule,
      Handed visit.1 visit.2) {newId : Nat → String} {job : Job} {attempt : JobAttempt}
    {relevant : GateRelevantJob} {ttlExpiresAt : Timestamp} {worker : Except String HarnessResult}
    (started : .dispatchJob newId job attempt relevant ttlExpiresAt worker ∈ operations schedule) :
    attempt.key ∈ (system.play (call assemble toLowerCase) schedule).store.attemptKeys ∧ attempt.jobId = job.id := by
  induction schedule generalizing system with
  | nil => cases started
  | cons choice rest ih =>
    rw [visits, forall_mem_cons] at handed
    cases choice with
    | advance position => exact ih handed.2 started
    | start operation =>
      rcases mem_cons.mp started with rfl | later
      · obtain ⟨stored, ofJob⟩ := handed.1
        have own : Holds system.store.attemptKeys system.store := prefix_refl _
        have kept := play_holds assemble toLowerCase rest
          (move_holds assemble toLowerCase own (.start (.dispatchJob newId job attempt relevant ttlExpiresAt worker)))
        exact ⟨kept.subset stored, ofJob⟩
      · exact ih handed.2 later

theorem final_holds (member : execution ∈ (runGates assemble toLowerCase db schedule).trace) :
    Holds execution.before.attemptKeys (runGates assemble toLowerCase db schedule).store := by
  refine run_history _ (fun history final => ∀ execution ∈ history,
    Holds execution.before.attemptKeys final) (by simp) ?_ schedule execution member
  intro history session stmt before kept _ execution member
  rcases mem_append.mp member with old | new
  · exact holds_effect (kept execution old) stmt
  · rw [mem_singleton.mp new]
    have own : Holds before.attemptKeys before := prefix_refl _
    exact holds_effect own stmt

theorem counted_final (counted : CountedGates db) : CountedGates (runGates assemble toLowerCase db schedule).store := by
  refine (run_invariant _ counted schedule fun execution member _ => ?_).1
  rw [(run_executes _ db schedule execution member).2]
  exact (counted_throughout assemble toLowerCase counted schedule execution member).2

section

variable {assemble toLowerCase} {session : Nat} {job : Job} {attempt : JobAttempt} {jobId : JobId}

omit assemble toLowerCase in
theorem final_of_may {progress : Progress} (fails : failsJob jobId stmt = true)
    (may : progress.may job attempt stmt) : progress.Final job attempt := by
  unfold failsJob at fails
  split at fails
  · exact may
  · cases fails

omit assemble toLowerCase in
theorem key_of_id {db : GateDb} (numbered : NumberedGates db) {first second : AttemptId × JobId × Nat}
    (isFirst : first ∈ db.attemptKeys) (isSecond : second ∈ db.attemptKeys)
    (same : first.1 = second.1) : first = second := by
  have distinct : (db.attemptKeys.map Prod.fst).Nodup := by
    rw [GateDb.attemptKeys, JobsDb.attemptKeys, map_map]
    exact numbered.distinct
  exact inj_on_of_nodup_map distinct isFirst isSecond same

omit assemble toLowerCase in
theorem retry_of_may {progress : Progress} (requeues : requeuesJob jobId stmt = true)
    (may : progress.may job attempt stmt) (executed : progress.executed = true) :
    (retryDelay job attempt).isSome = true := by
  unfold requeuesJob at requeues
  split at requeues
  · exact (may executed).2
  · cases requeues

section

variable (failed : FailedDispatch schedule (runGates assemble toLowerCase db schedule).trace session job attempt)
include failed

theorem FailedDispatch.stored (handed : ∀ visit ∈ visits (System.move (call assemble toLowerCase))
      (System.initial db) schedule, Handed visit.1 visit.2) :
    attempt.key ∈ (runGates assemble toLowerCase db schedule).store.attemptKeys ∧ attempt.jobId = job.id := by
  obtain ⟨newId, relevant, ttlExpiresAt, result, named, _⟩ := failed.dispatched
  exact handed_stored assemble toLowerCase handed (mem_of_getElem? named)

omit failed in
theorem FailedDispatch.exhausted (counted : CountedGates db) (numbered : NumberedGates db)
    (handed : ∀ visit ∈ visits (System.move (call assemble toLowerCase)) (System.initial db) schedule,
      Handed visit.1 visit.2)
    (failed : FailedDispatch schedule (runGates assemble toLowerCase db schedule).trace session job attempt)
    (isPolicy : job.hints.retry = some policy) (isRetryable : retryable job policy = true)
    (member : execution ∈ (runGates assemble toLowerCase db schedule).trace) (own : execution.session = session)
    (fails : failsJob jobId execution.statement = true) :
    policy.maxAttempts ≤ attempt.attemptNumber ∧
      attempt.attemptNumber ≤ JobsDb.attemptCount execution.before.loop.jobs job.id := by
  obtain ⟨newId, relevant, ttlExpiresAt, result, named, isFailure⟩ := failed.dispatched
  obtain ⟨earlier, later, split⟩ := append_of_mem member
  obtain ⟨progress, may, returned, _⟩ := dispatch_may assemble toLowerCase named isFailure own split
  have final : progress.Final job attempt := final_of_may fails may
  have notEnded : progress.returned ≠ some false := by
    intro ended
    rw [returned] at ended
    have other := ownCompletion_append ended (execution :: later)
    rw [← split, failed.finalized] at other
    cases other
  obtain ⟨isTrue, exhausted⟩ := final.resolve_left notEnded
  have number : policy.maxAttempts ≤ attempt.attemptNumber := by
    by_contra below
    rw [(retryDelay_isSome_iff isPolicy attempt).mpr ⟨Nat.lt_of_not_le below, isRetryable⟩] at exhausted
    cases exhausted
  refine ⟨number, ?_⟩
  rw [returned] at isTrue
  obtain ⟨completion, isEarlier, _, _, running⟩ := mem_of_ownCompletion isTrue
  obtain ⟨row, present, isRow⟩ := any_eq_true.mp running
  rw [Bool.and_eq_true, beq_iff_eq] at isRow
  obtain ⟨front, middle, rfl⟩ := append_of_mem isEarlier
  have found : row.key ∈ execution.before.attemptKeys :=
    (run_holds assemble toLowerCase split).subset (mem_map_of_mem present)
  have atEnd : row.key ∈ (runGates assemble toLowerCase db schedule).store.attemptKeys :=
    (final_holds assemble toLowerCase member).subset found
  obtain ⟨stored, ofJob⟩ := failed.stored handed
  have same : row.key = attempt.key :=
    key_of_id (numbered_throughout assemble toLowerCase numbered).1 atEnd stored isRow.1
  have within := (counted_throughout assemble toLowerCase counted schedule execution member).1.counted _ found
  rw [same] at within
  simpa [JobAttempt.key, ofJob] using within

theorem FailedDispatch.retried (isPolicy : job.hints.retry = some policy)
    (retries : Retries (runGates assemble toLowerCase db schedule).trace session job.id) :
    attempt.attemptNumber < policy.maxAttempts := by
  obtain ⟨newId, relevant, ttlExpiresAt, result, named, isFailure⟩ := failed.dispatched
  obtain ⟨earlier, requeue, later, split, own, isRequeue, executed⟩ := retries
  obtain ⟨progress, may, _, started⟩ := dispatch_may assemble toLowerCase named isFailure own split
  have allowed := retry_of_may isRequeue may (started executed)
  exact ((retryDelay_isSome_iff isPolicy attempt).mp allowed).1

end

theorem FailedDispatch.session_eq (counted : CountedGates db) (numbered : NumberedGates db)
    (handed : ∀ visit ∈ visits (System.move (call assemble toLowerCase))
      (System.initial db) schedule, Handed visit.1 visit.2)
    (failed : FailedDispatch schedule (runGates assemble toLowerCase db schedule).trace session job attempt)
    {other : Nat} {otherJob : Job} {otherAttempt : JobAttempt}
    (otherFailed : FailedDispatch schedule (runGates assemble toLowerCase db schedule).trace other
      otherJob otherAttempt) (sameJob : job.id = otherJob.id)
    (sameNumber : attempt.attemptNumber = otherAttempt.attemptNumber) : session = other := by
  obtain ⟨stored, ofJob⟩ := failed.stored handed
  obtain ⟨otherStored, ofOther⟩ := otherFailed.stored handed
  have final : CountedGates (runGates assemble toLowerCase db schedule).store :=
    counted_final assemble toLowerCase counted
  have same : attempt.key = otherAttempt.key := by
    apply inj_on_of_nodup_map final.unique stored otherStored
    simp [JobAttempt.key, ofJob, ofOther, sameJob, sameNumber]
  have sameId : attempt.id = otherAttempt.id := congrArg Prod.fst same
  obtain ⟨first, isFirst, ofFirst, firstCompletes, firstRunning⟩ := mem_of_ownCompletion failed.finalized
  obtain ⟨second, isSecond, ofSecond, secondCompletes, secondRunning⟩ := mem_of_ownCompletion otherFailed.finalized
  rw [← sameId] at secondCompletes secondRunning
  rw [← ofFirst, ← ofSecond]
  exact session_of_completion assemble toLowerCase numbered isFirst isSecond firstCompletes
    firstRunning secondCompletes secondRunning

end

end

/-! ## Runs of a job with a policy -/

variable (maxAttempts : Nat)

def retryingJob : Job where
  id := "job"
  projectId := "proj"
  phase := .active
  hints := { retry := some { maxAttempts } }

def numberedAttempt (number : Nat) : JobAttempt where
  id := number - 1
  jobId := "job"
  attemptNumber := number
  status := .running

def retryingStore : GateDb where
  loop := { jobs := {
    jobs := [retryingJob maxAttempts], attempts := [numberedAttempt 1], nextAttempt := 1
    gates := [{ gateKey := "env", jobId := "other", ttlExpiresAt := 10000 }] } }

theorem retryingStore_counted : CountedGates (retryingStore maxAttempts) := by
  have one : Counted { attempts := [numberedAttempt 1] } := ⟨by decide, by decide, by decide⟩
  exact one.of_keys rfl

theorem retryingStore_numbered : NumberedGates (retryingStore maxAttempts) := by
  have one : Unended untouched { attempts := [numberedAttempt 1], nextAttempt := 1 } :=
    ⟨by decide, by decide, by decide⟩
  exact ⟨one.distinct, one.numbered, one.unended⟩

def dispatchedTwice (relevant : GateRelevantJob) (first second : HarnessResult) : List (Choice GateOperation) :=
  .start (.dispatchJob (fun _ => "bt_1") (retryingJob maxAttempts) (numberedAttempt 1) relevant
      1800000 (.ok first)) :: List.replicate 20 (.advance 0) ++
    .start (.recovery (.jobQuery (.passTime 20000))) :: List.replicate 2 (.advance 0) ++
    .start (.recovery (.jobQuery (.claim "job" "orchestrator" none))) ::
      List.replicate 8 (.advance 0) ++
    .start (.dispatchJob (fun _ => "bt_2") (retryingJob maxAttempts) (numberedAttempt 2) relevant
      1800000 (.ok second)) :: List.replicate 30 (.advance 0)

def failedResult : HarnessResult := { success := false, exitCode := 1 }

def waitingResult : HarnessResult := { success := true, exitCode := 0, control := some .waiting }

end EveHorizon.Loop
