import EveHorizon.Loop.Agreement

/-!
# What finalizations and sweeps issue

The finalizations and the sweeps are built from a few job queries and statements of their own.
-/

namespace EveHorizon.Loop

open Interleaving Call
open Jobs (JobId AttemptId Timestamp Phase Job JobAttempt JobsDb JobStatement JobCall AttemptUpdate)

/-- What the finalizations and the sweeps are built from issues such statements, as long as the
job tables are as assumed. -/
structure RecoveryPermits (assumed : JobsDb → Prop) (issued : LoopStatement → Prop) : Prop where
  bills : ∀ stmt, Loop.bills stmt → issued stmt := by
    intro stmt isBill
    cases stmt <;> first | trivial | exact id | cases isBill
  selectJobs : issued (.jobs .select) := by first | trivial | exact id
  attempts : ∀ attemptId status result isFinal,
    issued (.jobs (.updateAttempts (.completed attemptId status result isFinal))) := by
      intros; first | trivial | exact id
  deleteGates : ∀ jobIds, issued (.jobs (.deleteGates jobIds)) := by intro; first | trivial | exact id
  reset : ∀ jobId, issued (.jobs (.updateJobs (.released jobId))) := by intro; first | trivial | exact id
  appendCompletion : ∀ log, issued (.appendCompletion log) := by intro; first | trivial | exact id
  promoteChildren : ∀ parentId, issued (.promoteChildren parentId) := by intro; first | trivial | exact id
  unstage : ∀ jobId, issued (.unstage jobId) := by intro; first | trivial | exact id
  requeueReady : ∀ jobId actor deferUntil reason, (Jobs.requeueReady jobId actor deferUntil reason).IssuesWhile assumed
      fun stmt => issued (.jobs stmt)
  markJobDone : ∀ jobId summary,
    (Jobs.markJobDone jobId summary).IssuesWhile assumed fun stmt => issued (.jobs stmt)
  cancelJob : ∀ jobId reason,
    (Jobs.cancelJob jobId reason).IssuesWhile assumed fun stmt => issued (.jobs stmt)
  markJobFailed : ∀ jobId reason,
    (Jobs.markJobFailed jobId reason).IssuesWhile assumed fun stmt => issued (.jobs stmt)

section

variable {assumed : JobsDb → Prop} {issued : LoopStatement → Prop}

variable (assumed issued) in
abbrev LoopKeeps {α : Type} (call : LoopCall α) : Prop := call.IssuesWhile (fun db => assumed db.jobs) issued

variable (assumed issued) in
abbrev RecoveryKeeps {α : Type} (call : RecoveryCall α) : Prop :=
  call.IssuesWhile (fun db => assumed db.jobs) fun stmt => issued stmt.erase

section

variable {α : Type}

theorem onJobs_keeps {call : JobCall α} (issues : call.IssuesWhile assumed fun stmt => issued (.jobs stmt)) :
    LoopKeeps assumed issued (onJobs call) :=
  IssuesWhile.lift LoopStatement.jobs LoopDb.jobs issues fun _ holds => holds

variable {call : LoopCall α}

theorem tagged_keeps {tag : LoopStatement → RecoveryStatement} (erases : ∀ stmt, (tag stmt).erase = stmt)
    (issues : LoopKeeps assumed issued call) : RecoveryKeeps assumed issued (call.lift tag id) := by
  have tagged : call.IssuesWhile (fun db => assumed db.jobs) fun stmt =>
      issued (tag stmt).erase := by
    simp only [erases]
    exact issues
  exact IssuesWhile.lift tag id tagged fun _ holds => holds

theorem live_keeps (issues : LoopKeeps assumed issued call) : RecoveryKeeps assumed issued (live call) :=
  tagged_keeps (fun _ => rfl) issues

theorem sweeping_keeps (issues : LoopKeeps assumed issued call) : RecoveryKeeps assumed issued (sweeping call) :=
  tagged_keeps (fun _ => rfl) issues

theorem judging_keeps {judged : Judgement} (issues : LoopKeeps assumed issued call) :
    RecoveryKeeps assumed issued (judging judged call) :=
  tagged_keeps (fun _ => rfl) issues

end

namespace RecoveryPermits

variable (permits : RecoveryPermits assumed issued)
include permits

variable {α : Type}

theorem selects (query : LoopDb → α) : LoopKeeps assumed issued (select query) :=
  issuesWhile_perform (permits.bills _ trivial)

theorem queries (query : JobsDb → α) :
    (Jobs.select query).IssuesWhile assumed fun stmt => issued (.jobs stmt) :=
  issuesWhile_perform permits.selectJobs

theorem findsById (jobId : JobId) : LoopKeeps assumed issued (onJobs (Jobs.findById jobId)) :=
  onJobs_keeps (permits.queries _)

theorem bill {call : LoopCall α} (billing : call.Issues Loop.bills) : LoopKeeps assumed issued call :=
  (billing.imp permits.bills).issuesWhile _

theorem completes (attemptId : AttemptId) (status : Jobs.Outcome) (result : Jobs.AttemptResult) :
    LoopKeeps assumed issued (onJobs (Jobs.completeAttempt attemptId status result)) :=
  onJobs_keeps (issuesWhile_perform (permits.attempts _ _ _ _))

theorem deletesGates (jobIds : List JobId) : LoopKeeps assumed issued (onJobs (Jobs.deleteGates jobIds)) :=
  onJobs_keeps (issuesWhile_perform (permits.deleteGates jobIds))

theorem closeWorkflowRoot (parentId : JobId) : LoopKeeps assumed issued (Loop.closeWorkflowRoot parentId) := by
  refine (permits.findsById parentId).bind fun found => ?_
  cases found with
  | none => trivial
  | some parent =>
    dsimp only
    split
    · trivial
    · refine (permits.selects _).bind fun counts => ?_
      split
      · trivial
      · split
        · exact (onJobs_keeps (permits.markJobDone _ _)).bind fun _ => trivial
        · exact (onJobs_keeps (permits.cancelJob _ _)).bind fun _ => trivial

theorem tryCloseWorkflowRoot (parentId : JobId) : LoopKeeps assumed issued (Loop.tryCloseWorkflowRoot parentId) :=
  (permits.closeWorkflowRoot parentId).handle fun _ => trivial

theorem closeRootOf (parentId : Option JobId) : LoopKeeps assumed issued (Loop.closeRootOf parentId) := by
  cases parentId with
  | none => trivial
  | some parentId => exact permits.tryCloseWorkflowRoot parentId

theorem applyOutcome (job : Job) (attempt : JobAttempt) (result : HarnessResult) (outcome : ControlStatus) :
    LoopKeeps assumed issued (Loop.applyOutcome job attempt result outcome) := by
  have requeues := fun deferUntil reason =>
    onJobs_keeps (permits.requeueReady job.id "orchestrator" deferUntil reason)
  unfold Loop.applyOutcome
  split
  · refine (issuesWhile_perform (permits.promoteChildren _)).bind fun promoted => ?_
    refine (issuesWhile_perform (permits.unstage _)).bind fun _ => ?_
    exact (requeues _ _).bind fun _ => trivial
  · cases outcome with
    | waiting =>
      refine (permits.selects _).bind fun found => ?_
      exact (requeues _ _).bind fun _ => trivial
    | success => exact (onJobs_keeps (permits.markJobDone _ _)).bind fun _ => trivial
    | failed | prepared =>
      dsimp only
      split
      · refine (permits.selects _).bind fun now => ?_
        exact (requeues _ _).bind fun _ => trivial
      · exact (onJobs_keeps (permits.markJobFailed _ _)).bind fun _ => trivial

theorem finish (job : Job) (result : HarnessResult) (latestAttempt : Option JobAttempt) :
    LoopKeeps assumed issued (externallyFinalized.finish job result latestAttempt) := by
  unfold externallyFinalized.finish
  split
  · exact (onJobs_keeps (permits.markJobDone _ _)).bind fun _ => trivial
  · exact (onJobs_keeps (permits.markJobFailed _ _)).bind fun _ => trivial

theorem externallyFinalized (job : Job) (result : HarnessResult) :
    LoopKeeps assumed issued (Loop.externallyFinalized job result) := by
  refine (permits.selects _).bind fun latestAttempt => ?_
  refine (permits.findsById job.id).bind fun found => ?_
  cases found with
  | none => exact permits.finish job result latestAttempt
  | some currentJob =>
    dsimp only
    split
    · trivial
    · exact permits.finish job result latestAttempt

theorem closeRecovered (jobId : JobId) (outcome : ControlStatus) (errorMessage : Option String) :
    LoopKeeps assumed issued (Loop.closeRecovered jobId outcome errorMessage) := by
  cases outcome with
  | success => exact (onJobs_keeps (permits.markJobDone _ _)).bind fun _ => trivial
  | waiting => trivial
  | failed | prepared => exact (onJobs_keeps (permits.markJobFailed _ _)).bind fun _ => trivial

section

variable (assemble : AssembleReceipt) (toLowerCase : String → String) (session : Nat) (transactionId : String)

theorem receipt (job : Job) (attempt : JobAttempt) : LoopKeeps assumed issued (do
      tryPersistAttemptReceipt assemble job attempt
      tryChargeForReceipt toLowerCase session transactionId job attempt) := by
  refine (permits.bill (tryPersistAttemptReceipt_bills assemble job attempt)).bind fun _ => ?_
  exact (permits.bill (chargeForReceipt_bills toLowerCase session transactionId job attempt)).handle fun _ => trivial

theorem completeAndFinalize (job : Job) (attempt : JobAttempt) (result : HarnessResult) : LoopKeeps assumed issued
      (Loop.completeAndFinalize assemble toLowerCase session transactionId job attempt result) := by
  refine (permits.completes _ _ _).bind fun completed => ?_
  cases completed with
  | none => exact permits.externallyFinalized job result
  | some completedAttempt =>
    refine (permits.bill (tryPersistAttemptReceipt_bills assemble job completedAttempt)).bind fun _ => ?_
    refine IssuesWhile.bind ?_ fun _ => permits.applyOutcome job attempt result _
    exact (permits.bill (chargeForReceipt_bills toLowerCase session transactionId job _)).handle fun _ => trivial

theorem failAttempt (job : Job) (attempt : JobAttempt) (message : String) :
    LoopKeeps assumed issued (Loop.failAttempt assemble toLowerCase session transactionId job attempt message) := by
  refine (permits.completes _ _ _).bind fun completed => ?_
  cases completed with
  | none => exact (permits.findsById job.id).bind fun _ => trivial
  | some completedAttempt =>
    refine (permits.bill (tryPersistAttemptReceipt_bills assemble job completedAttempt)).bind fun _ => ?_
    refine IssuesWhile.bind ?_ fun _ => trivial
    exact (permits.bill (chargeForReceipt_bills toLowerCase session transactionId job _)).handle fun _ => trivial

theorem processJob (newId : Nat → String) (job : Job) (attempt : JobAttempt) (worker : Except String HarnessResult) :
    LoopKeeps assumed issued (Loop.processJob assemble toLowerCase session newId job attempt worker) := by
  unfold Loop.processJob
  refine IssuesWhile.handle ?_ fun message => ?_
  · cases worker with
    | error message => trivial
    | ok result => exact permits.completeAndFinalize assemble toLowerCase session _ job attempt result
  · refine IssuesWhile.bind ?_ fun closed => ?_
    · exact (permits.failAttempt assemble toLowerCase session _ job attempt message).handle fun _ => trivial
    · split
      · trivial
      · exact (onJobs_keeps (permits.markJobFailed _ _)).bind fun _ => trivial

omit permits in
theorem each {α : Type} {issues : RecoveryStatement → Prop} {found : LoopDb → Prop} {items : List α}
    {body : α → RecoveryCall Unit} (kept : ∀ item, (body item).IssuesWhile found issues) :
    (Call.forEach items body).IssuesWhile found issues :=
  IssuesWhile.forEach fun item _ => kept item

variable (config : RecoveryConfig)

theorem watchdog (readings : Readings) (kind : Watchdog) :
    RecoveryKeeps assumed issued (kind.sweep config readings) := by
  refine (sweeping_keeps (permits.selects _)).bind fun candidates => ?_
  refine each fun candidate => ?_
  rw [Watchdog.recover]
  cases kind.health config readings candidate with
  | none => trivial
  | some unhealthy =>
    obtain ⟨reason, errorCode⟩ := unhealthy
    refine IssuesWhile.handle ?_ fun _ => trivial
    refine (sweeping_keeps (permits.completes _ _ _)).bind fun completed => ?_
    cases completed with
    | none => trivial
    | some attempt =>
      refine judging_keeps ?_
      refine (onJobs_keeps (permits.markJobFailed _ _)).bind fun _ => ?_
      exact (permits.deletesGates _).bind fun _ => permits.closeRootOf _

theorem recoverActiveJobsWithTerminatedAttempts :
    RecoveryKeeps assumed issued (Loop.recoverActiveJobsWithTerminatedAttempts config) := by
  refine (sweeping_keeps (permits.selects _)).bind fun stuckJobs => ?_
  refine each fun stuckJob => ?_
  refine IssuesWhile.handle ?_ fun _ => trivial
  refine judging_keeps ?_
  refine (onJobs_keeps (permits.markJobFailed _ _)).bind fun _ => ?_
  exact (permits.deletesGates _).bind fun _ => permits.closeRootOf _

theorem resetOrphanedJob (jobId : JobId) (runningCount : Nat) (staleAttempts : List JobAttempt) :
    LoopKeeps assumed issued (Loop.resetOrphanedJob jobId runningCount staleAttempts) := by
  refine IssuesWhile.bind ?_ fun _ => ?_
  · refine IssuesWhile.forEach fun attempt _ => ?_
    exact (permits.completes _ _ _).bind fun _ => trivial
  · split
    · refine IssuesWhile.bind ?_ fun _ => permits.deletesGates _
      exact onJobs_keeps (issuesWhile_perform (permits.reset jobId))
    · exact permits.deletesGates _

theorem recoverOrphanedJob (staleCutoff : Timestamp) (jobId : JobId) :
    LoopKeeps assumed issued (Loop.recoverOrphanedJob staleCutoff jobId) := by
  have resets := fun count stale => permits.resetOrphanedJob jobId count stale
  refine (permits.selects _).bind fun runningAttempts => ?_
  split
  · exact resets _ _
  · refine (permits.selects _).bind fun runningRows => ?_
    dsimp only
    split
    · have logged : ∀ completionLogs : List CompletionLog, LoopKeeps assumed issued
          (if completionLogs.isEmpty then return () else Loop.resetOrphanedJob jobId runningRows.length
            (runningRows.filter fun row => decide (row.startedAt < staleCutoff))) := by
        intro completionLogs
        split
        · trivial
        · exact resets _ _
      split
      · exact logged []
      · exact (permits.selects _).bind logged
    · exact resets _ _

theorem recoverOrphanedJobs (readings : Readings) :
    RecoveryKeeps assumed issued (Loop.recoverOrphanedJobs config readings) := by
  refine (sweeping_keeps (permits.selects _)).bind fun orphanedJobs => ?_
  refine each fun jobId => ?_
  exact (sweeping_keeps (permits.recoverOrphanedJob _ jobId)).handle fun _ => trivial

theorem sweepCompletedAttempts (newId : AttemptId → String) (inFlight : JobId → Option Timestamp) (now : Timestamp) :
    RecoveryKeeps assumed issued (Loop.sweepCompletedAttempts assemble toLowerCase session newId inFlight now) := by
  refine (sweeping_keeps (permits.selects _)).bind fun completedAttempts => ?_
  refine each fun entry => ?_
  rw [recoverCompleted]
  split
  · trivial
  · refine IssuesWhile.handle ?_ fun _ => trivial
    refine (sweeping_keeps (permits.completes _ _ _)).bind fun completed => ?_
    cases completed with
    | none => trivial
    | some completed =>
      refine judging_keeps ?_
      refine (permits.findsById _).bind fun job => ?_
      refine IssuesWhile.bind ?_ fun _ => ?_
      · cases job with
        | none => trivial
        | some job => exact permits.receipt assemble toLowerCase session _ job completed
      · refine (permits.closeRecovered _ _ _).bind fun _ => ?_
        refine (permits.deletesGates _).bind fun _ => ?_
        split
        · trivial
        · exact permits.closeRootOf _

end

end RecoveryPermits

end

end EveHorizon.Loop
