import EveHorizon.Loop.Charging
import EveHorizon.Loop.RecoveryInventory

/-!
# Succeeded work under the sweeps

Live finalizations, job queries and the recovery sweeps, statement by statement in any
order.
-/

namespace EveHorizon.Loop

open Interleaving List Call Table
open Jobs (JobId AttemptId Timestamp Job JobAttempt JobsDb JobStatement JobCall JobOperation
  JobUpdate AttemptUpdate NewAttempt AttemptStatus)

section

variable (assemble : AssembleReceipt) (toLowerCase : String → String)

inductive RecoveryOperation where
  | jobQuery (operation : JobOperation)
  | processJob (newId : Nat → String) (job : Job) (attempt : JobAttempt)
      (worker : Except String HarnessResult)
  | logCompletion (log : CompletionLog)
  | tryCloseWorkflowRoot (parentId : JobId)
  | watchdog (config : RecoveryConfig) (readings : Readings) (kind : Watchdog)
  | recoverActiveJobsWithTerminatedAttempts (config : RecoveryConfig)
  | recoverOrphanedJobs (config : RecoveryConfig) (readings : Readings)
  | recoverCompletedAttempts (newId : AttemptId → String) (inFlight : JobId → Option Timestamp)
      (now : Timestamp)

def RecoveryOperation.call (session : Nat) : RecoveryOperation → RecoveryCall Unit
  | .jobQuery operation => live do
      let _ ← onJobs operation.call
      return ()
  | .processJob newId job attempt worker =>
    live (Loop.processJob assemble toLowerCase session newId job attempt worker)
  | .logCompletion log => live (.perform (.appendCompletion log) fun _ => ())
  | .tryCloseWorkflowRoot parentId => live (Loop.tryCloseWorkflowRoot parentId)
  | .watchdog config readings kind => kind.sweep config readings
  | .recoverActiveJobsWithTerminatedAttempts config =>
    Loop.recoverActiveJobsWithTerminatedAttempts config
  | .recoverOrphanedJobs config readings => Loop.recoverOrphanedJobs config readings
  | .recoverCompletedAttempts newId inFlight now =>
    sweepCompletedAttempts assemble toLowerCase session newId inFlight now

def runRecovery (db : LoopDb) (schedule : List (Choice RecoveryOperation)) :
    System RecoveryStatement LoopDb String Unit :=
  System.run (RecoveryOperation.call assemble toLowerCase) db schedule

end

def JobsDb.succeededLatest (db : JobsDb) (jobId : JobId) : Bool :=
  (db.latestAttempt jobId fun _ => true).any fun latest => latest.status == .succeeded

variable (execution : Execution RecoveryStatement LoopDb)

def bySweep : Bool :=
  match execution.statement with
  | .sweep _ _ => true
  | .live _ => false

def cancels (jobId : JobId) : Bool :=
  execution.before.jobs.phaseOf jobId != some .cancelled && execution.after.jobs.phaseOf jobId == some .cancelled

def LoopStatement.closes (db : JobsDb) : LoopStatement → Job → Bool
  | .jobs (.updateJobs update), row =>
    update.selects db row && (update.changes db.now row).phase == .cancelled
  | _, _ => false

def Judgement.current (judged : Judgement) (db : JobsDb) : Bool :=
  (db.latestAttempt judged.jobId fun _ => true).all fun latest => latest.id == judged.attemptId

/-- What a sweep finds when it closes a job: an attempt that it knows not to have succeeded
and that is still the newest, and of a job that is closed along with it, no success. -/
def findsUnsucceeded : Bool :=
  match execution.statement with
  | .sweep (some judged) statement =>
    execution.before.jobs.jobs.all fun row =>
      !statement.closes execution.before.jobs row ||
        if row.id == judged.jobId then
          judged.status != .succeeded && judged.current execution.before.jobs
        else !JobsDb.succeededLatest execution.before.jobs row.id
  | _ => true

def regular : JobStatement → Prop
  | .updateAttempts (.ended _ status _ _) => status ≠ .succeeded
  | _ => True

def regularLoop : LoopStatement → Prop
  | .jobs statement => regular statement
  | _ => True

/-- The judged attempt has ended, with success only if the sweep knows of it. -/
structure Judgement.Holds (judged : Judgement) (db : JobsDb) : Prop where
  ended : Ended db judged.attemptId
  unsucceeded : judged.status ≠ .succeeded → ∀ row ∈ db.attempts, row.id = judged.attemptId → row.status ≠ .succeeded

variable {update : AttemptUpdate}

theorem attemptUpdate_unsucceeded {row : JobAttempt} {now : Timestamp} (isRegular : regular (.updateAttempts update))
    (isFinal : row.status.live = false) (unsucceeded : row.status ≠ .succeeded) (chosen : update.selects row = true) :
    (update.changes now row).status ≠ .succeeded := by
  cases update with
  | ended attemptId status summary _ => exact isRegular
  | startedPending attemptId agentId harness profileSource profileHash =>
    simp only [AttemptUpdate.selects, Bool.and_eq_true, beq_iff_eq] at chosen
    rw [chosen.2] at isFinal
    cases isFinal
  | submitted attemptId summary =>
    simp only [AttemptUpdate.selects, Bool.and_eq_true, Bool.or_eq_true, beq_iff_eq] at chosen
    rcases chosen.2 with running | succeeded
    · rw [running] at isFinal
      cases isFinal
    · exact absurd succeeded unsucceeded
  | completed attemptId status result _ =>
    simp only [AttemptUpdate.selects, Bool.and_eq_true, beq_iff_eq] at chosen
    rw [chosen.2] at isFinal
    cases isFinal

variable {judged : Judgement}

theorem Judgement.Holds.effect {db : JobsDb} (holds : judged.Holds db) {stmt : JobStatement}
    (isRegular : regular stmt) : judged.Holds (stmt.effect db) := by
  refine ⟨ended_effect holds.ended stmt, fun notJudged row member named => ?_⟩
  have before := holds.unsucceeded notJudged
  cases stmt with
  | updateAttempts update =>
    obtain ⟨old, present, ⟨chosen, rfl⟩ | ⟨_, rfl⟩⟩ := mem_updateWhere member
    · rw [attemptUpdate_changes_id] at named
      exact attemptUpdate_unsucceeded isRegular (holds.ended.final old present named) (before old present named) chosen
    · exact before row present named
  | insertAttempt new =>
    simp only [JobStatement.effect] at member
    split at member
    · exact before row member named
    · rcases mem_append.mp member with old | added
      · exact before row old named
      · rw [mem_singleton.mp added] at named
        have known := holds.ended.known
        rw [← named] at known
        exact absurd known (Nat.lt_irrefl _)
  | _ => exact before row member named

variable {db : LoopDb} {stmt : LoopStatement}

theorem Judgement.Holds.loop_effect (holds : judged.Holds db.jobs) (isRegular : regularLoop stmt) :
    judged.Holds (stmt.effect db).jobs := by
  cases stmt with
  | jobs stmt => exact holds.effect isRegular
  | writeReceipt attemptId receipt =>
    refine ⟨ended_loop_effect holds.ended _, fun notJudged row member named => ?_⟩
    obtain ⟨old, present, ⟨_, rfl⟩ | ⟨_, rfl⟩⟩ := mem_updateWhere member
    · exact holds.unsucceeded notJudged old present named
    · exact holds.unsucceeded notJudged row present named
  | promoteChildren parentId | unstage jobId =>
    exact ⟨ended_loop_effect holds.ended _, holds.unsucceeded⟩
  | _ => exact holds

abbrev untouched (row : JobAttempt) : Prop := row.endedAt = none

def Numbered (db : LoopDb) : Prop := Unended untouched db.jobs

theorem numbered_effect (kept : Numbered db) (stmt : LoopStatement) : Numbered (stmt.effect db) := by
  cases stmt with
  | jobs stmt =>
    refine unended_effect kept ?_ (fun _ _ _ => rfl) stmt
    intro now update row chosen live unwritten
    obtain ⟨_, endedAt, _⟩ := attemptUpdate_keeps chosen live
    exact endedAt.trans unwritten
  | writeReceipt attemptId receipt =>
    exact Unended.updateWhere kept (fun _ => rfl) fun _ _ _ live => ⟨live, id⟩
  | promoteChildren parentId | unstage jobId => exact ⟨kept.distinct, kept.numbered, kept.unended⟩
  | _ => exact kept

/-- Statements that take no job to `cancelled`. -/
def spares : LoopStatement → Prop
  | .jobs (.updateJobs (.released _)) => True
  | .jobs (.updateJobs _) => False
  | _ => True

def RecoveryStatement.allowed : RecoveryStatement → LoopDb → Prop
  | .live stmt, _ => regularLoop stmt
  | .sweep none stmt, _ => regularLoop stmt ∧ spares stmt
  | .sweep (some judged) stmt, db => regularLoop stmt ∧ judged.Holds db.jobs

theorem allowed_regular {stmt : RecoveryStatement} (isAllowed : stmt.allowed db) :
    regularLoop stmt.erase := by
  cases stmt with
  | live stmt => exact isAllowed
  | sweep judged stmt =>
    cases judged with
    | none | some judged => exact isAllowed.1

/-- What held of judged attempts before still holds. -/
def Trusts (before after : LoopDb) : Prop :=
  ∀ judged : Judgement, judged.Holds before.jobs → judged.Holds after.jobs

def recoveryDiscipline : Discipline RecoveryStatement LoopDb where
  inv := Numbered
  allowed _ := RecoveryStatement.allowed
  rely _ := Trusts
  rely_refl _ _ _ holds := holds
  rely_trans first second judged holds := second judged (first judged holds)
  keeps {_ stmt _} kept _ _ := numbered_effect kept stmt.erase
  respects _ _ _ isAllowed _ holds := holds.loop_effect (allowed_regular isAllowed)

abbrev Regular {α : Type} (call : JobCall α) : Prop := call.Issues regular

variable {α : Type} {call : JobCall α}

theorem regular_of_writes {writes : Jobs.Writes} (issues : call.Writes writes)
    (unsucceeded : ∀ attemptId status summary isFinal,
      writes.attempts (.ended attemptId status summary isFinal) → status ≠ .succeeded) : Regular call := by
  refine Issues.imp issues fun stmt allowed => ?_
  cases stmt with
  | updateAttempts update =>
    cases update with
    | ended attemptId status summary isFinal => exact unsucceeded _ _ _ _ allowed
    | _ => trivial
  | _ => trivial

theorem closing_unsucceeded {jobId : JobId} {disposition : Jobs.FailureDisposition}
    (attemptId : AttemptId) (status : AttemptStatus) (summary : String) (isFinal : status.live = false)
    (ended : (Jobs.closingWrites jobId disposition).attempts (.ended attemptId status summary isFinal)) :
    status ≠ .succeeded := by
  obtain ⟨_, _, _, _, same, unsuccessful⟩ := ended
  cases same
  exact unsuccessful

theorem jobOperation_regular (operation : JobOperation) : Regular operation.call := by
  refine regular_of_writes operation.call_writes fun attemptId status summary isFinal ended => ?_
  cases operation with
  | release =>
    obtain ⟨_, _, _, same⟩ := ended
    cases same
    decide
  | cancelJob | markJobFailed => exact closing_unsucceeded _ _ _ _ ended
  | _ => simp [JobOperation.writes, Jobs.claimWrites, Jobs.requeueWrites, Jobs.submitWrites,
      Jobs.approveWrites, Jobs.rejectWrites, Jobs.doneWrites, Jobs.phaseWrites] at ended

/-! ## Calls of the loop -/

abbrev RegularLoop {α : Type} (call : LoopCall α) : Prop := call.Issues regularLoop

theorem onJobs_regular (issues : Regular call) : RegularLoop (onJobs call) :=
  Issues.lift issues

theorem permits_regular : RecoveryPermits (fun _ => True) regularLoop where
  requeueReady jobId actor deferUntil reason :=
    (regular_of_writes (Jobs.requeueReady_writes jobId actor deferUntil reason) nofun).issuesWhile _
  markJobDone jobId summary := (regular_of_writes (Jobs.markJobDone_writes jobId summary) nofun).issuesWhile _
  cancelJob jobId reason :=
    (regular_of_writes (Jobs.cancelJob_writes jobId reason) closing_unsucceeded).issuesWhile _
  markJobFailed jobId reason :=
    (regular_of_writes (Jobs.markJobFailed_writes jobId reason) closing_unsucceeded).issuesWhile _

variable {call : LoopCall α}

theorem regular_of_keeps (keeps : LoopKeeps (fun _ => True) regularLoop call) : RegularLoop call :=
  keeps.issues fun _ => trivial

variable (jobId : JobId)

def resets (stmt : LoopStatement) : Prop := regularLoop stmt ∧ spares stmt

theorem onJobs_resets {stmt : JobStatement} {query : JobsDb → α}
    (isReset : resets (.jobs stmt)) :
    (onJobs (.perform stmt query)).Issues resets := ⟨isReset, fun _ => trivial⟩

theorem completeAttempt_resets (attemptId : AttemptId) (status : Jobs.Outcome) (result : Jobs.AttemptResult) :
    (onJobs (Jobs.completeAttempt attemptId status result)).Issues resets :=
  onJobs_resets ⟨trivial, trivial⟩

theorem resetOrphanedJob_resets (runningCount : Nat) (staleAttempts : List JobAttempt) :
    (resetOrphanedJob jobId runningCount staleAttempts).Issues resets := by
  have ends : ∀ attempt ∈ staleAttempts, Issues resets (do
      let _ ← onJobs (Jobs.completeAttempt attempt.id .failed {
        exitCode := some 1
        errorMessage := some "Orchestrator restarted while attempt was running" })
      return () : LoopCall Unit) :=
    fun attempt _ => (completeAttempt_resets _ _ _).bind fun _ => trivial
  have drops : (onJobs (Jobs.deleteGates [jobId])).Issues resets := onJobs_resets ⟨trivial, trivial⟩
  refine (Issues.forEach ends).bind fun _ => ?_
  split
  · have releases : (onJobs (Jobs.updateManyJobs (.released jobId))).Issues resets := onJobs_resets ⟨trivial, trivial⟩
    exact releases.bind fun _ => drops
  · exact drops

theorem recoverOrphanedJob_resets (cutoff : Timestamp) (jobId : JobId) :
    (recoverOrphanedJob cutoff jobId).Issues resets := by
  have reads : ∀ {α : Type} (query : LoopDb → α), (select query).Issues resets :=
    fun query => issues_perform ⟨trivial, trivial⟩
  refine (reads _).bind fun runningAttempts => ?_
  split
  · exact resetOrphanedJob_resets jobId 0 []
  · refine (reads _).bind fun runningRows => ?_
    have logged : ∀ completionLogs : List CompletionLog, Issues resets (if completionLogs.isEmpty then .ret ()
          else resetOrphanedJob jobId runningRows.length
            (runningRows.filter fun row => decide (row.startedAt < cutoff))) := by
      intro completionLogs
      split
      · trivial
      · exact resetOrphanedJob_resets _ _ _
    simp only
    split
    · split
      · exact logged []
      · exact (reads _).bind logged
    · exact resetOrphanedJob_resets _ _ _

/-! ## Safety of the calls -/

theorem Trusts.trans {first second third : LoopDb} (before : Trusts first second)
    (after : Trusts second third) : Trusts first third :=
  fun judged holds => after judged (before judged holds)

variable {session : Nat}

theorem safe_tagged (tag : LoopStatement → RecoveryStatement) (erases : ∀ stmt, (tag stmt).erase = stmt)
    {issued : LoopStatement → Prop} (issues : call.Issues issued) {base : LoopDb}
    (allows : ∀ stmt, issued stmt → ∀ found, Trusts base found → (tag stmt).allowed found)
    (since : Trusts base db) :
    (call.lift tag id).Safe recoveryDiscipline session (fun _ reached => Trusts base reached) db := by
  induction call generalizing db with
  | ret value | raise error => exact since
  | stmt stmt next ih =>
    intro found relied _ _ _
    have reached := since.trans relied
    have isAllowed := allows stmt issues.1 found reached
    have isRegular := allowed_regular isAllowed
    rw [erases] at isRegular
    refine ⟨isAllowed, ih found (issues.2 found) (reached.trans fun judged holds => ?_)⟩
    have kept := holds.loop_effect isRegular
    rw [← erases stmt] at kept
    exact kept

theorem safe_judging (issues : RegularLoop call) (holds : judged.Holds db.jobs) :
    (judging judged call).Safe recoveryDiscipline session (fun _ reached => Trusts db reached) db :=
  safe_tagged (.sweep (some judged)) (fun _ => rfl) issues
    (fun _ isRegular _ since => ⟨isRegular, since judged holds⟩) fun _ holds => holds

theorem safe_live {call : LoopCall Unit} (issues : RegularLoop call) (db : LoopDb) :
    (live call).Safe recoveryDiscipline session (fun _ reached => Trusts db reached) db :=
  safe_tagged .live (fun _ => rfl) issues (fun _ isRegular _ _ => isRegular) fun _ holds => holds

theorem safe_sweeping {call : LoopCall Unit} (issues : call.Issues resets) (db : LoopDb) :
    (sweeping call).Safe recoveryDiscipline session (fun _ reached => Trusts db reached) db :=
  safe_tagged (.sweep none) (fun _ => rfl) issues (fun _ isReset _ _ => isReset) fun _ holds => holds

def Judged (judged : Judgement) : Except String (Option JobAttempt) → LoopDb → Prop
  | .ok (some _), db => judged.Holds db.jobs
  | _, _ => True

theorem completed_holds {db : JobsDb} (kept : Unended untouched db) (jobId : JobId) {attemptId : AttemptId}
    {status : Jobs.Outcome} {result : Jobs.AttemptResult}
    (isUpdate : update = .completed attemptId status.status result status.status_final) {old : JobAttempt}
    (found : db.attempts.find? update.selects = some old) :
    Judgement.Holds ⟨jobId, attemptId, status.status⟩ (JobStatement.effect (.updateAttempts update) db) := by
  subst isUpdate
  have member := mem_of_find?_eq_some found
  have chosen := find?_some found
  simp only [AttemptUpdate.selects, Bool.and_eq_true, beq_iff_eq] at chosen
  obtain ⟨named, running⟩ := chosen
  have written : ∀ row ∈ (JobStatement.effect (.updateAttempts (.completed attemptId status.status
      result status.status_final)) db).attempts, row.id = attemptId → row.status = status.status := by
    intro row present same
    obtain ⟨earlier, present, ⟨_, rfl⟩ | ⟨skipped, rfl⟩⟩ := mem_updateWhere present
    · rfl
    · have equal : row = old := inj_on_of_nodup_map kept.distinct present member (same.trans named.symm)
      simp [AttemptUpdate.selects, equal, named, running] at skipped
  refine ⟨⟨?_, ?_⟩, ?_⟩
  · have numbered := kept.numbered old member
    rw [named] at numbered
    exact numbered
  · intro row present same
    rw [written row present same]
    exact status.status_final
  · intro notJudged row present same
    rw [written row present same]
    exact notJudged

theorem safe_completing (attemptId : AttemptId) (status : Jobs.Outcome) (result : Jobs.AttemptResult) (db : LoopDb) :
    (sweeping (onJobs (Jobs.completeAttempt attemptId status result))).Safe recoveryDiscipline
      session (Judged ⟨jobId, attemptId, status.status⟩) db := by
  intro found _ kept _ _
  refine ⟨⟨trivial, trivial⟩, ?_⟩
  let update := AttemptUpdate.completed attemptId status.status result status.status_final
  change Judged _ (.ok (returning update.selects (update.changes found.jobs.now) found.jobs.attempts)) _
  cases selected : found.jobs.attempts.find? update.selects with
  | none =>
    rw [returning, selected]
    trivial
  | some old =>
    rw [returning, selected]
    exact completed_holds kept jobId rfl selected

abbrev Over {α : Type} : Except String α → LoopDb → Prop := fun _ _ => True

theorem safe_failRunningAttempt (candidate : Candidate) (reason errorCode : String) (db : LoopDb) :
    (failRunningAttemptFromWatchdog candidate reason errorCode).Safe recoveryDiscipline session Over db := by
  refine (safe_completing candidate.jobId _ _ _ db).bind ?_ fun _ _ _ => trivial
  intro returned reached judged
  cases returned with
  | none => trivial
  | some attempt =>
    refine (safe_judging ?_ judged).imp fun _ _ _ => trivial
    refine regular_of_keeps ((onJobs_keeps (permits_regular.markJobFailed _ _)).bind fun _ => ?_)
    exact (permits_regular.deletesGates _).bind fun _ => permits_regular.closeRootOf _

variable (config : RecoveryConfig)

theorem safe_watchdog (readings : Readings) (watchdog : Watchdog) (db : LoopDb) :
    (watchdog.sweep config readings).Safe recoveryDiscipline session Over db := by
  intro found _ _ _ _
  refine ⟨⟨trivial, trivial⟩, ?_⟩
  refine Call.SafeWhile.forEach trivial fun candidate _ reached _ => ?_
  rw [Watchdog.recover]
  cases watchdog.health config readings candidate with
  | none => trivial
  | some unhealthy =>
    obtain ⟨reason, errorCode⟩ := unhealthy
    exact (safe_failRunningAttempt candidate reason errorCode reached).handle
      (fun _ _ _ => trivial) fun _ _ _ => trivial

theorem latestAttempt_mem {db : JobsDb} {jobId : JobId} {latest : JobAttempt}
    (isLatest : db.latestAttempt jobId (fun _ => true) = some latest) : latest ∈ db.attempts :=
  (mem_filter.mp (latest_mem _ isLatest)).1

def StuckJob.judgement (stuckJob : StuckJob) : Judgement :=
  ⟨stuckJob.jobId, stuckJob.latestAttempt.id, stuckJob.latestAttempt.status⟩

theorem stuck_holds {config : RecoveryConfig} (kept : Numbered db) {stuckJob : StuckJob}
    (member : stuckJob ∈ db.stuckJobs config) : stuckJob.judgement.Holds db.jobs := by
  obtain ⟨job, _, selected⟩ := mem_filterMap.mp member
  split at selected
  · cases selected
  · next latest isLatest =>
    split at selected
    · next chosen =>
      cases selected
      simp only [Bool.and_eq_true] at chosen
      have present := latestAttempt_mem isLatest
      have hasEnd : latest.endedAt.isSome = true := by
        cases isEnd : latest.endedAt with
        | none => simp [isEnd] at chosen
        | some endedAt => rfl
      refine ⟨ended_of_endedAt (fun _ unwritten => unwritten) kept present hasEnd, ?_⟩
      intro notJudged row other same
      rw [inj_on_of_nodup_map kept.distinct other present same]
      exact notJudged
    · cases selected

theorem recoverStuckJob_safe {session : Nat} {stuckJob : StuckJob} {db : LoopDb}
    (holds : stuckJob.judgement.Holds db.jobs) :
    (recoverStuckJob stuckJob).Safe recoveryDiscipline session (fun _ reached => Trusts db reached) db := by
  refine safe_judging ?_ holds
  refine regular_of_keeps ((onJobs_keeps (permits_regular.markJobFailed _ _)).bind fun _ => ?_)
  exact (permits_regular.deletesGates _).bind fun _ => permits_regular.closeRootOf _

theorem safe_terminated (db : LoopDb) :
    (recoverActiveJobsWithTerminatedAttempts config).Safe recoveryDiscipline session Over db := by
  intro found _ kept _ _
  refine ⟨⟨trivial, trivial⟩, ?_⟩
  have each : ∀ stuckJob ∈ found.stuckJobs config, ∀ reached, Trusts found reached →
      ((recoverStuckJob stuckJob).handle fun _ => .ret ()).Safe recoveryDiscipline session
        (fun _ later => Trusts found later) reached := by
    intro stuckJob member reached since
    have safe := @recoverStuckJob_safe session _ _ (since stuckJob.judgement (stuck_holds kept member))
    exact safe.handle (fun _ _ later => since.trans later) fun _ _ later => since.trans later
  exact (Call.SafeWhile.forEach (fun _ holds => holds) each).imp fun _ _ _ => trivial

theorem safe_orphaned (readings : Readings) (db : LoopDb) :
    (recoverOrphanedJobs config readings).Safe recoveryDiscipline session Over db := by
  intro found _ _ _ _
  refine ⟨⟨trivial, trivial⟩, ?_⟩
  refine Call.SafeWhile.forEach trivial fun jobId _ reached _ => ?_
  exact (safe_sweeping (recoverOrphanedJob_resets _ jobId) reached).handle (fun _ _ _ => trivial)
    fun _ _ _ => trivial

section

variable (assemble : AssembleReceipt) (toLowerCase : String → String)

theorem safe_sweepCompletedAttempt {session : Nat} (transactionId : String) (jobId : JobId)
    (log : CompletionLog) (db : LoopDb) :
    (sweepCompletedAttempt assemble toLowerCase session transactionId jobId log).Safe
      recoveryDiscipline session Over db := by
  refine (safe_completing jobId _ _ _ db).bind ?_ fun _ _ _ => trivial
  intro returned reached judged
  cases returned with
  | none => trivial
  | some completed =>
    refine (safe_judging ?_ judged).imp fun _ _ _ => trivial
    refine regular_of_keeps ((permits_regular.findsById jobId).bind fun job => ?_)
    refine IssuesWhile.bind ?_ fun _ => ?_
    · cases job with
      | none => trivial
      | some job => exact permits_regular.receipt assemble toLowerCase session _ job completed
    · refine (permits_regular.closeRecovered _ _ _).bind fun _ => ?_
      refine (permits_regular.deletesGates _).bind fun _ => ?_
      split
      · trivial
      · exact permits_regular.closeRootOf _

theorem safe_completed {session : Nat} (newId : AttemptId → String)
    (inFlight : JobId → Option Timestamp) (now : Timestamp) (db : LoopDb) :
    (sweepCompletedAttempts assemble toLowerCase session newId inFlight now).Safe
      recoveryDiscipline session Over db := by
  intro found _ _ _ _
  refine ⟨⟨trivial, trivial⟩, ?_⟩
  refine Call.SafeWhile.forEach trivial fun entry _ reached _ => ?_
  rw [recoverCompleted]
  split
  · trivial
  · exact (safe_sweepCompletedAttempt assemble toLowerCase _ _ _ reached).handle
      (fun _ _ _ => trivial) fun _ _ _ => trivial

theorem safe_recoveryOperation (session : Nat) (operation : RecoveryOperation) (db : LoopDb) :
    (operation.call assemble toLowerCase session).Safe recoveryDiscipline session Over db := by
  cases operation with
  | jobQuery operation =>
    have queries : RegularLoop (do let _ ← onJobs operation.call; return ()) :=
      (onJobs_regular (jobOperation_regular operation)).bind fun _ => trivial
    exact (safe_live queries db).imp fun _ _ _ => trivial
  | processJob newId job attempt worker =>
    have processes := permits_regular.processJob assemble toLowerCase session newId job attempt worker
    exact (safe_live (regular_of_keeps processes) db).imp fun _ _ _ => trivial
  | logCompletion log =>
    have logs : RegularLoop (.perform (.appendCompletion log) fun _ => ()) := issues_perform trivial
    exact (safe_live logs db).imp fun _ _ _ => trivial
  | tryCloseWorkflowRoot parentId =>
    have closes := permits_regular.tryCloseWorkflowRoot parentId
    exact (safe_live (regular_of_keeps closes) db).imp fun _ _ _ => trivial
  | watchdog config readings kind => exact safe_watchdog config readings kind db
  | recoverActiveJobsWithTerminatedAttempts config => exact safe_terminated config db
  | recoverOrphanedJobs config readings => exact safe_orphaned config readings db
  | recoverCompletedAttempts newId inFlight now =>
    exact safe_completed assemble toLowerCase newId inFlight now db

/-! ## Runs without a failed success -/

theorem changed_job {db : LoopDb} (stmt : LoopStatement) {jobId : JobId}
    (before : db.jobs.phaseOf jobId ≠ some .cancelled)
    (after : (stmt.effect db).jobs.phaseOf jobId = some .cancelled) :
    ∃ row ∈ db.jobs.jobs, row.id = jobId ∧ stmt.closes db.jobs row = true := by
  cases stmt with
  | jobs stmt =>
    cases stmt with
    | updateJobs update =>
      simp only [LoopStatement.effect, Jobs.phaseOf_updateJobs] at after
      obtain ⟨row, found, isPhase⟩ := Option.map_eq_some_iff.mp after
      refine ⟨row, mem_of_find?_eq_some found, Jobs.findJob_id found, ?_⟩
      split at isPhase
      · next chosen => simp [LoopStatement.closes, chosen, isPhase]
      · rw [JobsDb.phaseOf, found, Option.map_some, isPhase] at before
        exact absurd rfl before
    | insertAttempt new =>
      simp only [LoopStatement.effect, JobsDb.phaseOf, JobsDb.findJob, Jobs.insertAttempt_jobs] at after
      exact absurd after before
    | _ => exact absurd after before
  | promoteChildren parentId =>
    have found := find?_updateWhere Job.id (fun row => row.parentId == some parentId && row.phase == .backlog)
      (fun row => { row with phase := .ready, updatedAt := db.jobs.now })
      (fun _ _ => rfl) db.jobs.jobs jobId
    simp only [LoopStatement.effect, promoteChildren, JobsDb.phaseOf, JobsDb.findJob, found, Option.map_map] at after
    obtain ⟨row, isRow, isPhase⟩ := Option.map_eq_some_iff.mp after
    simp only [Function.comp_apply] at isPhase
    split at isPhase
    · cases isPhase
    · rw [JobsDb.phaseOf, JobsDb.findJob, isRow, Option.map_some, isPhase] at before
      exact absurd rfl before
  | unstage unstaged =>
    have found := find?_updateWhere Job.id (fun row => row.id == unstaged)
      (fun row => { row with
        hints := { row.hints with staged := false }, updatedAt := db.jobs.now })
      (fun _ _ => rfl) db.jobs.jobs jobId
    simp only [LoopStatement.effect, unstage, JobsDb.phaseOf, JobsDb.findJob, found, Option.map_map] at after
    obtain ⟨row, isRow, isPhase⟩ := Option.map_eq_some_iff.mp after
    rw [JobsDb.phaseOf, JobsDb.findJob, isRow, Option.map_some] at before
    refine absurd (congrArg some ?_) before
    rw [← isPhase]
    simp only [Function.comp_apply]
    split <;> rfl
  | _ => exact absurd after before

theorem spares_closes (isSpare : spares stmt) (db : JobsDb) (row : Job) : stmt.closes db row = false := by
  cases stmt with
  | jobs stmt =>
    cases stmt with
    | updateJobs update =>
      cases update with
      | released jobId => simp [LoopStatement.closes, JobUpdate.changes, Jobs.readyJob]
      | _ => cases isSpare
    | _ => rfl
  | _ => rfl

theorem current_unsucceeded {judged : Judgement} {db : JobsDb} (holds : judged.Holds db)
    (notSucceeded : judged.status ≠ .succeeded) (isCurrent : judged.current db = true) :
    JobsDb.succeededLatest db judged.jobId = false := by
  cases isLatest : db.latestAttempt judged.jobId fun _ => true with
  | none => simp [JobsDb.succeededLatest, isLatest]
  | some latest =>
    simp only [Judgement.current, isLatest, Option.all_some, beq_iff_eq] at isCurrent
    have unsucceeded := holds.unsucceeded notSucceeded latest (latestAttempt_mem isLatest) isCurrent
    simp [JobsDb.succeededLatest, isLatest, unsucceeded]

/-- In every run whose closing sweeps know of no success of the attempt they act on, and
take no succeeded job along, no sweep cancels a job whose latest attempt has succeeded. -/
theorem succeeded_work_survives {db : LoopDb} (numbered : Numbered db) (schedule : List (Choice RecoveryOperation))
    (finds : ∀ execution ∈ (runRecovery assemble toLowerCase db schedule).trace, findsUnsucceeded execution = true) :
    ∀ execution ∈ (runRecovery assemble toLowerCase db schedule).trace,
      bySweep execution = true → ∀ jobId, cancels execution jobId = true →
        JobsDb.succeededLatest execution.before.jobs jobId = false := by
  intro execution member isSweep jobId isCancel
  have kept := System.run_kept (RecoveryOperation.call assemble toLowerCase) schedule (fun session operation _ =>
    safe_recoveryOperation assemble toLowerCase session operation db) numbered fun _ _ => trivial
  obtain ⟨_, isAllowed⟩ := kept.executed execution member
  obtain ⟨_, after⟩ := System.run_executes (RecoveryOperation.call assemble toLowerCase) db schedule execution member
  have found := finds execution member
  obtain ⟨session, stmt, before, reached⟩ := execution
  cases stmt with
  | live stmt => cases isSweep
  | sweep tag stmt =>
    have isAfter : reached = stmt.effect before := after
    subst isAfter
    simp only [cancels, Bool.and_eq_true, bne_iff_ne, beq_iff_eq] at isCancel
    obtain ⟨row, present, named, closed⟩ := changed_job stmt isCancel.1 isCancel.2
    cases tag with
    | none =>
      rw [spares_closes isAllowed.2 before.jobs row] at closed
      cases closed
    | some judged =>
      simp only [findsUnsucceeded, all_eq_true] at found
      have finding := found row present
      simp only [closed, Bool.not_true, Bool.false_or] at finding
      split at finding
      · next own =>
        simp only [Bool.and_eq_true, bne_iff_ne] at finding
        rw [← named, beq_iff_eq.mp own]
        exact current_unsucceeded isAllowed.2 finding.1 finding.2
      · rw [named] at finding
        simpa using finding

end

def failedAttemptStore : LoopDb where
  jobs := {
    now := 60000
    jobs := [runningJob]
    attempts := [{ runningAttempt with status := .failed, endedAt := some 0 }]
    nextAttempt := 1 }

def sweepOfStuckJobs : List (Choice RecoveryOperation) :=
  .start (.recoverActiveJobsWithTerminatedAttempts {}) :: List.replicate 12 (.advance 0)

theorem sweep_of_failed_attempt :
    (runRecovery unpriced id failedAttemptStore sweepOfStuckJobs).store.jobs.phaseOf "job" = some .cancelled ∧
    ∀ execution ∈ (runRecovery unpriced id failedAttemptStore sweepOfStuckJobs).trace,
      bySweep execution = true → ∀ jobId, cancels execution jobId = true →
        JobsDb.succeededLatest execution.before.jobs jobId = false :=
  ⟨by decide +kernel, succeeded_work_survives unpriced id
    ⟨by decide, by decide, by decide⟩ sweepOfStuckJobs (by decide +kernel)⟩

/-- The worker answers, the attempt is completed, and the process stops before it has
closed the job. Half a minute later a sweep finds the job. -/
def stoppedFinalization : List (Choice RecoveryOperation) :=
  [.start (.processJob (fun _ => "bt_1") runningJob runningAttempt
      (.ok { success := true, exitCode := 0 })), .advance 0, .start (.jobQuery (.passTime 31000)), .advance 1,
    .start (.recoverActiveJobsWithTerminatedAttempts {})] ++ List.replicate 12 (.advance 2)

theorem stopped_finalization_failed : ¬ ∀ (db : LoopDb) (schedule : List (Choice RecoveryOperation)), Numbered db →
      ∀ execution ∈ (runRecovery unpriced id db schedule).trace,
        bySweep execution = true → ∀ jobId, cancels execution jobId = true →
          JobsDb.succeededLatest execution.before.jobs jobId = false := by
  intro survives
  have found : ∃ execution ∈ (runRecovery unpriced id runningStore stoppedFinalization).trace,
      bySweep execution = true ∧ cancels execution "job" = true ∧
        JobsDb.succeededLatest execution.before.jobs "job" = true := by decide +kernel
  obtain ⟨execution, member, isSweep, isCancel, succeeded⟩ := found
  have spared := survives runningStore stoppedFinalization ⟨by decide, by decide, by decide⟩
    execution member isSweep "job" isCancel
  rw [succeeded] at spared
  cases spared

end EveHorizon.Loop
