import EveHorizon.Loop.Claiming

/-!
# What the orchestrator issues

The calls of the orchestrator are built from a few job queries and statements of their own.
-/

namespace EveHorizon.Loop

open Interleaving
open Jobs (JobId AttemptId Timestamp Phase Job JobAttempt JobsDb JobStatement JobCall JobOperation AttemptUpdate)

structure Permits (assumed : JobsDb → Prop) (issued : LoopStatement → Prop) (skips : JobId → Prop) :
    Prop extends RecoveryPermits assumed issued where
  claim : ∀ jobId agentId harness,
    (Jobs.claim jobId agentId harness).IssuesWhile assumed fun stmt => issued (.jobs stmt)
  skip : ∀ db, assumed db → ∀ row ∈ db.jobs, row.phase = .ready ∨ row.phase = .active → skips row.id :=
    by intros; trivial

def OrchestratorStatement.Within (issued : LoopStatement → Prop) (skips : JobId → Prop) : OrchestratorStatement → Prop
  | .recovery stmt => issued stmt.erase
  | .workflow _ => False
  | .skipConditional jobId => skips jobId
  | .annotateBudgetBlocked _ _ => True
  | .clearBudgetBlocked _ => True

section

variable {assumed : JobsDb → Prop} {issued : LoopStatement → Prop} {skips : JobId → Prop}

variable (assumed issued skips) in
abbrev OrchestratorKeeps {α : Type} (call : OrchestratorCall α) : Prop :=
  call.IssuesWhile (fun db => assumed db.jobs) (OrchestratorStatement.Within issued skips)

section

variable {α : Type}

theorem recovering_keeps {call : RecoveryCall α} (issues : RecoveryKeeps assumed issued call) :
    OrchestratorKeeps assumed issued skips (recovering call) := by
  have embedded : call.IssuesWhile (fun db => assumed db.jobs) fun stmt =>
      OrchestratorStatement.Within issued skips (.recovery stmt) := issues
  exact Call.IssuesWhile.lift _ _ embedded fun _ holds => holds

theorem querying_keeps {call : JobCall α}
    (issues : call.IssuesWhile assumed fun stmt => issued (.jobs stmt)) :
    OrchestratorKeeps assumed issued skips (querying call) :=
  recovering_keeps (live_keeps (onJobs_keeps issues))

end

namespace RecoveryPermits

variable (permits : RecoveryPermits assumed issued)
include permits

variable (assemble : AssembleReceipt) (toLowerCase : String → String) (session : Nat)

theorem recoveryOperation (operation : RecoveryOperation) (query : ∀ query, operation = .jobQuery query →
      query.call.IssuesWhile assumed fun stmt => issued (.jobs stmt)) :
    RecoveryKeeps assumed issued (operation.call assemble toLowerCase session) := by
  cases operation with
  | jobQuery operation =>
    refine live_keeps ?_
    exact (onJobs_keeps (query operation rfl)).bind fun _ => trivial
  | processJob newId job attempt worker =>
    exact live_keeps (permits.processJob assemble toLowerCase session newId job attempt worker)
  | logCompletion log => exact live_keeps (Call.issuesWhile_perform (permits.appendCompletion log))
  | tryCloseWorkflowRoot parentId => exact live_keeps (permits.tryCloseWorkflowRoot parentId)
  | watchdog config readings kind => exact permits.watchdog config readings kind
  | recoverActiveJobsWithTerminatedAttempts config =>
    exact permits.recoverActiveJobsWithTerminatedAttempts config
  | recoverOrphanedJobs config readings => exact permits.recoverOrphanedJobs config readings
  | recoverCompletedAttempts newId inFlight now =>
    exact permits.sweepCompletedAttempts assemble toLowerCase session newId inFlight now

end RecoveryPermits

namespace Permits

variable (permits : Permits assumed issued skips)
include permits

section

variable (parseJson : String → Option Json) (budgets : Budgets)

theorem evaluateStepCondition (job : Job) :
    OrchestratorKeeps assumed issued skips (Loop.evaluateStepCondition parseJson job) := by
  unfold Loop.evaluateStepCondition
  split
  · split
    · trivial
    · next parsed _ =>
        refine Call.IssuesWhile.bind ?_ fun step => ?_
        · refine (querying_keeps (permits.queries _)).bind fun dependencies => ?_
          split
          · trivial
          · exact querying_keeps (permits.queries _)
        · cases step with
          | none => trivial
          | some step =>
            dsimp only
            split
            · trivial
            · exact (querying_keeps (permits.queries _)).bind fun _ => trivial
  · trivial

theorem considerCandidate (agentId : String) {job : Job} (skip : skips job.id) :
    OrchestratorKeeps assumed issued skips (Loop.considerCandidate parseJson budgets agentId job) := by
  have skipping : OrchestratorStatement.Within issued skips (.skipConditional job.id) := skip
  refine (permits.evaluateStepCondition parseJson job).bind fun condition => ?_
  split
  · exact (Call.issuesWhile_perform skipping).bind fun _ => trivial
  · refine (recovering_keeps (live_keeps (permits.selects _))).bind fun blocked => ?_
    cases blocked with
    | some reason => exact (Call.issuesWhile_perform trivial).bind fun _ => trivial
    | none =>
      refine (Call.issuesWhile_perform trivial).bind fun _ => ?_
      refine (querying_keeps (permits.claim _ _ _)).bind fun result => ?_
      split
      · refine (querying_keeps (permits.queries _)).bind fun updated => ?_
        cases updated with
        | none | some updatedJob => trivial
      · trivial

theorem claimFirst (agentOf : Job → String) {candidates : List Job} (skip : ∀ job ∈ candidates, skips job.id) :
    OrchestratorKeeps assumed issued skips (Loop.claimFirst parseJson budgets agentOf candidates) := by
  induction candidates with
  | nil => trivial
  | cons job rest ih =>
    have turn := permits.considerCandidate parseJson budgets (agentOf job) (skip job List.mem_cons_self)
    refine turn.bind fun claimed => ?_
    cases claimed with
    | some claimed => trivial
    | none => exact ih fun other member => skip other (List.mem_cons_of_mem _ member)

omit permits in
theorem queued_phase {jobs : List Job} {wanted : Job → Bool} {before : Job → Job → Prop}
    [DecidableRel before] {limit : Nat} {row : Job}
    (phases : ∀ row, wanted row = true → row.phase = .ready ∨ row.phase = .active)
    (member : row ∈ ((jobs.filter wanted).insertionSort before).take limit) :
    row ∈ jobs ∧ (row.phase = .ready ∨ row.phase = .active) := by
  obtain ⟨listed, selected⟩ := List.mem_filter.mp ((List.mem_insertionSort _).mp (List.mem_of_mem_take member))
  exact ⟨listed, phases row selected⟩

theorem claimNextJobWithBudgetCheck :
    OrchestratorKeeps assumed issued skips (Loop.claimNextJobWithBudgetCheck parseJson budgets) := by
  refine ⟨permits.selectJobs, fun db holds => ?_⟩
  refine permits.claimFirst parseJson budgets _ fun job member => ?_
  obtain ⟨listed, phase⟩ := queued_phase (fun row => by simp; tauto) member
  exact permits.skip db.jobs holds job listed phase

theorem claimNextAssignedJobWithBudgetCheck :
    OrchestratorKeeps assumed issued skips (Loop.claimNextAssignedJobWithBudgetCheck parseJson budgets) := by
  refine ⟨permits.selectJobs, fun db holds => ?_⟩
  refine permits.claimFirst parseJson budgets _ fun job member => ?_
  obtain ⟨listed, phase⟩ := queued_phase (fun row => by simp; tauto) member
  exact permits.skip db.jobs holds job listed phase

end

theorem orchestratorOperation (assemble : AssembleReceipt)
    (toLowerCase : String → String) (parseJson : String → Option Json) (session : Nat)
    (operation : OrchestratorOperation) (query : ∀ query, operation = .recovery (.jobQuery query) →
      query.call.IssuesWhile assumed fun stmt => issued (.jobs stmt)) :
    OrchestratorKeeps assumed issued skips (operation.call assemble toLowerCase parseJson session) := by
  cases operation with
  | recovery operation =>
    refine recovering_keeps ?_
    exact permits.recoveryOperation assemble toLowerCase session operation
      fun asked same => query asked (congrArg _ same)
  | claimNextJobWithBudgetCheck budgets =>
    exact (permits.claimNextJobWithBudgetCheck parseJson budgets).bind fun _ => trivial
  | claimNextAssignedJobWithBudgetCheck budgets =>
    exact (permits.claimNextAssignedJobWithBudgetCheck parseJson budgets).bind fun _ => trivial

end Permits

end

end EveHorizon.Loop
