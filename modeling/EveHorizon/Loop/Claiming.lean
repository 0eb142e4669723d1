import EveHorizon.Loop.SucceededWork
import EveHorizon.Workflows.Creation

/-!
# Claiming the next job

How the orchestrator picks the next job. The candidates are read once, under a limit; each is
then skipped when its condition does not hold, passed over when the budget of its organization
is spent, or claimed. Texts of JSON columns are read by a function that is a parameter here.
-/

namespace EveHorizon.Loop

open Interleaving
open Jobs (JobId AttemptId Timestamp Phase Job JobAttempt JobsDb JobCall SchedulerStatement)
open Ledger (OrgId)
open Workflows (WorkflowStatement StepCondition ConditionOperator parseStepCondition)

structure OrchestratorDb where
  loop : LoopDb := {}
  -- The hints `budget_blocked` and `budget_blocked_reason` of the jobs that have them.
  budgetBlocked : List (JobId × String) := []

variable (db : OrchestratorDb)

def OrchestratorDb.jobs : JobsDb := db.loop.jobs

def OrchestratorDb.withJobs (jobs : JobsDb) : OrchestratorDb :=
  { db with loop := { db.loop with jobs } }

@[simp] theorem OrchestratorDb.jobs_withJobs (jobs : JobsDb) :
    (db.withJobs jobs).jobs = jobs := rfl

inductive OrchestratorStatement where
  | recovery (stmt : RecoveryStatement)
  | workflow (stmt : WorkflowStatement)
  | skipConditional (jobId : JobId)
  | annotateBudgetBlocked (jobId : JobId) (reason : String)
  | clearBudgetBlocked (jobId : JobId)

/-- `SET updated_at = NOW()`. -/
def touchJob (jobId : JobId) (jobs : JobsDb) : JobsDb :=
  { jobs with
    jobs := Table.updateWhere (·.id == jobId) (fun row => { row with updatedAt := jobs.now }) jobs.jobs }

def OrchestratorStatement.effect : OrchestratorStatement → OrchestratorDb → OrchestratorDb
  | .recovery stmt, db => { db with loop := stmt.erase.effect db.loop }
  | .workflow stmt, db => db.withJobs (stmt.effect db.jobs)
  | .skipConditional jobId, db =>
    db.withJobs (SchedulerStatement.effect (.skipConditional jobId) db.jobs)
  | .annotateBudgetBlocked jobId reason, db =>
    if (db.jobs.findJob jobId).isNone ∨ db.budgetBlocked.lookup jobId = some reason then db
    else
      { db.withJobs (touchJob jobId db.jobs) with
        budgetBlocked := (jobId, reason) :: db.budgetBlocked.filter (·.1 != jobId) }
  | .clearBudgetBlocked jobId, db =>
    if (db.budgetBlocked.lookup jobId).isNone then db
    else
      { db.withJobs (touchJob jobId db.jobs) with
        budgetBlocked := db.budgetBlocked.filter (·.1 != jobId) }

def OrchestratorStatement.ready : OrchestratorStatement → OrchestratorDb → Bool
  | .recovery stmt, db => stmt.erase.ready db.loop
  | _, _ => true

instance : Statement OrchestratorStatement OrchestratorDb where
  ready := OrchestratorStatement.ready
  effect := OrchestratorStatement.effect

abbrev OrchestratorCall := Call OrchestratorStatement OrchestratorDb String

def recovering {α : Type} (call : RecoveryCall α) : OrchestratorCall α :=
  call.lift .recovery OrchestratorDb.loop

def querying {α : Type} (call : JobCall α) : OrchestratorCall α := recovering (live (onJobs call))

def JobsDb.dependencies (db : JobsDb) (jobId : JobId) : List Job :=
  ((db.relations.filter (·.jobId == jobId)).filterMap fun relation =>
    db.findJob relation.relatedJobId).insertionSort fun left right =>
      right.phase.text < left.phase.text ∨ (left.phase = right.phase ∧ left.priority ≤ right.priority)

def JobsDb.siblingByStepName (db : JobsDb) (parentId : JobId) (stepName : String) : Option Job :=
  Table.latest (·.createdAt) (db.jobs.filter fun row =>
    row.parentId == some parentId && row.stepName == some stepName && row.hints.workflowRetrySupersededBy.isNone)

def isStep (stepName : String) (row : Job) : Bool :=
  row.stepName == some stepName || row.hints.stepName == some stepName

structure ConditionResult where
  shouldRun : Bool
  reason : Option String := none

def StepCondition.holds (parsed : StepCondition) (actualStatus : Option String) : Bool :=
  match parsed.operator with
  | .equal => actualStatus == some parsed.value
  | .notEqual => actualStatus != some parsed.value

section

variable (parseJson : String → Option Json)

def statusMember (value : Json) : Option String :=
  match Json.Member.get "eve".toList (.json value) with
  | .json (.object members) =>
    match members.lookup "status".toList with
    | some (.string text) => some (String.ofList text)
    | _ => none
  | _ => none

/-- The status in a result, which may be kept as the text of its text. -/
def eveStatus (resultJson : String) : Option String :=
  match parseJson resultJson with
  | some (.string text) => (parseJson (String.ofList text)).bind statusMember
  | some value => statusMember value
  | none => none

def JobsDb.actualStatus (db : JobsDb) (jobId : JobId) : Option String :=
  (db.latestAttempt jobId fun _ => true).bind fun attempt =>
    attempt.result.resultJson.bind (eveStatus parseJson)

def statusDisplay (actualStatus : Option String) : String :=
  match actualStatus with
  | some status => "\"" ++ status ++ "\""
  | none => "undefined"

def conditionResult (condition : String) (parsed : StepCondition) (actualStatus : Option String) : ConditionResult :=
  if StepCondition.holds parsed actualStatus then { shouldRun := true }
  else
    { shouldRun := false
      reason := some ("Condition \"" ++ condition ++ "\" not met (actual status: " ++
        statusDisplay actualStatus ++ ")") }

/-- The dependency of the name, else the newest sibling that is not superseded. -/
def findConditionStep (job : Job) (parentId : JobId) (stepName : String) : OrchestratorCall (Option Job) := do
  let dependencies ← querying (Jobs.select (JobsDb.dependencies · job.id))
  match dependencies.find? (isStep stepName) with
  | some dependency => return some dependency
  | none => querying (Jobs.select (JobsDb.siblingByStepName · parentId stepName))

/-- `none` lets the job run. -/
def evaluateStepCondition (job : Job) : OrchestratorCall (Option ConditionResult) :=
  match job.hints.condition, Pipelines.truthy job.parentId with
  | some condition, some parentId =>
    match parseStepCondition condition with
    | none => return none
    | some parsed => do
      match ← findConditionStep job parentId parsed.stepName with
      | none => return none
      | some step =>
        if step.phase.terminal = false then return none
        else
          let actualStatus ← querying (Jobs.select (JobsDb.actualStatus parseJson · step.id))
          return some (conditionResult condition parsed actualStatus)
  | _, _ => return none

end

def skipConditionalJob (jobId : JobId) : OrchestratorCall Unit :=
  .perform (.skipConditional jobId) fun _ => ()

structure OrgBudget where
  hardCapAmount : Option Rat := none
  dailyMaxAmount : Option Rat := none
  billedTotal : Option Rat := some 0
  billedLastDay : Option Rat := some 0

def readPositiveNumber (value : Option Rat) : Option Rat := value.filter fun amount => 0 ≤ amount

def capReached (cap current : Option Rat) : Bool :=
  match cap, current with
  | some cap, some current => cap ≤ current
  | _, _ => false

def OrgBudget.blocks (budget : OrgBudget) : Option String :=
  if capReached (readPositiveNumber budget.hardCapAmount) budget.billedTotal then
    some "org hard cap exceeded"
  else if capReached (readPositiveNumber budget.dailyMaxAmount) budget.billedLastDay then
    some "org daily max exceeded"
  else none

/-- What the admission check reads of an organization, unless a read throws. -/
abbrev Budgets := OrgId → Except String OrgBudget

/-- Why the job may not be admitted; a check that throws admits it. -/
def LoopDb.budgetBlock (db : LoopDb) (budgets : Budgets) (job : Job) : Option String :=
  match db.findProject job.projectId with
  | none => none
  | some project =>
    match budgets project.orgId with
    | .error _ => none
    | .ok budget => budget.blocks

def checkJobAdmissionBudget (budgets : Budgets) (job : Job) : OrchestratorCall (Option String) :=
  recovering (live (select (LoopDb.budgetBlock · budgets job)))

def annotateBudgetBlocked (jobId : JobId) (reason : String) : OrchestratorCall Unit :=
  .perform (.annotateBudgetBlocked jobId reason) fun _ => ()

def clearBudgetBlocked (jobId : JobId) : OrchestratorCall Unit :=
  .perform (.clearBudgetBlocked jobId) fun _ => ()

section

variable (parseJson : String → Option Json) (budgets : Budgets)

def claimCandidate (agentId : String) (job : Job) : OrchestratorCall (Option (Job × JobAttempt)) := do
  let effectiveHarness := job.harness <|> job.hints.harness
  let result ← querying (Jobs.claim job.id agentId effectiveHarness)
  match result.success, result.attempt with
  | true, some attempt =>
    match ← querying (Jobs.findById job.id) with
    | none => return none
    | some updatedJob => return some (updatedJob, attempt)
  | _, _ => return none

def considerCandidate (agentId : String) (job : Job) : OrchestratorCall (Option (Job × JobAttempt)) := do
  let condition ← evaluateStepCondition parseJson job
  if condition.any (!·.shouldRun) then
    skipConditionalJob job.id
    return none
  else
    match ← checkJobAdmissionBudget budgets job with
    | some reason =>
      annotateBudgetBlocked job.id reason
      return none
    | none =>
      clearBudgetBlocked job.id
      claimCandidate agentId job

def claimFirst (agentOf : Job → String) : List Job → OrchestratorCall (Option (Job × JobAttempt))
  | [] => return none
  | job :: rest => do
    match ← considerCandidate parseJson budgets (agentOf job) job with
    | some claimed => return some claimed
    | none => claimFirst agentOf rest

def claimNextJobWithBudgetCheck : OrchestratorCall (Option (Job × JobAttempt)) := do
  let candidates ← querying (Jobs.getReadyJobs "" 20)
  claimFirst parseJson budgets (fun _ => "orchestrator") candidates

def getReadyAssignedJobs (projectId : String) (limit : Nat) : JobCall (List Job) :=
  Jobs.select fun db =>
    ((db.jobs.filter fun row =>
      db.projects.contains row.projectId && (projectId == "" || row.projectId == projectId) &&
      (row.phase == .ready || row.phase == .active) && row.assignee.isSome && row.executionType == some "agent" &&
      (match row.deferUntil with
        | none => true
        | some deferUntil => decide (deferUntil ≤ db.now)) &&
      !db.isBlocked row.id).insertionSort fun left right =>
        left.priority < right.priority ∨
          (left.priority = right.priority ∧ left.createdAt ≤ right.createdAt)).take limit

def claimNextAssignedJobWithBudgetCheck : OrchestratorCall (Option (Job × JobAttempt)) := do
  let candidates ← querying (getReadyAssignedJobs "" 20)
  claimFirst parseJson budgets (fun job => job.assignee.getD "orchestrator") candidates

end

section

variable {α : Type}

theorem alone_recovering (call : RecoveryCall α) (db : OrchestratorDb) :
    (recovering call).alone db = ((call.alone db.loop).1, { db with loop := (call.alone db.loop).2 }) :=
  Call.alone_lift_part OrchestratorStatement.recovery OrchestratorDb.loop
    (fun db loop => { db with loop := loop }) (fun _ _ => rfl) (fun _ _ _ => rfl) (fun _ => rfl)
    (fun _ _ => rfl) call db

theorem alone_querying (call : JobCall α) (db : OrchestratorDb) :
    (querying call).alone db = ((call.alone db.jobs).1, db.withJobs (call.alone db.jobs).2) := by
  rw [querying, alone_recovering, alone_live, alone_onJobs]
  rfl

theorem alone_querying_select (query : JobsDb → α) (db : OrchestratorDb) :
    (querying (Jobs.select query)).alone db = (.ok (query db.jobs), db) := by
  rw [alone_querying]
  rfl

end

def JobsDb.conditionStep (db : JobsDb) (job : Job) (parentId : JobId) (stepName : String) : Option Job :=
  ((JobsDb.dependencies db job.id).find? (isStep stepName)).or
    (JobsDb.siblingByStepName db parentId stepName)

theorem findConditionStep_alone (job : Job) (parentId : JobId) (stepName : String) (db : OrchestratorDb) :
    (findConditionStep job parentId stepName).alone db =
      (.ok (JobsDb.conditionStep db.jobs job parentId stepName), db) := by
  rw [findConditionStep, Call.alone_bind, alone_querying_select]
  unfold JobsDb.conditionStep
  dsimp only
  cases (JobsDb.dependencies db.jobs job.id).find? (isStep stepName) with
  | some dependency => rfl
  | none => exact alone_querying_select _ _

section

variable (parseJson : String → Option Json)

def JobsDb.conditionOf (db : JobsDb) (job : Job) : Option ConditionResult :=
  match job.hints.condition, Pipelines.truthy job.parentId with
  | some condition, some parentId =>
    (parseStepCondition condition).bind fun parsed =>
      (JobsDb.conditionStep db job parentId parsed.stepName).bind fun step =>
        if step.phase.terminal = false then none
        else some (conditionResult condition parsed (JobsDb.actualStatus parseJson db step.id))
  | _, _ => none

theorem evaluateStepCondition_alone (job : Job) (db : OrchestratorDb) :
    (evaluateStepCondition parseJson job).alone db = (.ok (JobsDb.conditionOf parseJson db.jobs job), db) := by
  unfold evaluateStepCondition JobsDb.conditionOf
  split
  · next condition parentId _ _ =>
      cases parseStepCondition condition with
      | none => rfl
      | some parsed =>
        dsimp only
        rw [Call.alone_bind, findConditionStep_alone, Option.bind_some]
        cases JobsDb.conditionStep db.jobs job parentId parsed.stepName with
        | none => rfl
        | some step =>
          dsimp only [Option.bind_some]
          split
          · rfl
          · rw [Call.alone_bind, alone_querying_select]
            rfl
  · rfl

end

section

variable (assemble : AssembleReceipt) (toLowerCase : String → String) (parseJson : String → Option Json)

inductive OrchestratorOperation where
  | recovery (operation : RecoveryOperation)
  | claimNextJobWithBudgetCheck (budgets : Budgets)
  | claimNextAssignedJobWithBudgetCheck (budgets : Budgets)

def OrchestratorOperation.call (session : Nat) : OrchestratorOperation → OrchestratorCall Unit
  | .recovery operation => recovering (operation.call assemble toLowerCase session)
  | .claimNextJobWithBudgetCheck budgets => do
    let _ ← Loop.claimNextJobWithBudgetCheck parseJson budgets
    return ()
  | .claimNextAssignedJobWithBudgetCheck budgets => do
    let _ ← Loop.claimNextAssignedJobWithBudgetCheck parseJson budgets
    return ()

def runOrchestrator (db : OrchestratorDb) (schedule : List (Choice OrchestratorOperation)) :
    System OrchestratorStatement OrchestratorDb String Unit :=
  System.run (OrchestratorOperation.call assemble toLowerCase parseJson) db schedule

end

end EveHorizon.Loop
