import EveHorizon.Loop.Inventory
import EveHorizon.Sync.Engine
import EveHorizon.Workflows.Rejection

/-!
# The review gate

Workers, reviewers, the sweeps of the orchestrator and the external sync, statement by statement
in any order.
-/

namespace EveHorizon.Sync

open Interleaving Call
open Jobs (JobId Timestamp Phase ReviewRequired Job JobsDb JobStatement JobUpdate JobCall JobOperation)
open Loop (LoopDb LoopStatement OrchestratorDb OrchestratorStatement OrchestratorOperation Permits AssembleReceipt)

inductive SyncRequest where
  | pullFromExternal | pushToExternal | syncMappedJobs | sync

section

variable {Item ItemParams : Type}

def SyncRequest.call (engine : SyncEngine Item ItemParams) (projectId : String)
    (options : SyncOptions) : SyncRequest → SyncCall Item SyncResult
  | .pullFromExternal => engine.pullFromExternal projectId options
  | .pushToExternal => engine.pushToExternal projectId options
  | .syncMappedJobs => engine.syncMappedJobs projectId options
  | .sync => engine.sync projectId options

variable (Item ItemParams) in
/-- What runs beside agents: the calls of the orchestrator and of the sync. -/
inductive AgentOperation where
  | orchestrator (operation : OrchestratorOperation)
  | sync (engine : SyncEngine Item ItemParams) (projectId : String) (options : SyncOptions)
      (request : SyncRequest)

variable (assemble : AssembleReceipt) (toLowerCase : String → String) (parseJson : String → Option Json)

def AgentOperation.call (session : Nat) : AgentOperation Item ItemParams → SyncCall Item Unit
  | .orchestrator operation =>
    orchestrating (operation.call assemble toLowerCase parseJson session)
  | .sync engine projectId options request => do
    let _ ← request.call engine projectId options
    return ()

def runAgentPath (db : SyncDb Item) (schedule : List (Choice (AgentOperation Item ItemParams))) :
    System (SyncStatement Item) (SyncDb Item) String Unit :=
  System.run (AgentOperation.call assemble toLowerCase parseJson) db schedule

end

section

variable {Item : Type}

def SyncStatement.update : SyncStatement Item → Option JobUpdate
  | .base (.recovery statement) =>
    match statement.erase with
    | .jobs (.updateJobs update) => some update
    | _ => none
  | _ => none

def SyncStatement.Approves (stmt : SyncStatement Item) (jobId : JobId) : Prop :=
  ∃ reviewerId closeReason, stmt.update = some (.approved jobId reviewerId closeReason)

structure Awaits (db : JobsDb) (jobId : JobId) (row : Job) : Prop where
  found : db.findJob jobId = some row
  required : row.reviewRequired ≠ .none
  unfinished : row.phase ≠ .done

/-- A job that asks for a review gets done only out of `review`, by an approval. -/
def ReviewedFirst (execution : Execution (SyncStatement Item) (SyncDb Item)) : Prop :=
  ∀ jobId row, Awaits execution.before.jobs jobId row → execution.after.jobs.phaseOf jobId = some .done →
      row.phase = .review ∧ execution.statement.Approves jobId

/-- What the code leaves to its callers where a job awaits a review. -/
structure Careful (execution : Execution (SyncStatement Item) (SyncDb Item)) : Prop where
  -- `approveReview` writes by id.
  approvals : ∀ jobId row, Awaits execution.before.jobs jobId row →
    execution.statement.Approves jobId → row.phase = .review
  -- `updatePhase` takes a job in review to done.
  transitions : ∀ jobId row valid, Awaits execution.before.jobs jobId row →
    execution.statement.update = some (.phaseChanged jobId .review .done valid) → row.phase ≠ .review
  skips : ∀ jobId row, Awaits execution.before.jobs jobId row →
    execution.statement = .base (.skipConditional jobId) → row.phase.terminal = true
  syncs : ∀ jobId row params, Awaits execution.before.jobs jobId row →
    execution.statement = .updateJob jobId params → params.phase ≠ some .done

end

structure Reviewed (review : JobId → ReviewRequired) (db : JobsDb) : Prop where
  rows : ∀ jobId row, db.findJob jobId = some row → row.reviewRequired = review jobId
  filed : ∀ jobId, review jobId ≠ .none → (db.findJob jobId).isSome = true

def looksAtReview (review : JobId → ReviewRequired) : LoopStatement → Prop
  | .jobs (.updateJobs (.phaseChanged jobId current .done _)) =>
    review jobId = .none ∨ current = .review
  | _ => True

variable {selected : Job → Bool} {change : Job → Job}

section

variable {review : JobId → ReviewRequired} {db : JobsDb}

theorem Reviewed.updateWhere (reviewed : Reviewed review db) (ids : ∀ row, (change row).id = row.id)
    (reviews : ∀ row, (change row).reviewRequired = row.reviewRequired) :
    Reviewed review { db with jobs := Table.updateWhere selected change db.jobs } := by
  have found : ∀ jobId, JobsDb.findJob { db with jobs := Table.updateWhere selected change db.jobs }
      jobId = (db.findJob jobId).map fun row => if selected row then change row else row :=
    fun jobId => Table.find?_updateWhere Job.id selected change (fun row _ => ids row) db.jobs jobId
  constructor
  · intro jobId row isFound
    rw [found] at isFound
    obtain ⟨old, before, rfl⟩ := Option.map_eq_some_iff.mp isFound
    have same := reviewed.rows jobId old before
    split
    · exact (reviews old).trans same
    · exact same
  · intro jobId required
    rw [found, Option.isSome_map]
    exact reviewed.filed jobId required

theorem changes_reviewRequired (now : Timestamp) (update : JobUpdate) (row : Job) :
    (update.changes now row).reviewRequired = row.reviewRequired := by
  cases update with
  | requeued jobId deferUntil => cases deferUntil <;> rfl
  | _ => rfl

theorem Reviewed.insertJob (reviewed : Reviewed review db) {job : Job} (unreviewed : job.reviewRequired = .none) :
    Reviewed review (Workflows.WorkflowStatement.effect (.insertJob job) db) := by
  rw [Workflows.WorkflowStatement.effect]
  split
  · exact reviewed
  · next unused =>
      have found : ∀ jobId, JobsDb.findJob
          { db with jobs := db.jobs ++ [Workflows.newJob db.now job] } jobId =
            (db.findJob jobId).or (if job.id = jobId then some (Workflows.newJob db.now job) else none) := by
        intro jobId
        rw [JobsDb.findJob, List.find?_append]
        simp [JobsDb.findJob, List.find?_cons, Workflows.newJob]
        split <;> simp_all
      constructor
      · intro jobId row isFound
        rw [found] at isFound
        cases before : db.findJob jobId with
        | some old =>
          rw [before] at isFound
          exact reviewed.rows jobId row (before.trans isFound)
        | none =>
          rw [before, Option.none_or] at isFound
          split at isFound
          · cases isFound
            have free : review jobId = .none := by
              by_contra required
              have filed := reviewed.filed jobId required
              rw [before] at filed
              cases filed
            rw [free]
            exact unreviewed
          · cases isFound
      · intro jobId required
        rw [found]
        cases before : db.findJob jobId with
        | some old => rfl
        | none =>
          have filed := reviewed.filed jobId required
          rw [before] at filed
          cases filed

theorem reviewed_loop {db : LoopDb} (reviewed : Reviewed review db.jobs)
    (stmt : LoopStatement) : Reviewed review (stmt.effect db).jobs := by
  cases stmt with
  | jobs stmt =>
    cases stmt with
    | updateJobs update =>
      exact reviewed.updateWhere (update.changes_id _) (changes_reviewRequired _ update)
    | insertAttempt new =>
      have same : ((JobStatement.insertAttempt new).effect db.jobs).jobs = db.jobs.jobs :=
        Jobs.insertAttempt_jobs new db.jobs
      constructor
      · intro jobId row found
        exact reviewed.rows jobId row (by rwa [JobsDb.findJob, ← same])
      · intro jobId required
        change (((JobStatement.insertAttempt new).effect db.jobs).jobs.find? _).isSome = true
        rw [same]
        exact reviewed.filed jobId required
    | _ => exact ⟨reviewed.rows, reviewed.filed⟩
  | promoteChildren parentId | unstage jobId => exact reviewed.updateWhere (fun _ => rfl) fun _ => rfl
  | _ => exact ⟨reviewed.rows, reviewed.filed⟩

theorem reviewed_touchJob (reviewed : Reviewed review db) (jobId : JobId) : Reviewed review (Loop.touchJob jobId db) :=
  reviewed.updateWhere (fun _ => rfl) fun _ => rfl

theorem reviewed_orchestrator {db : OrchestratorDb} (reviewed : Reviewed review db.jobs)
    {stmt : OrchestratorStatement} (plain : ∀ workflow, stmt ≠ .workflow workflow) :
    Reviewed review (stmt.effect db).jobs := by
  cases stmt with
  | recovery stmt => exact reviewed_loop reviewed stmt.erase
  | workflow stmt => exact absurd rfl (plain stmt)
  | skipConditional jobId => exact reviewed.updateWhere (fun _ => rfl) fun _ => rfl
  | annotateBudgetBlocked jobId reason | clearBudgetBlocked jobId =>
    rw [OrchestratorStatement.effect]
    split
    · exact reviewed
    · exact reviewed_touchJob reviewed jobId

end

def SyncStatement.Within {Item : Type} (review : JobId → ReviewRequired) : SyncStatement Item → Prop
  | .base (.workflow (.jobs .select)) => True
  | .base (.workflow (.insertJob job)) => job.reviewRequired = .none
  | .base statement => statement.Within (looksAtReview review) fun _ => True
  | _ => True

section

variable {Item : Type} {review : JobId → ReviewRequired} {stmt : SyncStatement Item}

theorem Reviewed.effect {db : SyncDb Item} (reviewed : Reviewed review db.jobs) (issued : stmt.Within review) :
    Reviewed review (stmt.effect db).jobs := by
  cases stmt with
  | base stmt =>
    cases stmt with
    | workflow stmt =>
      cases stmt with
      | jobs stmt =>
        cases stmt with
        | select => exact reviewed
        | _ => exact issued.elim
      | insertJob job => exact reviewed.insertJob issued
      | _ => exact issued.elim
    | _ => exact reviewed_orchestrator reviewed fun _ => nofun
  | updateJob jobId params =>
    rw [SyncStatement.effect]
    split
    · exact reviewed
    · exact reviewed.updateWhere (fun _ => rfl) fun _ => rfl
  | upsertMapping mapping =>
    dsimp only [SyncStatement.effect]
    split
    · exact reviewed
    · exact reviewed
  | _ => exact reviewed

variable (jobId : JobId)

theorem updatePhase_looks (newPhase : Phase) :
    (Jobs.updatePhase jobId newPhase).IssuesWhile (Reviewed review)
      fun stmt => looksAtReview review (.jobs stmt) := by
  refine issuesWhile_perform_bind trivial fun db reviewed => ?_
  cases found : db.findJob jobId with
  | none => trivial
  | some currentJob =>
    simp only
    split
    · split
      · trivial
      · next valid allowed =>
          refine IssuesWhile.bind (issuesWhile_perform ?_) fun updated => ?_
          · cases newPhase with
            | done =>
              change review jobId = .none ∨ currentJob.phase = .review
              rw [← reviewed.rows jobId currentJob found]
              by_contra neither
              rw [not_or] at neither
              exact allowed ⟨rfl, neither.1, neither.2⟩
            | _ => trivial
          · cases updated with
            | none | some updatedJob => trivial
    · trivial

variable {α : Type}

theorem writes_look {call : JobCall α} {writes : Jobs.Writes} (issues : call.Writes writes)
    (silent : ∀ jobId current new valid, ¬ writes.updates (.phaseChanged jobId current new valid)) :
    call.IssuesWhile (Reviewed review) fun stmt => looksAtReview review (.jobs stmt) := by
  refine (Issues.imp issues fun stmt allowed => ?_).issuesWhile _
  cases stmt with
  | updateJobs update =>
    cases update with
    | phaseChanged jobId current new valid => exact absurd allowed (silent _ _ _ _)
    | _ => trivial
  | _ => trivial

theorem markJobDone_looks (summary : Option String) :
    (Jobs.markJobDone jobId summary).IssuesWhile (Reviewed review)
      fun stmt => looksAtReview review (.jobs stmt) := by
  refine IssuesWhile.found trivial trivial fun job => ?_
  have submits : ∀ agentId summary, (Jobs.submitForReview jobId agentId summary).IssuesWhile
      (Reviewed review) fun stmt => looksAtReview review (.jobs stmt) :=
    fun agentId summary => writes_look (Jobs.submitForReview_writes jobId agentId summary)
      (by simp [Jobs.submitWrites])
  simp only
  split
  · trivial
  · split
    · split
      · refine (submits _ _).bind fun _ => ?_
        exact issuesWhile_perform trivial
      · exact issuesWhile_perform trivial
    · exact (updatePhase_looks jobId .done).bind fun _ => trivial

theorem operation_looks (operation : JobOperation) : operation.call.IssuesWhile (Reviewed review)
    fun stmt => looksAtReview review (.jobs stmt) := by
  have writes := operation.call_writes
  cases operation with
  | markJobDone jobId summary => exact (markJobDone_looks jobId summary).bind fun _ => trivial
  | updatePhase jobId newPhase => exact (updatePhase_looks jobId newPhase).bind fun _ => trivial
  | claim | claimNextJob => exact writes_look writes (by simp [JobOperation.writes, Jobs.claimWrites])
  | release => exact writes_look writes (by simp [JobOperation.writes, Jobs.releaseWrites])
  | requeueReady => exact writes_look writes (by simp [JobOperation.writes, Jobs.requeueWrites])
  | submitForReview => exact writes_look writes (by simp [JobOperation.writes, Jobs.submitWrites])
  | approveReview => exact writes_look writes (by simp [JobOperation.writes, Jobs.approveWrites])
  | rejectReview => exact writes_look writes (by simp [JobOperation.writes, Jobs.rejectWrites])
  | cancelJob | markJobFailed => exact writes_look writes (by simp [JobOperation.writes, Jobs.closingWrites])
  | completeAttempt | passTime => exact writes_look writes fun _ _ _ _ => id

theorem permits_reviewed (review : JobId → ReviewRequired) :
    Permits (Reviewed review) (looksAtReview review) fun _ => True where
  claim jobId agentId harness :=
    writes_look (Jobs.claim_writes jobId agentId harness) (by simp [Jobs.claimWrites])
  requeueReady jobId actor deferUntil reason :=
    writes_look (Jobs.requeueReady_writes jobId actor deferUntil reason)
      (by simp [Jobs.requeueWrites])
  markJobDone := markJobDone_looks
  cancelJob jobId reason := writes_look (Jobs.cancelJob_writes jobId reason) (by simp [Jobs.closingWrites])
  markJobFailed jobId reason :=
    writes_look (Jobs.markJobFailed_writes jobId reason) (by simp [Jobs.closingWrites])

variable (review) in
abbrev SyncIssues {α : Type} (call : SyncCall Item α) : Prop := call.Issues (SyncStatement.Within review)

theorem creating_issues {call : Workflows.WorkflowCall α}
    (issues : call.Issues fun stmt => SyncStatement.Within review
      (.base (.workflow stmt) : SyncStatement Item)) : SyncIssues review (creating call : SyncCall Item α) := by
  unfold creating
  induction call with
  | ret value | raise error => trivial
  | stmt stmt next ih => exact ⟨issues.1, fun db => ih _ (issues.2 db.jobs)⟩

theorem ofExcept_issues {issued : Workflows.WorkflowStatement → Prop} (result : Except Workflows.Failure α) :
    (Call.ofExcept result : Workflows.WorkflowCall α).Issues issued := by
  cases result with
  | ok value | error failure => trivial

theorem select_issues (query : SyncDb Item → α) : SyncIssues review (select query) :=
  issues_perform trivial

theorem run_issues (within : stmt.Within review) : SyncIssues review (run stmt) :=
  issues_perform within

namespace SyncEngine

variable {ItemParams : Type} (engine : SyncEngine Item ItemParams) (projectId : String)

theorem generateJobId_issues (parentId : Option JobId) :
    (engine.generateJobId projectId parentId).Issues fun stmt => SyncStatement.Within review
      (.base (.workflow stmt) : SyncStatement Item) := by
  cases parentId with
  | none =>
    refine Issues.bind (ofExcept_issues _) fun project => ?_
    exact issues_perform trivial
  | some parentId =>
    refine Issues.bind (ofExcept_issues _) fun project => ?_
    split
    · trivial
    · exact Issues.found trivial trivial fun _ => trivial

theorem create_issues {job : Job} (unreviewed : job.reviewRequired = .none) :
    (Workflows.create job).Issues fun stmt => SyncStatement.Within review
      (.base (.workflow stmt) : SyncStatement Item) := by
  refine ⟨unreviewed, fun db => ?_⟩
  beta_reduce
  split <;> trivial

theorem updateJob_issues (params : JobUpdateParams) :
    SyncIssues review (updateJob jobId params : SyncCall Item Unit) := by
  unfold updateJob
  split
  · trivial
  · exact run_issues trivial

theorem handlePullUpdate_issues (externalId : String) (item : Item) (options : SyncOptions) :
    SyncIssues review (engine.handlePullUpdate jobId externalId item options) := by
  refine (select_issues _).bind fun mapping => ?_
  dsimp only
  split
  · trivial
  · split
    · trivial
    · refine (updateJob_issues _ _).bind fun _ => ?_
      refine Issues.bind (run_issues trivial) fun _ => ?_
      exact Issues.bind (run_issues trivial) fun _ => trivial

theorem handlePullCreate_issues (projectId externalId : String) (item : Item) :
    SyncIssues review (engine.handlePullCreate projectId externalId item) := by
  refine (creating_issues (engine.generateJobId_issues _ _)).bind fun jobId => ?_
  refine (creating_issues (create_issues rfl)).bind fun job => ?_
  refine Issues.bind (run_issues trivial) fun _ => ?_
  refine Issues.bind (run_issues trivial) fun _ => ?_
  exact Issues.bind (run_issues trivial) fun _ => trivial

theorem collect_issues {β : Type} (operation : String) (idOf : β → String)
    {body : β → SyncResult → SyncCall Item SyncResult}
    (issues : ∀ entry result, SyncIssues review (body entry result)) (entries : List β)
    (result : SyncResult) : SyncIssues review (collect operation idOf body entries result) := by
  induction entries generalizing result with
  | nil => trivial
  | cons entry rest ih =>
    refine Issues.bind ?_ fun next => ih next
    exact (issues entry _).handle fun _ => trivial

variable (options : SyncOptions)

theorem pullFromExternal_issues : SyncIssues review (engine.pullFromExternal projectId options) := by
  refine (select_issues _).bind fun items => ?_
  split
  · trivial
  · refine collect_issues _ _ (fun entry result => ?_) _ _
    refine (select_issues _).bind fun existingJobId => ?_
    cases existingJobId with
    | some jobId => exact (engine.handlePullUpdate_issues _ _ _ _).bind fun _ => trivial
    | none =>
      dsimp only
      split
      · trivial
      · exact (engine.handlePullCreate_issues _ _ _).bind fun _ => trivial

theorem pushToExternal_issues : SyncIssues review (engine.pushToExternal projectId options) := by
  refine (select_issues _).bind fun unmappedJobIds => ?_
  refine collect_issues _ _ (fun jobId result => ?_) _ _
  refine (select_issues _).bind fun found => ?_
  cases found with
  | none => trivial
  | some found =>
    dsimp only
    split
    · trivial
    · refine (select_issues _).bind fun externalId => ?_
      refine Issues.bind (run_issues trivial) fun _ => ?_
      refine Issues.bind (run_issues trivial) fun _ => ?_
      exact Issues.bind (run_issues trivial) fun _ => trivial

theorem syncMappedJobs_issues : SyncIssues review (engine.syncMappedJobs projectId options) := by
  refine (select_issues _).bind fun mappings => ?_
  refine collect_issues _ _ (fun mapping result => ?_) _ _
  refine (select_issues _).bind fun found => ?_
  split
  · trivial
  · refine (select_issues _).bind fun externalItem => ?_
    cases externalItem with
    | none => exact Issues.bind (run_issues trivial) fun _ => trivial
    | some item =>
      refine Issues.bind ?_ fun pulled => Issues.bind ?_ fun _ => trivial
      · unfold pullMapped
        split
        · exact (engine.handlePullUpdate_issues _ _ _ _).bind fun _ => trivial
        · trivial
      · unfold pushMapped
        split
        · dsimp only
          split
          · trivial
          · exact Issues.bind (run_issues trivial) fun _ => run_issues trivial
        · trivial

theorem request_issues (request : SyncRequest) : SyncIssues review (request.call engine projectId options) := by
  cases request with
  | pullFromExternal => exact engine.pullFromExternal_issues projectId options
  | pushToExternal => exact engine.pushToExternal_issues projectId options
  | syncMappedJobs => exact engine.syncMappedJobs_issues projectId options
  | sync =>
    refine (engine.pullFromExternal_issues projectId options).bind fun pullResult => ?_
    exact (engine.pushToExternal_issues projectId options).bind fun pushResult => trivial

end SyncEngine

end

section

variable {Item : Type} {review : JobId → ReviewRequired}

/-- The writes that take a row to `done`. -/
inductive SyncStatement.Completes (row : Job) : SyncStatement Item → Prop
  | approved {stmt : SyncStatement Item} (reviewerId closeReason : String)
      (update : stmt.update = some (.approved row.id reviewerId closeReason)) :
      SyncStatement.Completes row stmt
  | phaseChanged {stmt : SyncStatement Item} (valid : Jobs.canTransition row.phase .done = true)
      (update : stmt.update = some (.phaseChanged row.id row.phase .done valid)) :
      SyncStatement.Completes row stmt
  | skipped (open_ : row.phase.terminal = false) : SyncStatement.Completes row (.base (.skipConditional row.id))
  | synced (params : JobUpdateParams) (closes : params.phase = some .done) :
      SyncStatement.Completes row (.updateJob row.id params)

theorem findJob_updateWhere (db : JobsDb) (ids : ∀ row, (change row).id = row.id) (jobId : JobId) :
    JobsDb.findJob { db with jobs := Table.updateWhere selected change db.jobs } jobId =
      (db.findJob jobId).map fun row => if selected row then change row else row :=
  Table.find?_updateWhere Job.id selected change (fun row _ => ids row) db.jobs jobId

variable {db : JobsDb} {row : Job} {update : JobUpdate}

theorem done_of_update (chosen : update.selects db row = true) (done : (update.changes db.now row).phase = .done)
    (unfinished : row.phase ≠ .done) :
    (∃ reviewerId closeReason, update = .approved row.id reviewerId closeReason) ∨
      ∃ valid, update = .phaseChanged row.id row.phase .done valid := by
  cases update with
  | approved jobId reviewerId closeReason =>
    rw [JobUpdate.selects, beq_iff_eq] at chosen
    exact .inl ⟨reviewerId, closeReason, by rw [chosen]⟩
  | phaseChanged jobId current new valid =>
    rw [JobUpdate.selects, Bool.and_eq_true, beq_iff_eq, beq_iff_eq] at chosen
    obtain ⟨rfl, rfl⟩ := chosen
    cases done
    exact .inr ⟨valid, rfl⟩
  | requeued jobId deferUntil => cases deferUntil <;> cases done
  | gatesCleared jobIds => exact absurd done unfinished
  | _ => cases done

theorem phaseOf_updateWhere {db : JobsDb} {selected : Job → Bool} {change : Job → Job}
    (ids : ∀ row, (change row).id = row.id) {jobId : JobId} {row : Job}
    (found : db.findJob jobId = some row) :
    JobsDb.phaseOf { db with jobs := Table.updateWhere selected change db.jobs } jobId =
      some (if selected row then change row else row).phase := by
  rw [JobsDb.phaseOf, findJob_updateWhere db ids, found]
  rfl

variable {jobId : JobId}

theorem phaseOf_updateJobs (found : db.findJob jobId = some row) :
    (JobStatement.effect (.updateJobs update) db).phaseOf jobId =
      some (if update.selects db row then update.changes db.now row else row).phase :=
  phaseOf_updateWhere (update.changes_id db.now) found

theorem phaseOf_found (found : db.findJob jobId = some row) : db.phaseOf jobId = some row.phase := by
  rw [JobsDb.phaseOf, found]
  rfl

theorem not_done_of_same {before after : JobsDb} (awaits : Awaits before jobId row)
    (same : after.jobs = before.jobs) : after.phaseOf jobId ≠ some .done := by
  rw [JobsDb.phaseOf, JobsDb.findJob, same]
  change before.phaseOf jobId ≠ some .done
  rw [phaseOf_found awaits.found]
  intro done
  exact awaits.unfinished (Option.some.inj done)

theorem not_done_of_change (awaits : Awaits db jobId row) (ids : ∀ row, (change row).id = row.id)
    (keeps : selected row = true → (change row).phase ≠ .done) :
    JobsDb.phaseOf { db with jobs := Table.updateWhere selected change db.jobs } jobId ≠ some .done := by
  rw [phaseOf_updateWhere ids awaits.found]
  intro done
  have reached := Option.some.inj done
  split at reached
  · next chosen => exact keeps chosen reached
  · exact awaits.unfinished reached

theorem completes_of_loop {db : LoopDb} {stmt : LoopStatement} (awaits : Awaits db.jobs jobId row)
    (done : (stmt.effect db).jobs.phaseOf jobId = some .done) : ∃ update, stmt = .jobs (.updateJobs update) ∧
      ((∃ reviewerId closeReason, update = .approved row.id reviewerId closeReason) ∨
        ∃ valid, update = .phaseChanged row.id row.phase .done valid) := by
  cases stmt with
  | jobs stmt =>
    cases stmt with
    | updateJobs update =>
      change JobsDb.phaseOf (JobStatement.effect (.updateJobs update) db.jobs) jobId = _ at done
      rw [phaseOf_updateJobs awaits.found] at done
      have reached := Option.some.inj done
      split at reached
      · next chosen =>
          exact ⟨update, rfl, done_of_update chosen reached awaits.unfinished⟩
      · exact absurd reached awaits.unfinished
    | insertAttempt new =>
      exact absurd done (not_done_of_same awaits (Jobs.insertAttempt_jobs new db.jobs))
    | _ => exact absurd done (not_done_of_same awaits rfl)
  | promoteChildren parentId => exact absurd done (not_done_of_change awaits (fun _ => rfl) nofun)
  | unstage staged =>
    exact absurd done (not_done_of_change awaits (fun _ => rfl) fun _ => awaits.unfinished)
  | _ => exact absurd done (not_done_of_same awaits rfl)

theorem not_done_touchJob {touched : JobId} (awaits : Awaits db jobId row) :
    (Loop.touchJob touched db).phaseOf jobId ≠ some .done :=
  not_done_of_change awaits (fun _ => rfl) fun _ => awaits.unfinished

theorem not_done_insertJob {job : Job} (awaits : Awaits db jobId row) :
    (Workflows.WorkflowStatement.effect (.insertJob job) db).phaseOf jobId ≠ some .done := by
  rw [Workflows.WorkflowStatement.effect]
  split
  · exact not_done_of_same awaits rfl
  · have found : JobsDb.findJob { db with jobs := db.jobs ++ [Workflows.newJob db.now job] } jobId = some row := by
      rw [JobsDb.findJob, List.find?_append]
      exact congrArg (Option.or · _) awaits.found
    rw [phaseOf_found found]
    intro done
    exact awaits.unfinished (Option.some.inj done)

variable {stmt : SyncStatement Item}

section

variable {db : SyncDb Item}

theorem completes_of_done (issued : stmt.Within review) (awaits : Awaits db.jobs jobId row)
    (done : (stmt.effect db).jobs.phaseOf jobId = some .done) : stmt.Completes row := by
  have isRow := Jobs.findJob_id awaits.found
  cases stmt with
  | base stmt =>
    cases stmt with
    | recovery stmt =>
      obtain ⟨update, erased, cases_⟩ := completes_of_loop awaits done
      have isUpdate : SyncStatement.update (.base (.recovery stmt) : SyncStatement Item) = some update := by
        simp [SyncStatement.update, erased]
      obtain ⟨reviewerId, closeReason, rfl⟩ | ⟨valid, rfl⟩ := cases_
      · exact .approved reviewerId closeReason isUpdate
      · exact .phaseChanged valid isUpdate
    | workflow stmt =>
      cases stmt with
      | jobs stmt =>
        cases stmt with
        | select => exact absurd done (not_done_of_same awaits rfl)
        | _ => exact issued.elim
      | insertJob job => exact absurd done (not_done_insertJob awaits)
      | _ => exact issued.elim
    | skipConditional skipped =>
      by_cases chosen : row.id = skipped ∧ row.phase.terminal = false
      · obtain ⟨rfl, open_⟩ := chosen
        exact .skipped open_
      · refine absurd done (not_done_of_change awaits (fun _ => rfl) fun selected => ?_)
        rw [Bool.and_eq_true, beq_iff_eq, Bool.not_eq_true'] at selected
        exact absurd selected chosen
    | annotateBudgetBlocked annotated reason =>
      change ((OrchestratorStatement.annotateBudgetBlocked annotated reason).effect
        db.base).jobs.phaseOf jobId = _ at done
      rw [OrchestratorStatement.effect] at done
      split at done
      · exact absurd done (not_done_of_same awaits rfl)
      · exact absurd done (not_done_touchJob awaits)
    | clearBudgetBlocked cleared =>
      change ((OrchestratorStatement.clearBudgetBlocked cleared).effect db.base).jobs.phaseOf jobId = _ at done
      rw [OrchestratorStatement.effect] at done
      split at done
      · exact absurd done (not_done_of_same awaits rfl)
      · exact absurd done (not_done_touchJob awaits)
  | updateJob updated params =>
    rw [SyncStatement.effect] at done
    split at done
    · exact absurd done (not_done_of_same awaits rfl)
    · by_cases chosen : row.id = updated ∧ params.phase = some .done
      · obtain ⟨rfl, closes⟩ := chosen
        exact .synced params closes
      · refine absurd done (not_done_of_change awaits (fun _ => rfl) fun selected => ?_)
        rw [beq_iff_eq] at selected
        change params.phase.getD row.phase ≠ .done
        cases given : params.phase with
        | none => exact awaits.unfinished
        | some phase =>
          rintro rfl
          exact chosen ⟨selected, given⟩
  | upsertMapping mapping =>
    dsimp only [SyncStatement.effect] at done
    split at done
    · exact absurd done (not_done_of_same awaits rfl)
    · exact absurd done (not_done_of_same awaits rfl)
  | _ => exact absurd done (not_done_of_same awaits rfl)

theorem done_of_completes (awaits : Awaits db.jobs jobId row) (completes : stmt.Completes row) :
    (stmt.effect db).jobs.phaseOf jobId = some .done := by
  have updated : ∀ {update}, SyncStatement.update stmt = some update →
      update.selects db.jobs row = true → (update.changes db.jobs.now row).phase = .done →
        (stmt.effect db).jobs.phaseOf jobId = some .done := by
    intro update isUpdate chosen done
    unfold SyncStatement.update at isUpdate
    split at isUpdate
    · next stmt =>
        split at isUpdate
        · next erased =>
            cases isUpdate
            change (stmt.erase.effect db.base.loop).jobs.phaseOf jobId = _
            rw [erased]
            change JobsDb.phaseOf (JobStatement.effect (.updateJobs update) db.jobs) jobId = _
            rw [phaseOf_updateJobs awaits.found, if_pos chosen, done]
        · cases isUpdate
    · cases isUpdate
  cases completes with
  | approved reviewerId closeReason isUpdate =>
    exact updated isUpdate (by simp [JobUpdate.selects]) rfl
  | phaseChanged valid isUpdate => exact updated isUpdate (by simp [JobUpdate.selects]) rfl
  | skipped open_ =>
    have chosen : (row.id == row.id && !row.phase.terminal) = true := by simp [open_]
    have after := @phaseOf_updateWhere _ (fun other => other.id == row.id && !other.phase.terminal)
      (Jobs.skipRow db.jobs.now) (fun _ => rfl) _ _ awaits.found
    rw [if_pos chosen] at after
    exact after
  | synced params closes =>
    have present : ¬ (db.jobs.findJob row.id).isNone = true := by
      simp [Jobs.findJob_id awaits.found, awaits.found]
    have after := @phaseOf_updateWhere _ (fun other => other.id == row.id)
      (params.row db.jobs.now) (fun _ => rfl) _ _ awaits.found
    rw [if_pos (beq_self_eq_true row.id)] at after
    rw [SyncStatement.effect, if_neg present]
    refine after.trans ?_
    simp [JobUpdateParams.row, closes]

theorem review_of_phaseChanged (reviewed : Reviewed review db.jobs) (issued : stmt.Within review)
    (awaits : Awaits db.jobs jobId row) {valid : Jobs.canTransition row.phase .done = true}
    (isUpdate : stmt.update = some (.phaseChanged row.id row.phase .done valid)) : row.phase = .review := by
  have required : review row.id ≠ .none := by
    have same := Jobs.findJob_id awaits.found
    rw [same, ← reviewed.rows jobId row awaits.found]
    exact awaits.required
  unfold SyncStatement.update at isUpdate
  split at isUpdate
  · next stmt =>
      split at isUpdate
      · next erased =>
          cases isUpdate
          change looksAtReview review stmt.erase at issued
          rw [erased] at issued
          exact issued.resolve_left required
      · cases isUpdate
  · cases isUpdate

end

theorem reviewedFirst_iff {execution : Execution (SyncStatement Item) (SyncDb Item)}
    (reviewed : Reviewed review execution.before.jobs) (issued : execution.statement.Within review)
    (runs : execution.after = execution.statement.effect execution.before) :
    ReviewedFirst execution ↔ Careful execution := by
  obtain ⟨session, stmt, before, after⟩ := execution
  change after = stmt.effect before at runs
  subst runs
  constructor
  · intro first
    have completed : ∀ {jobId row}, Awaits before.jobs jobId row → stmt.Completes row →
        row.phase = .review ∧ stmt.Approves jobId :=
      fun awaits completes => first _ _ awaits (done_of_completes awaits completes)
    constructor
    · intro jobId row awaits approves
      obtain ⟨reviewerId, closeReason, isUpdate⟩ := approves
      obtain rfl := Jobs.findJob_id awaits.found
      exact (completed awaits (.approved reviewerId closeReason isUpdate)).1
    · intro jobId row valid awaits isUpdate inReview
      obtain rfl := Jobs.findJob_id awaits.found
      have fromReview : ∃ valid, stmt.update = some (.phaseChanged row.id row.phase .done valid) := by
        rw [inReview]
        exact ⟨valid, isUpdate⟩
      obtain ⟨_, moved⟩ := fromReview
      obtain ⟨_, _, _, approved⟩ := completed awaits (.phaseChanged _ moved)
      change stmt.update = _ at isUpdate
      rw [isUpdate] at approved
      cases approved
    · intro jobId row awaits skips
      obtain rfl := Jobs.findJob_id awaits.found
      change stmt = _ at skips
      by_contra open_
      rw [Bool.not_eq_true] at open_
      subst skips
      obtain ⟨_, _, _, approved⟩ := completed awaits (.skipped open_)
      cases approved
    · intro jobId row params awaits syncs closes
      obtain rfl := Jobs.findJob_id awaits.found
      change stmt = _ at syncs
      subst syncs
      obtain ⟨_, _, _, approved⟩ := completed awaits (.synced params closes)
      cases approved
  · intro careful jobId row awaits done
    have completes := completes_of_done issued awaits done
    obtain rfl := Jobs.findJob_id awaits.found
    cases completes with
    | approved reviewerId closeReason isUpdate =>
      have approves : stmt.Approves row.id := ⟨reviewerId, closeReason, isUpdate⟩
      exact ⟨careful.approvals _ _ awaits approves, approves⟩
    | phaseChanged valid isUpdate =>
      have inReview := review_of_phaseChanged reviewed issued awaits isUpdate
      have fromReview : ∃ valid, stmt.update = some (.phaseChanged row.id .review .done valid) := by
        rw [← inReview]
        exact ⟨valid, isUpdate⟩
      obtain ⟨_, moved⟩ := fromReview
      exact absurd inReview (careful.transitions _ _ _ awaits moved)
    | skipped open_ =>
      have closed := careful.skips _ _ awaits rfl
      rw [open_] at closed
      cases closed
    | synced params closes => exact absurd closes (careful.syncs _ _ params awaits rfl)

end

section

variable {Item ItemParams : Type} (assemble : AssembleReceipt)
  (toLowerCase : String → String) (parseJson : String → Option Json)

def reviewsOf (db : JobsDb) (jobId : JobId) : ReviewRequired :=
  ((db.findJob jobId).map Job.reviewRequired).getD .none

theorem reviewed_reviewsOf (db : JobsDb) : Reviewed (reviewsOf db) db where
  rows jobId row found := by
    rw [reviewsOf, found]
    rfl
  filed jobId required := by
    cases found : db.findJob jobId with
    | some row => rfl
    | none =>
      rw [reviewsOf, found] at required
      exact absurd rfl required

theorem call_issues {review : JobId → ReviewRequired} (session : Nat) (operation : AgentOperation Item ItemParams) :
    (operation.call assemble toLowerCase parseJson session).IssuesWhile
      (fun db => Reviewed review db.jobs) (SyncStatement.Within review) := by
  cases operation with
  | orchestrator operation =>
    have issues := (permits_reviewed review).orchestratorOperation assemble toLowerCase parseJson
      session operation fun query _ => operation_looks query
    have embedded : (operation.call assemble toLowerCase parseJson session).IssuesWhile
        (fun db => Reviewed review db.jobs) fun stmt =>
          SyncStatement.Within review (.base stmt : SyncStatement Item) :=
      issues.imp fun stmt within => by
        cases stmt with
        | workflow stmt => exact within.elim
        | _ => exact within
    exact IssuesWhile.lift _ _ embedded fun _ holds => holds
  | sync engine projectId options request =>
    exact ((engine.request_issues projectId options request).issuesWhile _).bind fun _ => trivial

/-- Every job that asks for a review gets done out of `review` by an approval exactly in the runs
whose statements do not do what the code leaves unchecked. -/
theorem review_gate_iff (db : SyncDb Item) (schedule : List (Choice (AgentOperation Item ItemParams))) :
    (∀ execution ∈ (runAgentPath assemble toLowerCase parseJson db schedule).trace, ReviewedFirst execution) ↔
      ∀ execution ∈ (runAgentPath assemble toLowerCase parseJson db schedule).trace, Careful execution := by
  obtain ⟨_, watched⟩ := System.run_watched _ (fun _ => True)
    (fun session operation _ => call_issues assemble toLowerCase parseJson session operation)
    (fun _ _ reviewed issued _ => reviewed.effect issued) (reviewed_reviewsOf db.jobs) fun _ _ => trivial
  apply forall₂_congr
  intro execution member
  obtain ⟨issued, before⟩ := watched execution member
  exact reviewedFirst_iff before issued (System.run_executes _ db schedule execution member).2

end

def phaseEngine : SyncEngine Phase Phase where
  name := "board"
  fetchItems _ items := items
  toJobParams phase := { title := "item", phase, priority := 2 }
  toJobUpdateParams phase := { phase := some phase }
  fromJobParams job _ := job.phase
  updated phase _ := phase
  created := id
  newItemId _ _ := "item_new"
  computeHash _ _ _ _ := none
  projects := [{ id := "proj_1", slug := "shop", orgId := "org_1" }]
  rootIds := Workflows.longIds
  json _ := "{}"

def reviewedJob : Job where
  id := "job_1"
  projectId := "proj_1"
  phase := .active
  reviewRequired := .human

def closedItem : SyncDb Phase where
  base := { loop := { jobs := { projects := ["proj_1"], jobs := [reviewedJob] } } }
  mappings := [{
    jobId := "job_1", provider := "board", externalId := "item_1", syncDirection := .inbound }]
  items := [("item_1", .done)]

def pullOfClosedItem : List (Choice (AgentOperation Phase Phase)) :=
  .start (.sync phaseEngine "proj_1" {} .syncMappedJobs) :: List.replicate 5 (.advance 0)

theorem closed_item_skips_review : ¬ ∀ execution ∈ (runAgentPath (fun _ _ _ _ => none) id (fun _ => none) closedItem
      pullOfClosedItem).trace, ReviewedFirst execution := by
  intro first
  have pulled : ((runAgentPath (fun _ _ _ _ => none) id (fun _ => none) closedItem
      pullOfClosedItem).trace[4]?).map (fun execution =>
        (execution.before.jobs.findJob "job_1", execution.after.jobs.phaseOf "job_1")) =
      some (some reviewedJob, some .done) := by
    decide +kernel
  obtain ⟨execution, fifth, facts⟩ := Option.map_eq_some_iff.mp pulled
  rw [Prod.mk.injEq] at facts
  have awaits : Awaits execution.before.jobs "job_1" reviewedJob := ⟨facts.1, by decide, by decide⟩
  have inReview := (first execution (List.mem_of_getElem? fifth) _ _ awaits facts.2).1
  cases inReview

end EveHorizon.Sync
