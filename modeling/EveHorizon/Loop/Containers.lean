import EveHorizon.Loop.Inventory
import EveHorizon.Workflows.Expansion

/-!
# Containers

The root of a workflow is active while its steps run, and has no attempt of its own.
-/

namespace EveHorizon.Loop

open Interleaving Call
open Jobs (JobId AttemptId Timestamp Phase Job JobAttempt JobsDb JobStatement JobCall JobOperation
  JobUpdate AttemptUpdate)
open Workflows (WorkflowStatement)

structure Parked (jobId : JobId) (db : JobsDb) : Prop where
  phases : ∀ row ∈ db.jobs, row.id = jobId → row.phase = .active ∨ row.phase.terminal = true
  unattempted : ∀ attempt ∈ db.attempts, attempt.jobId ≠ jobId

variable (jobId : JobId)

def JobUpdate.unparks : JobUpdate → Bool
  | .releasedIdle released => released == jobId
  | .released released => released == jobId
  | .requeued requeued _ => requeued == jobId
  | .phaseChanged changed _ new _ => changed == jobId && (new == .ready || new == .review)
  | _ => false

def OrchestratorStatement.unparks : OrchestratorStatement → Bool
  | .recovery statement =>
    match statement.erase with
    | .jobs (.updateJobs update) => JobUpdate.unparks jobId update
    | _ => false
  | _ => false

/-- Neither an attempt of the job nor a claim or a submission of it. -/
def leavesParked : LoopStatement → Prop
  | .jobs (.insertAttempt new) => new.jobId ≠ jobId
  | .jobs (.updateJobs (.claimed claimed _)) => claimed ≠ jobId
  | .jobs (.updateJobs (.submitted submitted)) => submitted ≠ jobId
  | _ => True

/-- The statement gives the job an attempt, or claims it for a worker. -/
def OrchestratorStatement.executes : OrchestratorStatement → Bool
  | .recovery statement =>
    match statement.erase with
    | .jobs (.insertAttempt new) => new.jobId == jobId
    | .jobs (.updateJobs (.claimed claimed _)) => claimed == jobId
    | _ => false
  | _ => false

variable {stmt : OrchestratorStatement}

section

variable {jobId : JobId} {db : JobsDb}

theorem Parked.updateWhere (parked : Parked jobId db) {selected : Job → Bool} {change : Job → Job}
    (phases : ∀ row, row.id = jobId → (row.phase = .active ∨ row.phase.terminal = true) →
      selected row = true → (change row).phase = .active ∨ (change row).phase.terminal = true)
    (ids : ∀ row, (change row).id = row.id) :
    Parked jobId { db with jobs := Table.updateWhere selected change db.jobs } := by
  refine ⟨fun row member same => ?_, parked.unattempted⟩
  obtain ⟨old, present, ⟨chosen, rfl⟩ | ⟨_, rfl⟩⟩ := Table.mem_updateWhere member
  · rw [ids] at same
    exact phases old same (parked.phases old present same) chosen
  · exact parked.phases row present same

theorem update_leavesParked {update : JobUpdate} (issued : leavesParked jobId (.jobs (.updateJobs update)))
    (kept : JobUpdate.unparks jobId update = false) {row : Job} (same : row.id = jobId)
    (phase : row.phase = .active ∨ row.phase.terminal = true) (chosen : update.selects db row = true) :
    (update.changes db.now row).phase = .active ∨ (update.changes db.now row).phase.terminal = true := by
  subst same
  cases update with
  | releasedIdle released =>
    simp only [Jobs.JobUpdate.selects, Bool.and_eq_true, beq_iff_eq] at chosen
    simp [JobUpdate.unparks, chosen.1] at kept
  | released released | requeued released deferUntil =>
    simp only [Jobs.JobUpdate.selects, beq_iff_eq] at chosen
    simp [JobUpdate.unparks, chosen] at kept
  | submitted submitted =>
    simp only [Jobs.JobUpdate.selects, Bool.and_eq_true, beq_iff_eq] at chosen
    exact absurd chosen.1.symm issued
  | phaseChanged changed current new valid =>
    simp only [Jobs.JobUpdate.selects, Bool.and_eq_true, beq_iff_eq] at chosen
    obtain ⟨rfl, rfl⟩ := chosen
    simp only [JobUpdate.unparks, beq_self_eq_true, Bool.true_and, Bool.or_eq_false_iff] at kept
    change new = .active ∨ new.terminal = true
    rcases phase with active | closed
    · rw [active] at valid
      cases new with
      | idea | backlog => cases valid
      | ready | review => simp at kept
      | active => exact .inl rfl
      | done | cancelled => exact .inr rfl
    · rw [Jobs.not_canTransition_of_terminal closed] at valid
      cases valid
  | gatesCleared jobIds => exact phase
  | claimed | rejected => exact .inl rfl
  | approved | closed | cascaded | backlogChildrenClosed => exact .inr rfl

theorem attemptUpdate_unattempted (parked : Parked jobId db) {selected : JobAttempt → Bool}
    {change : JobAttempt → JobAttempt} (kept : ∀ row, (change row).jobId = row.jobId) :
    Parked jobId { db with attempts := Table.updateWhere selected change db.attempts } := by
  refine ⟨parked.phases, fun attempt member => ?_⟩
  obtain ⟨old, present, ⟨_, rfl⟩ | ⟨_, rfl⟩⟩ := Table.mem_updateWhere member
  · rw [kept]
    exact parked.unattempted old present
  · exact parked.unattempted attempt present

theorem statement_leavesParked (parked : Parked jobId db) {stmt : JobStatement}
    (issued : leavesParked jobId (.jobs stmt))
    (kept : ∀ update, stmt = .updateJobs update → JobUpdate.unparks jobId update = false) :
    Parked jobId (stmt.effect db) := by
  cases stmt with
  | updateJobs update =>
    exact parked.updateWhere (fun row same phase chosen =>
      update_leavesParked issued (kept update rfl) same phase chosen) (update.changes_id db.now)
  | updateAttempts update =>
    exact attemptUpdate_unattempted parked (Jobs.attemptUpdate_changes_jobId db.now update)
  | insertAttempt new =>
    refine ⟨fun row member => ?_, fun attempt member => ?_⟩
    · rw [Jobs.insertAttempt_jobs] at member
      exact parked.phases row member
    · simp only [JobStatement.effect] at member
      split at member
      · exact parked.unattempted attempt member
      · rcases List.mem_append.mp member with old | added
        · exact parked.unattempted attempt old
        · rw [List.mem_singleton.mp added]
          exact issued
  | _ => exact ⟨parked.phases, parked.unattempted⟩

theorem loop_leavesParked {db : LoopDb} (parked : Parked jobId db.jobs) {stmt : LoopStatement}
    (issued : leavesParked jobId stmt)
    (kept : ∀ update, stmt = .jobs (.updateJobs update) → JobUpdate.unparks jobId update = false) :
    Parked jobId (stmt.effect db).jobs := by
  cases stmt with
  | jobs stmt =>
    exact statement_leavesParked parked issued fun update same => kept update (congrArg _ same)
  | writeReceipt attemptId receipt => exact attemptUpdate_unattempted parked fun _ => rfl
  | promoteChildren parentId =>
    refine parked.updateWhere (fun row _ phase chosen => ?_) fun _ => rfl
    simp only [Bool.and_eq_true, beq_iff_eq] at chosen
    rw [chosen.2] at phase
    cases phase <;> contradiction
  | unstage staged => exact parked.updateWhere (fun row _ phase _ => phase) fun _ => rfl
  | _ => exact parked

theorem orchestrator_leavesParked {db : OrchestratorDb} (parked : Parked jobId db.jobs)
    (issued : stmt.Within (leavesParked jobId) fun _ => True) (kept : stmt.unparks jobId = false) :
    Parked jobId (stmt.effect db).jobs := by
  have touched : Parked jobId (touchJob jobId db.jobs) := parked.updateWhere (fun row _ phase _ => phase) fun _ => rfl
  cases stmt with
  | recovery stmt =>
    refine loop_leavesParked parked issued fun update same => ?_
    rw [OrchestratorStatement.unparks, same] at kept
    exact kept
  | workflow stmt => exact issued.elim
  | skipConditional skipped =>
    exact parked.updateWhere (fun row _ _ _ => .inr rfl) fun _ => rfl
  | annotateBudgetBlocked annotated reason | clearBudgetBlocked cleared =>
    rw [OrchestratorStatement.effect]
    split
    · exact parked
    · exact parked.updateWhere (fun row _ phase _ => phase) fun _ => rfl

end

section

variable {jobId : JobId}

abbrev KeepsParked {α : Type} (jobId : JobId) (call : JobCall α) : Prop :=
  call.IssuesWhile (Parked jobId) fun stmt => leavesParked jobId (.jobs stmt)

theorem select_issuesWhile {α β : Type} {assumed : JobsDb → Prop} {issued : JobStatement → Prop}
    {query : JobsDb → β} {cont : β → JobCall α} (reads : issued .select)
    (rest : ∀ db, assumed db → (cont (query db)).IssuesWhile assumed issued) :
    (Jobs.select query >>= cont).IssuesWhile assumed issued :=
  issuesWhile_perform_bind reads rest

variable {db : JobsDb}

theorem Parked.noAttempt (parked : Parked jobId db) (wanted : Jobs.AttemptStatus → Bool) :
    db.latestAttempt jobId wanted = none := by
  have none : db.attempts.filter (fun row => row.jobId == jobId && wanted row.status) = [] := by
    rw [List.filter_eq_nil_iff]
    intro attempt member
    simp [parked.unattempted attempt member]
  rw [JobsDb.latestAttempt, none]
  rfl

theorem Parked.found (parked : Parked jobId db) {row : Job} (found : db.findJob jobId = some row) :
    row.phase = .active ∨ row.phase.terminal = true :=
  parked.phases row (List.mem_of_find?_eq_some found) (Jobs.findJob_id found)

theorem writes_keepParked {α : Type} {call : JobCall α} {writes : Jobs.Writes}
    (issues : call.Writes writes) (claims : ∀ agentId, ¬ writes.updates (.claimed jobId agentId))
    (submits : ¬ writes.updates (.submitted jobId)) (inserts : ¬ writes.inserts jobId) : KeepsParked jobId call := by
  refine (Issues.imp issues fun stmt allowed => ?_).issuesWhile _
  cases stmt with
  | updateJobs update =>
    cases update with
    | claimed claimed agentId =>
      intro same
      exact claims agentId (same ▸ allowed)
    | submitted submitted =>
      intro same
      exact submits (same ▸ allowed)
    | _ => trivial
  | insertAttempt new =>
    intro same
    exact inserts (same ▸ allowed)
  | _ => trivial

theorem claim_keepsParked (claimed : JobId) (agentId : String) (harness : Option String) :
    KeepsParked jobId (Jobs.claim claimed agentId harness) := by
  by_cases same : claimed = jobId
  · subst same
    rw [Jobs.claim]
    refine select_issuesWhile trivial fun db parked => ?_
    cases found : db.findJob claimed with
    | none => trivial
    | some currentJob =>
      have phase := parked.found found
      simp only
      split
      · trivial
      · next claimable =>
          refine select_issuesWhile trivial fun db parked => ?_
          rw [parked.noAttempt]
          simp only
          split
          · trivial
          · next isReady =>
              rw [not_not.mp isReady] at phase
              cases phase <;> contradiction
  · have claims (other : String) : ¬ (Jobs.claimWrites claimed).updates (.claimed jobId other) := by
      simpa [Jobs.claimWrites] using Ne.symm same
    exact writes_keepParked (Jobs.claim_writes claimed agentId harness) claims
      (by simp [Jobs.claimWrites]) fun inserted => same inserted.symm

theorem submitForReview_keepsParked (submitted : JobId) (agentId summary : String) :
    KeepsParked jobId (Jobs.submitForReview submitted agentId summary) := by
  by_cases same : submitted = jobId
  · subst same
    rw [Jobs.submitForReview]
    refine select_issuesWhile trivial fun db parked => ?_
    cases db.findJob submitted with
    | none => trivial
    | some currentJob =>
      simp only
      split
      · trivial
      · refine select_issuesWhile trivial fun db parked => ?_
        rw [parked.noAttempt]
        trivial
  · refine writes_keepParked (Jobs.submitForReview_writes submitted agentId summary) (by simp [Jobs.submitWrites]) ?_ id
    intro update
    cases update
    exact same rfl

theorem rejectReview_keepsParked (rejected : JobId) (reviewerId reason : String) :
    KeepsParked jobId (Jobs.rejectReview rejected reviewerId reason) := by
  by_cases same : rejected = jobId
  · subst same
    rw [Jobs.rejectReview]
    refine select_issuesWhile trivial fun db parked => ?_
    cases found : db.findJob rejected with
    | none => trivial
    | some currentJob =>
      have phase := parked.found found
      simp only
      split
      · trivial
      · next inReview =>
          rw [not_not.mp inReview] at phase
          cases phase <;> contradiction
  · exact writes_keepParked (Jobs.rejectReview_writes rejected reviewerId reason)
      (by simp [Jobs.rejectWrites]) (by simp [Jobs.rejectWrites]) fun inserted => same inserted.symm

theorem markJobDone_keepsParked (done : JobId) (summary : Option String) :
    KeepsParked jobId (Jobs.markJobDone done summary) := by
  have finishes : KeepsParked jobId (Jobs.updatePhase done .done) :=
    writes_keepParked (Jobs.updatePhase_writes done .done) (by simp [Jobs.phaseWrites]) (by simp [Jobs.phaseWrites]) id
  refine IssuesWhile.found trivial trivial fun job => ?_
  simp only
  split
  · trivial
  · split
    · split
      · refine (submitForReview_keepsParked done _ _).bind fun _ => ?_
        exact issuesWhile_perform trivial
      · exact issuesWhile_perform trivial
    · exact finishes.bind fun _ => trivial

theorem claimNextJob_keepsParked (projectId : Option String) (agentId : String)
    (harness : Option String) : KeepsParked jobId (Jobs.claimNextJob projectId agentId harness) := by
  refine IssuesWhile.bind (issuesWhile_perform trivial) fun readyJobs => ?_
  cases readyJobs with
  | nil => trivial
  | cons job rest =>
    refine (claim_keepsParked job.id _ _).bind fun result => ?_
    split
    · exact IssuesWhile.found trivial trivial fun _ => trivial
    · trivial

theorem operation_keepsParked (operation : JobOperation) : KeepsParked jobId operation.call := by
  have writes := operation.call_writes
  cases operation with
  | claim claimed agentId harness => exact (claim_keepsParked claimed _ _).bind fun _ => trivial
  | claimNextJob projectId agentId harness =>
    exact (claimNextJob_keepsParked projectId agentId harness).bind fun _ => trivial
  | submitForReview submitted agentId summary =>
    exact (submitForReview_keepsParked submitted agentId summary).bind fun _ => trivial
  | rejectReview rejected reviewerId reason =>
    exact (rejectReview_keepsParked rejected reviewerId reason).bind fun _ => trivial
  | markJobDone done summary => exact (markJobDone_keepsParked done summary).bind fun _ => trivial
  | release released agentId reason =>
    exact writes_keepParked writes (by simp [JobOperation.writes, Jobs.releaseWrites])
      (by simp [JobOperation.writes, Jobs.releaseWrites]) id
  | requeueReady requeued actor deferUntil reason =>
    exact writes_keepParked writes (by simp [JobOperation.writes, Jobs.requeueWrites])
      (by simp [JobOperation.writes, Jobs.requeueWrites]) id
  | approveReview approved reviewerId comment =>
    exact writes_keepParked writes (by simp [JobOperation.writes, Jobs.approveWrites])
      (by simp [JobOperation.writes, Jobs.approveWrites]) id
  | cancelJob cancelled reason | markJobFailed cancelled reason =>
    exact writes_keepParked writes (by simp [JobOperation.writes, Jobs.closingWrites])
      (by simp [JobOperation.writes, Jobs.closingWrites]) id
  | updatePhase changed newPhase =>
    exact writes_keepParked writes (by simp [JobOperation.writes, Jobs.phaseWrites])
      (by simp [JobOperation.writes, Jobs.phaseWrites]) id
  | completeAttempt | passTime => exact writes_keepParked writes (fun _ => id) id id

theorem permits_parked (jobId : JobId) : Permits (Parked jobId) (leavesParked jobId) fun _ => True where
  claim := claim_keepsParked
  requeueReady requeued actor deferUntil reason :=
    writes_keepParked (Jobs.requeueReady_writes requeued actor deferUntil reason)
      (by simp [Jobs.requeueWrites]) (by simp [Jobs.requeueWrites]) id
  markJobDone := markJobDone_keepsParked
  cancelJob cancelled reason :=
    writes_keepParked (Jobs.cancelJob_writes cancelled reason) (by simp [Jobs.closingWrites])
      (by simp [Jobs.closingWrites]) id
  markJobFailed failed reason :=
    writes_keepParked (Jobs.markJobFailed_writes failed reason) (by simp [Jobs.closingWrites])
      (by simp [Jobs.closingWrites]) id

end

section

variable (assemble : AssembleReceipt) (toLowerCase : String → String) (parseJson : String → Option Json)

theorem stays_parked {db : OrchestratorDb} {schedule : List (Choice OrchestratorOperation)}
    {jobId : JobId} (parked : Parked jobId db.jobs)
    (kept : ∀ execution ∈ (runOrchestrator assemble toLowerCase parseJson db schedule).trace,
      execution.statement.unparks jobId = false) :
    Parked jobId (runOrchestrator assemble toLowerCase parseJson db schedule).store.jobs ∧
      ∀ execution ∈ (runOrchestrator assemble toLowerCase parseJson db schedule).trace,
        execution.statement.Within (leavesParked jobId) (fun _ => True) ∧ Parked jobId execution.before.jobs := by
  refine @System.run_watched _ _ _ _ _ _ _ (fun stmt => OrchestratorStatement.unparks jobId stmt = false)
    (fun found => Parked jobId found.jobs) _ _ _ ?_ ?_ parked kept
  · intro session operation _
    exact (permits_parked jobId).orchestratorOperation assemble toLowerCase parseJson session operation
      fun query _ => operation_keepsParked query
  · intro stmt before holds issued meets
    exact orchestrator_leavesParked holds issued meets

theorem not_executes {jobId : JobId} (issued : stmt.Within (leavesParked jobId) fun _ => True) :
    stmt.executes jobId = false := by
  cases stmt with
  | recovery stmt =>
    change leavesParked jobId stmt.erase at issued
    rw [OrchestratorStatement.executes]
    split
    · next new inserts =>
        rw [inserts] at issued
        exact beq_false_of_ne issued
    · next claimed agentId claims =>
        rw [claims] at issued
        exact beq_false_of_ne issued
    · rfl
  | _ => rfl

structure NeverExecuted (jobId : JobId)
    (system : System OrchestratorStatement OrchestratorDb String Unit) : Prop where
  unattempted : ∀ attempt ∈ system.store.jobs.attempts, attempt.jobId ≠ jobId
  unexecuted : ∀ execution ∈ system.trace, execution.statement.executes jobId = false

/-- In a run in which no statement hands a container out, no container is executed. -/
theorem containers_not_executed (db : OrchestratorDb) (schedule : List (Choice OrchestratorOperation))
    (parked : ∀ root ∈ db.jobs.jobs, root.hints.workflowRoot = true → Parked root.id db.jobs)
    (kept : ∀ execution ∈ (runOrchestrator assemble toLowerCase parseJson db schedule).trace,
      ∀ root ∈ db.jobs.jobs, root.hints.workflowRoot = true → execution.statement.unparks root.id = false) :
    ∀ root ∈ db.jobs.jobs, root.hints.workflowRoot = true →
      NeverExecuted root.id (runOrchestrator assemble toLowerCase parseJson db schedule) := by
  intro root filed isRoot
  obtain ⟨stays, watched⟩ := stays_parked assemble toLowerCase parseJson (parked root filed isRoot)
    fun execution executed => kept execution executed root filed isRoot
  constructor
  · exact stays.unattempted
  · intro execution executed
    exact not_executes (watched execution executed).1

/-- `invoke` creates its root active and without an attempt, as no attempt has a job that is not there. -/
theorem invoked_root_parked (rootIds : Workflows.RootIds) (context : Workflows.Invocation) (slug : String)
    {db : JobsDb} (attempted : ∀ attempt ∈ db.attempts, ∃ row ∈ db.jobs, row.id = attempt.jobId) :
    Parked (rootIds.draw slug db)
      ((Workflows.create (Workflows.rootJob context (rootIds.draw slug db))).alone db).2 := by
  have unused := (rootIds.unfiled slug db).unused
  have vacant : db.findJob (Workflows.rootJob context (rootIds.draw slug db)).id = none := by
    rw [JobsDb.findJob, List.find?_eq_none]
    intro row member
    simpa [Workflows.rootJob] using unused row member
  rw [Workflows.create_alone _ vacant]
  constructor
  · intro row member same
    rcases List.mem_append.mp member with old | created
    · exact absurd same (unused row old)
    · rw [List.mem_singleton.mp created]
      exact .inl rfl
  · intro attempt member same
    obtain ⟨row, present, ofAttempt⟩ := attempted attempt member
    exact unused row present (ofAttempt.trans same)

def workflowRoot : Job where
  id := "root"
  projectId := "proj_1"
  phase := .active
  hints := { workflowRoot := true }

def runningWorkflow : OrchestratorDb where
  loop :=
    { jobs :=
        { projects := ["proj_1"]
          jobs :=
            [workflowRoot,
              { id := "root.1", projectId := "proj_1", parentId := some "root", phase := .ready }] }
      projects := [{ id := "proj_1", orgId := "org_1" }] }

theorem runningWorkflow_parked : ∀ root ∈ runningWorkflow.jobs.jobs, root.hints.workflowRoot = true →
    Parked root.id runningWorkflow.jobs := by
  intro root filed isRoot
  have rows : ∀ row ∈ runningWorkflow.jobs.jobs, ∀ root ∈ runningWorkflow.jobs.jobs,
      root.hints.workflowRoot = true → row.id = root.id → row.phase = .active := by
    decide +kernel
  have unattempted : runningWorkflow.jobs.attempts = [] := rfl
  constructor
  · intro row member same
    exact .inl (rows row member root filed isRoot same)
  · intro attempt member
    rw [unattempted] at member
    cases member

theorem workflowRoot_filed : workflowRoot ∈ runningWorkflow.jobs.jobs := List.mem_cons_self

def claimStep : List (Choice OrchestratorOperation) :=
  .start (.claimNextJobWithBudgetCheck fun _ => .ok {}) :: List.replicate 14 (.advance 0)

theorem claim_spares_root :
    NeverExecuted "root" (runOrchestrator (fun _ _ _ _ => none) id (fun _ => none) runningWorkflow claimStep) := by
  have kept : ∀ execution ∈ (runOrchestrator (fun _ _ _ _ => none) id (fun _ => none) runningWorkflow
      claimStep).trace, ∀ root ∈ runningWorkflow.jobs.jobs, root.hints.workflowRoot = true →
        execution.statement.unparks root.id = false := by
    decide +kernel
  exact containers_not_executed _ _ _ runningWorkflow claimStep runningWorkflow_parked kept
    workflowRoot workflowRoot_filed rfl

def withoutLogs : Readings where
  executionStartedAt _ := none
  harnessStarted _ := false
  lastLogAt _ := none
  timeoutSeconds _ := none
  supervising _ := false
  now := 0

/-- The orchestrator starts while the workflow runs, and takes its next job. -/
def restart : List (Choice OrchestratorOperation) :=
  .start (.recovery (.recoverOrphanedJobs {} withoutLogs)) :: List.replicate 8 (.advance 0) ++
    .start (.claimNextJobWithBudgetCheck fun _ => .ok {}) :: List.replicate 14 (.advance 0)

theorem restart_executes_root : ¬ ∀ (assemble : AssembleReceipt)
      (toLowerCase : String → String) (parseJson : String → Option Json) (db : OrchestratorDb)
      (schedule : List (Choice OrchestratorOperation)),
      (∀ root ∈ db.jobs.jobs, root.hints.workflowRoot = true → Parked root.id db.jobs) →
        ∀ root ∈ db.jobs.jobs, root.hints.workflowRoot = true →
          NeverExecuted root.id (runOrchestrator assemble toLowerCase parseJson db schedule) := by
  intro unexecuted
  have root := unexecuted (fun _ _ _ _ => none) id (fun _ => none) runningWorkflow restart
    runningWorkflow_parked workflowRoot workflowRoot_filed rfl
  have attempted : ∃ attempt ∈ (runOrchestrator (fun _ _ _ _ => none) id (fun _ => none) runningWorkflow
      restart).store.jobs.attempts, attempt.jobId = "root" := by
    decide +kernel
  obtain ⟨attempt, member, ofRoot⟩ := attempted
  exact root.unattempted attempt member ofRoot

end

end EveHorizon.Loop
