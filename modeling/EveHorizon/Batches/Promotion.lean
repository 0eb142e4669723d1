import EveHorizon.Batches.Replay
import EveHorizon.Loop.Inventory

/-!
# Batches in the queue

Whether the jobs of a batch come to the queue of the scheduler.
-/

namespace EveHorizon.Batches

open Interleaving Precedence List Call
open Jobs (JobId Phase Job JobAttempt JobsDb JobCall JobOperation JobUpdate JobStatement)
open Loop (LoopDb LoopStatement OrchestratorDb OrchestratorStatement OrchestratorOperation
  AssembleReceipt runOrchestrator)
open Workflows (Project)

/-- The job is in the queue and not blocked, or past it. -/
def Entered (db : JobsDb) (row : Job) : Prop :=
  (row.phase = .ready ∨ row.phase = .active) ∧ db.isBlocked row.id = false ∨
    row.phase = .review ∨ row.phase.terminal = true

def DependenciesClosed (request : CreateBatchRequest) (response : CreateBatchResponse) (key : String)
    (db : JobsDb) : Prop :=
  ∀ dependency ∈ dependenciesOf request key, ∀ other ∈ dependency.dependsOn,
    ∃ row ∈ db.jobs, response.jobOf other = some row.id ∧ row.phase.terminal = true

def shelves : OrchestratorOperation → Bool
  | .recovery (.jobQuery (.updatePhase _ newPhase)) => newPhase == .backlog
  | _ => false

variable (assemble : AssembleReceipt) (toLowerCase : String → String) (parseJson : String → Option Json)

/-- In every run, the jobs of which all dependencies are closed have entered the queue. -/
def BatchRuns (request : CreateBatchRequest) (response : CreateBatchResponse) (db : OrchestratorDb) : Prop :=
  ∀ schedule : List (Choice OrchestratorOperation),
    (∀ operation, .start operation ∈ schedule → shelves operation = false) → ∀ node ∈ request.nodes,
        DependenciesClosed request response node.key
            (runOrchestrator assemble toLowerCase parseJson db schedule).store.jobs →
          ∃ row ∈ (runOrchestrator assemble toLowerCase parseJson db schedule).store.jobs.jobs,
            response.jobOf node.key = some row.id ∧
              Entered (runOrchestrator assemble toLowerCase parseJson db schedule).store.jobs row

section

variable {jobId : JobId}

structure Promoted (jobId : JobId) (db : JobsDb) : Prop where
  row : ∃ row ∈ db.jobs, row.id = jobId ∧ row.phase ≠ .idea ∧ row.phase ≠ .backlog
  independent : ∀ relation ∈ db.relations, relation.jobId ≠ jobId

variable {db : JobsDb}

theorem Promoted.entered (promoted : Promoted jobId db) : ∃ row ∈ db.jobs, row.id = jobId ∧ Entered db row := by
  obtain ⟨row, member, rfl, notIdea, notBacklog⟩ := promoted.row
  have unblocked : db.isBlocked row.id = false := by
    rw [JobsDb.isBlocked, any_eq_false]
    intro relation related
    simp [promoted.independent relation related]
  refine ⟨row, member, rfl, ?_⟩
  unfold Entered
  cases phase : row.phase with
  | idea => exact absurd phase notIdea
  | backlog => exact absurd phase notBacklog
  | ready => exact .inl ⟨.inl rfl, unblocked⟩
  | active => exact .inl ⟨.inr rfl, unblocked⟩
  | review => exact .inr (.inl rfl)
  | done | cancelled => exact .inr (.inr rfl)

def keepsPromoted : LoopStatement → Prop
  | .jobs (.updateJobs (.phaseChanged _ _ new _)) => new ≠ .backlog
  | _ => True

theorem Promoted.updateWhere (promoted : Promoted jobId db) {selected : Job → Bool}
    {change : Job → Job} (phases : ∀ row, row.phase ≠ .idea ∧ row.phase ≠ .backlog →
      (change row).phase ≠ .idea ∧ (change row).phase ≠ .backlog) (ids : ∀ row, (change row).id = row.id) :
    Promoted jobId { db with jobs := Table.updateWhere selected change db.jobs } := by
  obtain ⟨row, member, same, phase⟩ := promoted.row
  refine ⟨?_, promoted.independent⟩
  refine ⟨_, mem_map_of_mem (f := fun row => if selected row then change row else row) member, ?_⟩
  split
  · exact ⟨(ids row).trans same, phases row phase⟩
  · exact ⟨same, phase⟩

theorem update_keepsPromoted {update : JobUpdate} (issued : keepsPromoted (.jobs (.updateJobs update)))
    (now : Jobs.Timestamp) (row : Job) (phase : row.phase ≠ .idea ∧ row.phase ≠ .backlog) :
    (update.changes now row).phase ≠ .idea ∧ (update.changes now row).phase ≠ .backlog := by
  cases update with
  | phaseChanged changed current new valid =>
    refine ⟨?_, issued⟩
    change new ≠ .idea
    rintro rfl
    cases current <;> cases valid
  | gatesCleared jobIds => exact phase
  | requeued requeued deferUntil => cases deferUntil <;> exact ⟨nofun, nofun⟩
  | _ => exact ⟨nofun, nofun⟩

theorem statement_keepsPromoted (promoted : Promoted jobId db) {stmt : JobStatement}
    (issued : keepsPromoted (.jobs stmt)) : Promoted jobId (stmt.effect db) := by
  cases stmt with
  | updateJobs update =>
    exact promoted.updateWhere (update_keepsPromoted issued db.now) (update.changes_id db.now)
  | insertAttempt new =>
    rw [JobStatement.effect]
    split
    · exact promoted
    · exact ⟨promoted.row, promoted.independent⟩
  | _ => exact ⟨promoted.row, promoted.independent⟩

theorem loop_keepsPromoted {db : LoopDb} (promoted : Promoted jobId db.jobs) {stmt : LoopStatement}
    (issued : keepsPromoted stmt) : Promoted jobId (stmt.effect db).jobs := by
  cases stmt with
  | jobs stmt => exact statement_keepsPromoted promoted issued
  | writeReceipt attemptId receipt => exact ⟨promoted.row, promoted.independent⟩
  | promoteChildren parentId => exact promoted.updateWhere (fun _ _ => ⟨nofun, nofun⟩) fun _ => rfl
  | unstage staged => exact promoted.updateWhere (fun _ phase => phase) fun _ => rfl
  | _ => exact promoted

theorem orchestrator_keepsPromoted {db : OrchestratorDb} (promoted : Promoted jobId db.jobs)
    {stmt : OrchestratorStatement} (issued : stmt.Within keepsPromoted fun _ => True) :
    Promoted jobId (stmt.effect db).jobs := by
  have touched (touched : JobId) : Promoted jobId (Loop.touchJob touched db.jobs) :=
    promoted.updateWhere (fun _ phase => phase) fun _ => rfl
  cases stmt with
  | recovery stmt => exact loop_keepsPromoted promoted issued
  | workflow stmt => exact issued.elim
  | skipConditional skipped => exact promoted.updateWhere (fun _ _ => ⟨nofun, nofun⟩) fun _ => rfl
  | annotateBudgetBlocked annotated reason =>
    rw [OrchestratorStatement.effect]
    split
    · exact promoted
    · exact touched annotated
  | clearBudgetBlocked cleared =>
    rw [OrchestratorStatement.effect]
    split
    · exact promoted
    · exact touched cleared

theorem writes_keepPromoted {α : Type} {call : JobCall α} {writes : Jobs.Writes} (issues : call.Writes writes)
    (spared : ∀ changed current new valid, writes.updates (.phaseChanged changed current new valid) → new ≠ .backlog)
    (assumed : JobsDb → Prop) : call.IssuesWhile assumed fun stmt => keepsPromoted (.jobs stmt) := by
  refine (Issues.imp issues fun stmt allowed => ?_).issuesWhile _
  cases stmt with
  | updateJobs update =>
    cases update with
    | phaseChanged changed current new valid => exact spared changed current new valid allowed
    | _ => trivial
  | _ => trivial

theorem operation_keepsPromoted (query : JobOperation)
    (stays : shelves (.recovery (.jobQuery query)) = false) (assumed : JobsDb → Prop) :
    query.call.IssuesWhile assumed fun stmt => keepsPromoted (.jobs stmt) := by
  refine writes_keepPromoted query.call_writes ?_ assumed
  intro changed current new valid allowed
  cases query with
  | updatePhase phaseOf newPhase =>
    obtain ⟨_, _, same⟩ := allowed
    cases same
    simpa [shelves] using stays
  | markJobDone done summary =>
    obtain same | ⟨_, _, same⟩ := allowed
    · cases same
    · cases same
      exact nofun
  | _ => simp [JobOperation.writes, Jobs.claimWrites, Jobs.releaseWrites, Jobs.requeueWrites,
      Jobs.submitWrites, Jobs.approveWrites, Jobs.rejectWrites, Jobs.closingWrites] at allowed

theorem permits_promoted (assumed : JobsDb → Prop) : Loop.Permits assumed keepsPromoted fun _ => True where
  claim claimed agentId harness :=
    writes_keepPromoted (Jobs.claim_writes claimed agentId harness) (by simp [Jobs.claimWrites]) assumed
  requeueReady requeued actor deferUntil reason :=
    writes_keepPromoted (Jobs.requeueReady_writes requeued actor deferUntil reason)
      (by simp [Jobs.requeueWrites]) assumed
  markJobDone done summary :=
    writes_keepPromoted (Jobs.markJobDone_writes done summary)
      (by simp +contextual [Jobs.doneWrites, Jobs.submitWrites, Jobs.phaseWrites]) assumed
  cancelJob cancelled reason :=
    writes_keepPromoted (Jobs.cancelJob_writes cancelled reason) (by simp [Jobs.closingWrites]) assumed
  markJobFailed failed reason :=
    writes_keepPromoted (Jobs.markJobFailed_writes failed reason) (by simp [Jobs.closingWrites]) assumed

theorem stays_promoted {db : OrchestratorDb} {schedule : List (Choice OrchestratorOperation)}
    (promoted : Promoted jobId db.jobs)
    (unshelved : ∀ operation, .start operation ∈ schedule → shelves operation = false) :
    Promoted jobId (runOrchestrator assemble toLowerCase parseJson db schedule).store.jobs := by
  have promotes := @System.run_watched _ _ _ _ _ _ (OrchestratorOperation.call assemble toLowerCase parseJson)
    (fun _ => True) (fun found : OrchestratorDb => Promoted jobId found.jobs)
    (OrchestratorStatement.Within keepsPromoted fun _ => True) db schedule ?_ ?_ promoted fun _ _ => trivial
  · exact promotes.1
  · intro session operation started
    exact (permits_promoted (Promoted jobId)).orchestratorOperation assemble toLowerCase parseJson
      session operation fun query same => operation_keepsPromoted query (same ▸ unshelved operation started) _
  · intro stmt before holds issued _
    exact orchestrator_keepsPromoted holds issued

end

section

variable {db : JobsDb} {jobId : JobId} {only : Job}

theorem eq_of_rowsOf {row : Job} (rows : rowsOf db jobId = [only]) (member : row ∈ db.jobs)
    (same : row.id = jobId) : row = only := by
  have listed : row ∈ rowsOf db jobId := mem_filter.mpr ⟨member, by simp [same]⟩
  rwa [rows, mem_singleton] at listed

theorem mem_of_rowsOf (rows : rowsOf db jobId = [only]) : only ∈ db.jobs ∧ only.id = jobId := by
  have listed : only ∈ rowsOf db jobId := by
    rw [rows]
    exact mem_singleton_self only
  simpa [rowsOf] using listed

theorem findJob_rowsOf (rows : rowsOf db jobId = [only]) : db.findJob jobId = some only := by
  rw [JobsDb.findJob, ← head?_filter]
  exact congrArg List.head? rows

structure Finishable (jobId : JobId) (db : JobsDb) (only : Job) : Prop where
  rows : rowsOf db jobId = [only]
  unreviewed : only.reviewRequired = .none

variable {new : Phase}

theorem phaseChanged_rows (finishable : Finishable jobId db only) (valid : Jobs.canTransition only.phase new = true) :
    (∃ changed, changed.phase = new ∧ Finishable jobId
      (JobStatement.effect (.updateJobs (.phaseChanged jobId only.phase new valid)) db) changed) ∧
    ∀ other, other ≠ jobId →
      rowsOf (JobStatement.effect (.updateJobs (.phaseChanged jobId only.phase new valid)) db) other =
        rowsOf db other := by
  let update : JobUpdate := .phaseChanged jobId only.phase new valid
  have rows (wanted : JobId) : rowsOf (JobStatement.effect (.updateJobs update) db) wanted =
      Table.updateWhere (update.selects db) (update.changes db.now) (rowsOf db wanted) :=
    Table.filter_updateWhere Job.id _ _ (update.changes_id db.now) db.jobs wanted
  constructor
  · have own : only.id = jobId := (mem_of_rowsOf finishable.rows).2
    refine ⟨update.changes db.now only, rfl, ?_, finishable.unreviewed⟩
    rw [rows, finishable.rows]
    simp [Table.updateWhere, update, JobUpdate.selects, own]
  · intro other different
    rw [rows]
    unfold Table.updateWhere
    rw [map_congr_left, map_id]
    intro row listed
    have named : row.id = other := by simpa using (mem_filter.mp listed).2
    simp [update, JobUpdate.selects, named, different]

theorem updatePhase_alone (finishable : Finishable jobId db only) :
    ((Jobs.updatePhase jobId new).alone db).2 = if valid : Jobs.canTransition only.phase new = true then
        JobStatement.effect (.updateJobs (.phaseChanged jobId only.phase new valid)) db else db := by
  simp only [Jobs.updatePhase, Jobs.findById, Jobs.select, alone_perform_bind, findJob_rowsOf finishable.rows]
  split
  · next valid =>
      rw [if_neg (by simp [finishable.unreviewed])]
      simp only [Jobs.updateJobs, alone_perform_bind]
      split <;> rfl
  · rfl

def CanFinish (jobId : JobId) (db : JobsDb) : Prop :=
  ∃ only, Finishable jobId db only ∧ (only.phase = .ready ∨ only.phase = .done)

def Finished (jobId : JobId) (db : JobsDb) : Prop := ∃ only, Finishable jobId db only ∧ only.phase = .done

def finish (jobId : JobId) (db : JobsDb) : JobsDb :=
  ((Jobs.updatePhase jobId .done).alone ((Jobs.updatePhase jobId .active).alone db).2).2

theorem finish_finished (canFinish : CanFinish jobId db) :
    Finished jobId (finish jobId db) ∧ ∀ other, other ≠ jobId → rowsOf (finish jobId db) other = rowsOf db other := by
  obtain ⟨only, finishable, ready | done⟩ := canFinish
  · have starts : Jobs.canTransition only.phase .active = true := by
      rw [ready]
      rfl
    obtain ⟨⟨started, isActive, startable⟩, others⟩ := phaseChanged_rows finishable starts
    have ends : Jobs.canTransition started.phase .done = true := by
      rw [isActive]
      rfl
    obtain ⟨⟨ended, isDone, endable⟩, later⟩ := phaseChanged_rows startable ends
    unfold finish
    rw [updatePhase_alone finishable, dif_pos starts, updatePhase_alone startable, dif_pos ends]
    constructor
    · exact ⟨ended, endable, isDone⟩
    · intro other different
      rw [later other different, others other different]
  · have closed (new : Phase) : ¬ Jobs.canTransition only.phase new = true := by
      rw [done]
      exact nofun
    unfold finish
    rw [updatePhase_alone finishable, dif_neg (closed _), updatePhase_alone finishable, dif_neg (closed _)]
    exact ⟨⟨only, finishable, done⟩, fun _ _ => rfl⟩

theorem finish_all {jobIds : List JobId} (canFinish : ∀ jobId ∈ jobIds, CanFinish jobId db) :
    (∀ jobId ∈ jobIds, Finished jobId (jobIds.foldl (fun reached jobId => finish jobId reached) db)) ∧
      ∀ other, other ∉ jobIds → rowsOf (jobIds.foldl (fun reached jobId => finish jobId reached) db) other =
          rowsOf db other := by
  induction jobIds generalizing db with
  | nil => exact ⟨nofun, fun _ _ => rfl⟩
  | cons first rest ih =>
    obtain ⟨⟨only, finishable, done⟩, others⟩ := finish_finished (canFinish first mem_cons_self)
    have still : ∀ jobId ∈ rest, CanFinish jobId (finish first db) := by
      intro jobId member
      by_cases same : jobId = first
      · subst same
        exact ⟨only, finishable, .inr done⟩
      · obtain ⟨row, before, phase⟩ := canFinish jobId (mem_cons_of_mem _ member)
        refine ⟨row, ⟨?_, before.unreviewed⟩, phase⟩
        rw [others jobId same]
        exact before.rows
    obtain ⟨finished, kept⟩ := ih still
    rw [foldl_cons]
    constructor
    · intro jobId member
      by_cases later : jobId ∈ rest
      · exact finished jobId later
      · have same : jobId = first := by
          rcases mem_cons.mp member with here | later'
          · exact here
          · exact absurd later' later
        subst same
        refine ⟨only, ⟨?_, finishable.unreviewed⟩, done⟩
        rw [kept jobId later]
        exact finishable.rows
    · intro other absent
      rw [mem_cons, not_or] at absent
      rw [kept other absent.2, others other absent.1]

end

section

def finishing (jobId : JobId) : List OrchestratorOperation :=
  [.recovery (.jobQuery (.updatePhase jobId .active)), .recovery (.jobQuery (.updatePhase jobId .done))]

theorem jobQuery_alone (session : Nat) (query : JobOperation) (db : OrchestratorDb) :
    ((OrchestratorOperation.call assemble toLowerCase parseJson session
      (.recovery (.jobQuery query))).alone db).2.jobs = (query.call.alone db.jobs).2 := by
  change ((Loop.recovering (Loop.live (Loop.onJobs query.call >>= fun _ => .ret ()))).alone db).2.jobs = _
  rw [Loop.alone_recovering, Loop.alone_live]
  exact Loop.alone_onJobs_snd query.call (fun _ => ()) db.loop

theorem jobQuery_prompt (session : Nat) (query : JobOperation) :
    (OrchestratorOperation.call assemble toLowerCase parseJson session (.recovery (.jobQuery query))).Issues
      fun stmt => ∀ db : OrchestratorDb, Statement.ready stmt db = true := by
  change (Loop.recovering (Loop.live (Loop.onJobs query.call >>= fun _ => .ret ()))).Issues _
  apply Issues.lift
  apply Issues.lift
  refine Issues.bind ?_ fun _ => trivial
  apply Issues.lift
  exact (issues_true query.call).imp fun _ _ _ => rfl

theorem updatePhase_call (jobId : JobId) (newPhase : Phase) (db : JobsDb) :
    ((JobOperation.call (.updatePhase jobId newPhase)).alone db).2 =
      ((Jobs.updatePhase jobId newPhase).alone db).2 := by
  exact alone_bind_ret (Jobs.updatePhase jobId newPhase) Jobs.JobReply.updatePhase db

theorem finishing_afterAll (jobIds : List JobId) (db : OrchestratorDb) :
    (afterAll (OrchestratorOperation.call assemble toLowerCase parseJson 0) (jobIds.flatMap finishing)
      db).jobs = jobIds.foldl (fun reached jobId => finish jobId reached) db.jobs := by
  induction jobIds generalizing db with
  | nil => rfl
  | cons jobId rest ih =>
    have both : (afterAll (OrchestratorOperation.call assemble toLowerCase parseJson 0)
        (finishing jobId) db).jobs = finish jobId db.jobs := by
      change ((OrchestratorOperation.call assemble toLowerCase parseJson 0 _).alone
        ((OrchestratorOperation.call assemble toLowerCase parseJson 0 _).alone db).2).2.jobs = _
      rw [jobQuery_alone, jobQuery_alone, updatePhase_call, updatePhase_call]
      rfl
    rw [flatMap_cons, afterAll, foldl_append, ← afterAll, ← afterAll, ih, both]
    rfl

theorem exists_finishing (jobIds : List JobId) (db : OrchestratorDb) : ∃ schedule : List (Choice OrchestratorOperation),
      (∀ operation, .start operation ∈ schedule → shelves operation = false) ∧
        (runOrchestrator assemble toLowerCase parseJson db schedule).store.jobs =
          jobIds.foldl (fun reached jobId => finish jobId reached) db.jobs := by
  have queries : ∀ operation ∈ jobIds.flatMap finishing,
      ∃ jobId newPhase, operation = .recovery (.jobQuery (.updatePhase jobId newPhase)) ∧ newPhase ≠ .backlog := by
    intro operation member
    obtain ⟨jobId, _, listed⟩ := mem_flatMap.mp member
    rcases mem_cons.mp listed with starts | ends
    · exact ⟨jobId, .active, starts, nofun⟩
    · exact ⟨jobId, .done, mem_singleton.mp ends, nofun⟩
  have same : ∀ operation ∈ jobIds.flatMap finishing, ∀ session,
      OrchestratorOperation.call assemble toLowerCase parseJson session operation =
        OrchestratorOperation.call assemble toLowerCase parseJson 0 operation := by
    intro operation member session
    obtain ⟨jobId, newPhase, rfl, _⟩ := queries operation member
    rfl
  have prompt : ∀ operation ∈ jobIds.flatMap finishing,
      (OrchestratorOperation.call assemble toLowerCase parseJson 0 operation).Issues
        fun stmt => ∀ db : OrchestratorDb, Statement.ready stmt db = true := by
    intro operation member
    obtain ⟨jobId, newPhase, rfl, _⟩ := queries operation member
    exact jobQuery_prompt assemble toLowerCase parseJson 0 _
  obtain ⟨schedule, starts, reached⟩ := exists_afterAll _ _ _ same prompt db
  refine ⟨schedule, ?_, ?_⟩
  · intro operation started
    obtain ⟨jobId, newPhase, rfl, other⟩ := queries operation (starts operation started)
    exact beq_false_of_ne other
  · rw [← finishing_afterAll assemble toLowerCase parseJson jobIds db, ← reached]
    rfl

end

section

variable {projects : ProjectTable} {rootIds : TreeIds} {newBatchId : BatchDb → String}
  {request : CreateBatchRequest} {projectId : String} {correlationId userId : Option String}
  {before : BatchDb} {project : Project}

structure NodeRow (request : CreateBatchRequest) (before after : JobsDb) (node : BatchNode)
    (jobId : JobId) (row : Job) : Prop where
  rows : rowsOf after jobId = [row]
  phase : row.phase = initialPhase request node.key
  unreviewed : row.reviewRequired = .none
  new : before.findJob jobId = none

variable {ids : KeyToJobId} {after : BatchDb}

theorem Filled.nodeRow (closed : Closed request)
    (filled : Filled newBatchId request project correlationId userId before ids after)
    {node : BatchNode} (member : node ∈ request.nodes) :
    ∃ jobId row, (batchResponse request (newBatchId before) ids).jobOf node.key = some jobId ∧
      NodeRow request before.jobs after.jobs node jobId row := by
  obtain ⟨sorted, reached, order, planted, wired⟩ := filled.planted
  have named : node.key ∈ request.keys := mem_map_of_mem member
  obtain ⟨jobId, found, _⟩ := planted.known order node.key named
  obtain ⟨keys, rows, planted⟩ := planted
  obtain ⟨row, isRow, other, isNode, _, filed⟩ := stands_of_mem planted.stand (get_mem found)
  cases isNode.symm.trans (closed.find member)
  have same : row.id = jobId := by
    rw [filed]
    rfl
  have jobs : after.jobs.jobs = before.jobs.jobs ++ rows := by
    rw [wired.rest, planted.jobs]
    rfl
  have older : ∀ old ∈ before.jobs.jobs, old.id ≠ jobId := by
    intro old listed equal
    exact (planted.grove.apart row isRow old listed).1 (congrArg rootPart (equal.trans same.symm))
  refine ⟨jobId, row, ?_, ?_, ?_, ?_, ?_⟩
  · rw [jobOf_response closed named (Option.isSome_iff_exists.mpr ⟨jobId, found⟩), found]
  · have none : before.jobs.jobs.filter (·.id == jobId) = [] := by
      rw [filter_eq_nil_iff]
      intro old listed
      simpa using older old listed
    rw [rowsOf, jobs, filter_append, none, nil_append, ← same]
    exact filter_of_distinct planted.grove.distinct isRow
  · rw [filed]
    rfl
  · rw [filed]
    rfl
  · rw [JobsDb.findJob, find?_eq_none]
    intro old listed
    simpa using older old listed

theorem Created.jobOf_inj {start after : JobsDb} {response : CreateBatchResponse}
    (created : Created request start after response) {first second : String} {jobId : JobId}
    (ofFirst : response.jobOf first = some jobId) (ofSecond : response.jobOf second = some jobId) : first = second := by
  have entry {key : String} (found : response.jobOf key = some jobId) :
      ∃ result, (key, result) ∈ response.jobs ∧ result.jobId = jobId := by
    obtain ⟨result, looked, same⟩ := Option.map_eq_some_iff.mp found
    exact ⟨result, Table.mem_of_lookup looked, same⟩
  obtain ⟨one, inFirst, isFirst⟩ := entry ofFirst
  obtain ⟨two, inSecond, isSecond⟩ := entry ofSecond
  have same := inj_on_of_nodup_map created.distinct inFirst inSecond (isFirst.trans isSecond.symm)
  exact congrArg Prod.fst same

theorem initialPhase_eq_backlog {key : String} : initialPhase request key = .backlog ↔
      ∃ dependency ∈ request.dependencies, dependency.job = key ∧ dependency.dependsOn ≠ [] := by
  unfold initialPhase dependenciesOf
  split
  · next waits =>
      refine iff_of_true rfl ?_
      obtain ⟨dependency, member, some⟩ := any_eq_true.mp waits
      rw [mem_filter] at member
      exact ⟨dependency, member.1, by simpa using member.2, by simpa using some⟩
  · next free =>
      refine iff_of_false nofun ?_
      rintro ⟨dependency, member, ofKey, some⟩
      apply free
      rw [any_eq_true]
      exact ⟨dependency, mem_filter.mpr ⟨member, by simpa using ofKey⟩, by simpa using some⟩

theorem initialPhase_cases (key : String) :
    initialPhase request key = .backlog ∨ initialPhase request key = .ready := by
  unfold initialPhase
  split
  · exact .inl rfl
  · exact .inr rfl

variable {dependency : BatchDependency}

theorem exists_first_dependent (valid : (validateBatch request).valid = true)
    (member : dependency ∈ request.dependencies) (some : dependency.dependsOn ≠ []) :
    ∃ node ∈ request.nodes, initialPhase request node.key = .backlog ∧
      ∀ dependency ∈ dependenciesOf request node.key, ∀ other ∈ dependency.dependsOn,
        initialPhase request other = .ready := by
  obtain ⟨closed, acyclic⟩ := validateBatch_valid valid
  have order := topologicalSort_order closed acyclic
  have waits : initialPhase request dependency.job = .backlog :=
    initialPhase_eq_backlog.mpr ⟨dependency, member, rfl, some⟩
  have listed := (order.same dependency.job).mpr (closed.jobs dependency member)
  have dependents : ∃ key ∈ topologicalSort request, initialPhase request key = .backlog :=
    ⟨dependency.job, listed, waits⟩
  obtain ⟨key, sorted, isDependent, first⟩ := order.ordered.first dependents
  obtain ⟨node, isNode, rfl⟩ := mem_map.mp ((order.same key).mp sorted)
  refine ⟨node, isNode, isDependent, ?_⟩
  intro edge isEdge other before
  obtain ⟨inRequest, ofNode⟩ := mem_filter.mp isEdge
  have precedes : Precedes (edges request) other node.key := by
    apply mem_append_right
    rw [mem_flatMap]
    exact ⟨edge, inRequest, mem_map.mpr ⟨other, before, by simpa using ofNode⟩⟩
  exact (initialPhase_cases other).resolve_left (first other precedes)

variable {db : OrchestratorDb}

theorem independent_runs (closed : Closed request)
    (filled : Filled newBatchId request project correlationId userId before ids after)
    (referenced : Referenced before.jobs) (same : db.jobs = after.jobs)
    (none : ∀ dependency ∈ request.dependencies, dependency.dependsOn = []) :
    BatchRuns assemble toLowerCase parseJson request (batchResponse request (newBatchId before) ids) db := by
  intro schedule unshelved node member _
  obtain ⟨jobId, row, known, nodeRow⟩ := filled.nodeRow closed member
  have ready : initialPhase request node.key = .ready := by
    refine (initialPhase_cases node.key).resolve_left fun waits => ?_
    obtain ⟨dependency, listed, _, some⟩ := initialPhase_eq_backlog.mp waits
    exact some (none dependency listed)
  have promoted : Promoted jobId db.jobs := by
    obtain ⟨isRow, named⟩ := mem_of_rowsOf nodeRow.rows
    rw [same]
    constructor
    · refine ⟨row, isRow, named, ?_⟩
      rw [nodeRow.phase, ready]
      exact ⟨nofun, nofun⟩
    · intro relation related
      rcases ((filled.created closed).relations relation).mp related with old | new
      · intro equal
        have filed := referenced relation old
        rw [equal, nodeRow.new] at filed
        cases filed
      · obtain ⟨dependency, listed, key, before, _⟩ := new
        rw [none dependency listed] at before
        cases before
  obtain ⟨final, filed, named, entered⟩ := (stays_promoted assemble toLowerCase parseJson promoted unshelved).entered
  exact ⟨final, filed, named ▸ known, entered⟩

def readyIds (request : CreateBatchRequest) (response : CreateBatchResponse) : List JobId :=
  (request.nodes.filter fun node => initialPhase request node.key == .ready).filterMap fun node =>
    response.jobOf node.key

theorem dependent_waits (valid : (validateBatch request).valid = true)
    (filled : Filled newBatchId request project correlationId userId before ids after) (same : db.jobs = after.jobs)
    (member : dependency ∈ request.dependencies) (some : dependency.dependsOn ≠ []) :
    ¬ BatchRuns assemble toLowerCase parseJson request (batchResponse request (newBatchId before) ids) db := by
  intro runs
  have closed := (validateBatch_valid valid).1
  have created := filled.created closed
  let response := batchResponse request (newBatchId before) ids
  obtain ⟨node, isNode, waits, first⟩ := exists_first_dependent valid member some
  obtain ⟨schedule, unshelved, reached⟩ := exists_finishing assemble toLowerCase parseJson
    (readyIds request response) db
  have canFinish : ∀ jobId ∈ readyIds request response, CanFinish jobId db.jobs := by
    intro jobId listed
    obtain ⟨other, isReady, known⟩ := mem_filterMap.mp listed
    obtain ⟨isOther, ready⟩ := mem_filter.mp isReady
    obtain ⟨found, row, ofKey, nodeRow⟩ := filled.nodeRow closed isOther
    cases ofKey.symm.trans known
    refine ⟨row, ⟨?_, nodeRow.unreviewed⟩, .inl (nodeRow.phase.trans (eq_of_beq ready))⟩
    rw [same]
    exact nodeRow.rows
  obtain ⟨finished, kept⟩ := finish_all canFinish
  rw [← reached] at finished kept
  have ended : DependenciesClosed request response node.key
      (runOrchestrator assemble toLowerCase parseJson db schedule).store.jobs := by
    intro edge isEdge other before
    have inRequest := (mem_filter.mp isEdge).1
    obtain ⟨otherNode, isOther, rfl⟩ := mem_map.mp (closed.dependsOn edge inRequest other before)
    obtain ⟨jobId, _, known, _⟩ := filled.nodeRow closed isOther
    have listed : jobId ∈ readyIds request response := by
      refine mem_filterMap.mpr ⟨otherNode, mem_filter.mpr ⟨isOther, ?_⟩, known⟩
      rw [first edge isEdge _ before]
      rfl
    obtain ⟨row, finishable, done⟩ := finished jobId listed
    obtain ⟨filed, named⟩ := mem_of_rowsOf finishable.rows
    exact ⟨row, filed, named ▸ known, by rw [done]; rfl⟩
  obtain ⟨row, filed, known, entered⟩ := runs schedule unshelved node isNode ended
  obtain ⟨jobId, start, ofKey, nodeRow⟩ := filled.nodeRow closed isNode
  cases ofKey.symm.trans known
  have waiting : row.id ∉ readyIds request response := by
    intro listed
    obtain ⟨other, isReady, ofOther⟩ := mem_filterMap.mp listed
    have ready := (mem_filter.mp isReady).2
    rw [created.jobOf_inj ofOther known, waits] at ready
    cases ready
  have rows : rowsOf (runOrchestrator assemble toLowerCase parseJson db schedule).store.jobs row.id = [start] := by
    rw [kept row.id waiting, same]
    exact nodeRow.rows
  have phase : row.phase = .backlog := by rw [eq_of_rowsOf rows filed rfl, nodeRow.phase, waits]
  unfold Entered at entered
  rw [phase] at entered
  simp [Phase.terminal] at entered

end

/-- A batch runs if none of its jobs has dependencies: nothing promotes one that has. -/
theorem batch_runs_iff (projects : ProjectTable) (rootIds : TreeIds) (newBatchId : BatchDb → String)
    (request : BatchRequest) (projectId : String) (correlationId userId : Option String)
    (before after : BatchDb) {project : Project} {response : CreateBatchResponse}
    (submits : Submits projects.rows request.val projectId before project) (referenced : Referenced before.jobs)
    (created : (createBatch projects.rows rootIds.rootIds newBatchId request.val projectId correlationId
      userId).alone before = (.ok response, after))
    (assemble : AssembleReceipt)
    (toLowerCase : String → String) (parseJson : String → Option Json) (db : OrchestratorDb)
    (same : db.jobs = after.jobs) : BatchRuns assemble toLowerCase parseJson request.val response db ↔
      ∀ dependency ∈ request.val.dependencies, dependency.dependsOn = [] := by
  have closed := (validateBatch_valid submits.valid).1
  have submitted := @submission_new _ rootIds newBatchId _ _ correlationId
    userId _ _ (.failure (.error "")) none submits
  have ended : (createJobs projects.rows rootIds.rootIds newBatchId request.val project correlationId
      userId).alone before = (.ok response, after) := submitted.symm.trans created
  have levels : ThreeLevels request.val := by
    by_contra deep
    have thrown := createJobs_deep rootIds newBatchId correlationId userId submits deep
    rw [ended] at thrown
    cases thrown
  obtain ⟨ids, final, runs, filled⟩ := createJobs_runs submits levels
  cases runs.ended.symm.trans ended
  constructor
  · intro runs dependency member
    by_contra some
    exact dependent_waits assemble toLowerCase parseJson submits.valid filled same member some runs
  · exact independent_runs assemble toLowerCase parseJson closed filled referenced same

def withProject : BatchDb where
  jobs := { projects := ["proj_1"] }

def afterCreation (request : BatchRequest) : OrchestratorDb where
  loop :=
    { jobs := ((createBatch shop.rows longTreeIds.rootIds (fun _ => "batch_1") request.val "proj_1" none
        none).alone withProject).2.jobs
      projects := [{ id := "proj_1", orgId := "org_1" }] }

def independentTasks : BatchRequest where
  val :=
    { idempotencyKey := some "deploy"
      nodes := [{ key := "a", title := "A" }, { key := "b", title := "B", parent := some "a" },
        { key := "c", title := "C" }]
      dependencies := [⟨"b", []⟩, ⟨"c", []⟩] }
  property := by
    constructor
    · decide
    · decide

def independentResponse : CreateBatchResponse where
  batchId := "batch_1"
  idempotencyKey := some "deploy"
  jobs := [("a", ⟨"r", .ready, none⟩), ("b", ⟨"r.1", .ready, none⟩), ("c", ⟨"rr", .ready, none⟩)]

theorem independent_tasks_run : BatchRuns (fun _ _ _ _ => none) id (fun _ => none) independentTasks.val
    independentResponse (afterCreation independentTasks) := by
  have submits : Submits shop.rows independentTasks.val "proj_1" withProject ⟨"proj_1", "shop", "org_1"⟩ :=
    ⟨by decide +kernel, by decide +kernel, by decide +kernel⟩
  have created : ((createBatch shop.rows longTreeIds.rootIds (fun _ => "batch_1") independentTasks.val "proj_1" none
      none).alone withProject).1 = .ok independentResponse := by
    decide +kernel
  refine (batch_runs_iff shop longTreeIds (fun _ => "batch_1") independentTasks "proj_1" none none withProject _
    submits ?_ (Prod.ext created rfl) (fun _ _ _ _ => none) id (fun _ => none) (afterCreation independentTasks)
    rfl).mpr ?_
  · intro relation nowhere
    cases nowhere
  · decide

def twoTasks : BatchRequest where
  val :=
    { nodes := [{ key := "a", title := "A" }, { key := "b", title := "B" }]
      dependencies := [⟨"b", ["a"]⟩] }
  property := by
    constructor
    · decide
    · decide

def twoTasksResponse : CreateBatchResponse where
  batchId := "batch_1"
  idempotencyKey := none
  jobs := [("a", ⟨"r", .ready, none⟩), ("b", ⟨"rr", .backlog, some ["a"]⟩)]

def firstTaskDone : List (Choice OrchestratorOperation) :=
  .start (.claimNextJobWithBudgetCheck fun _ => .ok {}) :: List.replicate 14 (.advance 0) ++
    .start (.recovery (.jobQuery (.markJobDone "r" none))) :: List.replicate 8 (.advance 0)

theorem second_task_left_in_backlog :
    ((createBatch shop.rows longTreeIds.rootIds (fun _ => "batch_1") twoTasks.val "proj_1" none
        none).alone withProject).1 = .ok twoTasksResponse ∧
      ¬ BatchRuns (fun _ _ _ _ => none) id (fun _ => none) twoTasks.val twoTasksResponse (afterCreation twoTasks) := by
  constructor
  · decide +kernel
  · intro runs
    have phases : (runOrchestrator (fun _ _ _ _ => none) id (fun _ => none) (afterCreation twoTasks)
        firstTaskDone).store.jobs.jobs.map (fun row => (row.id, row.phase)) = [("r", .done), ("rr", .backlog)] := by
      decide +kernel
    have unshelved : ∀ operation, .start operation ∈ firstTaskDone → shelves operation = false := by
      intro operation started
      simp [firstTaskDone] at started
      rcases started with rfl | rfl
      · rfl
      · rfl
    have ended : DependenciesClosed twoTasks.val twoTasksResponse "b"
        (runOrchestrator (fun _ _ _ _ => none) id (fun _ => none) (afterCreation twoTasks)
          firstTaskDone).store.jobs := by
      have listed : ("r", Phase.done) ∈ [(("r" : JobId), Phase.done), ("rr", .backlog)] := mem_cons_self
      rw [← phases] at listed
      obtain ⟨row, filed, same⟩ := mem_map.mp listed
      obtain ⟨named, done⟩ := Prod.mk.inj same
      intro dependency member other depends
      cases mem_singleton.mp member
      cases mem_singleton.mp depends
      exact ⟨row, filed, by rw [named]; rfl, by rw [done]; rfl⟩
    obtain ⟨row, filed, known, entered⟩ := runs firstTaskDone unshelved { key := "b", title := "B" }
      (mem_cons_of_mem _ mem_cons_self) ended
    have phase := mem_map_of_mem (f := fun row : Job => (row.id, row.phase)) filed
    rw [phases] at phase
    have named : row.id = "rr" := (Option.some.inj known).symm
    have waiting : row.phase = .backlog := by simpa [named] using phase
    unfold Entered at entered
    rw [waiting] at entered
    simp [Phase.terminal] at entered

end EveHorizon.Batches
