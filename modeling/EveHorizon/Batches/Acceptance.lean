import EveHorizon.Batches.Planting
import EveHorizon.Workflows.Rejection

/-!
# Accepted batches

What the checks of a batch promise, and what its creation keeps of it.
-/

namespace EveHorizon.Batches

open Interleaving Precedence List Call
open Jobs (JobId Job JobRelation JobsDb)
open Workflows (Project WorkflowStatement newJob resolveProjectForJobId)
open BatchStatement (effect insertBatch)

structure ProjectTable where
  rows : List Project
  distinct : (rows.map (·.id)).Nodup
  prefixed : ∀ project ∈ rows, project.id.startsWith "proj_" = true

structure CreateBatchRequest.Conforming (request : CreateBatchRequest) : Prop where
  nodes : request.nodes ≠ []
  keys : ∀ node ∈ request.nodes, node.key ≠ ""

abbrev BatchRequest : Type :=
  { request : CreateBatchRequest // request.Conforming }

def CreateBatchResponse.jobOf (response : CreateBatchResponse) (key : String) : Option JobId :=
  (response.jobs.lookup key).map (·.jobId)

/-- One job for each node, under the job of its parent, and one relation for each dependency. -/
structure Created (request : CreateBatchRequest) (before after : JobsDb)
    (response : CreateBatchResponse) : Prop where
  keys : response.jobs.map Prod.fst = request.keys
  distinct : (response.jobs.map (·.2.jobId)).Nodup
  rows : ∃ rows, after.jobs = before.jobs ++ rows ∧ (rows.map (·.id)).Perm (response.jobs.map (·.2.jobId))
  parents : ∀ node ∈ request.nodes, ∃ row ∈ after.jobs, response.jobOf node.key = some row.id ∧
    row.parentId = node.parentKey.bind response.jobOf
  relations : ∀ relation, relation ∈ after.relations ↔ relation ∈ before.relations ∨
    ∃ dependency ∈ request.dependencies, ∃ key ∈ dependency.dependsOn,
      response.jobOf dependency.job = some relation.jobId ∧
        response.jobOf key = some relation.relatedJobId ∧ relation.relationType = .blocks

/-- A valid request creates its jobs unless the database fails, and a request that throws
leaves no job. -/
structure AcceptanceCreates (request : CreateBatchRequest) (before : BatchDb) (failing : Option Nat)
    (outcome : Except BatchFailure CreateBatchResponse × BatchDb) : Prop where
  accepted : failing = none → (validateBatch request).valid = true →
    ∃ response, outcome.1 = .ok response ∧ Created request before.jobs outcome.2.jobs response
  unwound : ∀ failure, outcome.1 = .error failure → outcome.2.jobs.jobs = before.jobs.jobs

def ThreeLevels (request : CreateBatchRequest) : Prop :=
  ∀ node ∈ request.nodes, exceedsDepth request 2 node.parentKey = false

structure Submits (projects : List Project) (request : CreateBatchRequest) (projectId : String)
    (before : BatchDb) (project : Project) : Prop where
  valid : (validateBatch request).valid = true
  resolved : resolveProject projects projectId = .ok project
  unsubmitted : before.submitted project.id request.idempotencyKey = none

variable (request : CreateBatchRequest)

def submissionLookups : Nat :=
  match request.idempotencyKey with
  | none => 0
  | some key => if key.isEmpty then 0 else 1

def firstInsert : Nat := submissionLookups request + 3

def creationStatements : Nat :=
  submissionLookups request + (1 + (1 + (3 * request.nodes.length + 3 * (dependencyPairs request.dependencies).length)))

/-- A valid request is new, and creates three levels at most; and the database fails before
the first job or not at all. -/
def CreatesWhen (projects : List Project) (request : CreateBatchRequest) (projectId : String)
    (before : BatchDb) : Option Nat → Prop
  | none => (validateBatch request).valid = true →
      (∃ project, Submits projects request projectId before project) ∧ ThreeLevels request
  | some number => (∃ project, Submits projects request projectId before project) →
      number ≤ firstInsert request ∨ (ThreeLevels request ∧ creationStatements request ≤ number)

section

variable {projects : ProjectTable} {rootIds : TreeIds} {newBatchId : BatchDb → String}
  {request : CreateBatchRequest} {projectId : String} {correlationId userId : Option String}
  {before : BatchDb} {project : Project}

theorem resolve_again (resolved : resolveProject projects.rows projectId = .ok project) :
    resolveProjectForJobId projects.rows project.id = .ok project := by
  have member : project ∈ projects.rows := by
    unfold resolveProject resolveProjectForJobId at resolved
    split at resolved
    · next found =>
        simp only at found
        split at found
        · cases found
        · next row isRow =>
            cases found
            cases resolved
            split at isRow
            · exact mem_of_find?_eq_some isRow
            · exact mem_of_find?_eq_some isRow
    · cases resolved
    · cases resolved
  have found : projects.rows.find? (·.id == project.id) = some project := by
    have distinct := projects.distinct
    revert member distinct
    induction projects.rows with
    | nil => simp
    | cons first rest ih =>
      intro member distinct
      rw [map_cons, nodup_cons] at distinct
      rcases mem_cons.mp member with rfl | later
      · simp
      · have other : first.id ≠ project.id := by
          intro same
          exact distinct.1 (same ▸ mem_map_of_mem (f := Project.id) later)
        rw [find?_cons_of_neg (by simpa using other)]
        exact ih later distinct.2
  unfold resolveProjectForJobId
  rw [projects.prefixed project member, if_pos rfl, found]

/-! ## A creation that succeeds -/

def opened (before : BatchDb) (record : BatchRecord) : BatchDb :=
  { before with batches := before.batches ++ [record] }

theorem select_runs {α : Type} (query : BatchDb → α) : (select query).Runs before 1 (query before) before :=
  ⟨rfl, rfl⟩

theorem insertBatch_runs {record : BatchRecord}
    (fresh : before.submitted record.projectId record.idempotencyKey = none) :
    (insertBatch record).Runs before 1 () (opened before record) := by
  have effect : Statement.effect (BatchStatement.insertBatch record) before = opened before record := by
    change effect _ _ = _
    rw [effect, fresh]
    rfl
  constructor
  · rw [insertBatch, alone_stmt, effect, fresh]
    rfl
  · rw [insertBatch, Call.statements, fresh]
    rfl

def batchRecord (newBatchId : BatchDb → String) (request : CreateBatchRequest) (project : Project)
    (correlationId : Option String) (before : BatchDb) : BatchRecord where
  id := newBatchId before
  projectId := project.id
  idempotencyKey := request.idempotencyKey
  nodeCount := request.nodes.length
  createdBy := correlationId

/-- What a batch leaves behind: its record, its jobs with their tags, and their relations. -/
structure Filled (newBatchId : BatchDb → String) (request : CreateBatchRequest) (project : Project)
    (correlationId userId : Option String) (before : BatchDb) (ids : KeyToJobId)
    (after : BatchDb) : Prop where
  planted : ∃ sorted planted, CreationOrder request sorted ∧ PlantedKeys request project.id (newBatchId before) userId
      (opened before (batchRecord newBatchId request project correlationId before)) sorted ids planted ∧
    Wired ids planted (dependencyPairs request.dependencies) after

variable {batchId : String} {ids : KeyToJobId} {sorted : List String}

theorem PlantedKeys.known {reached : BatchDb} (order : CreationOrder request sorted)
    (planted : PlantedKeys request projectId batchId userId before sorted ids reached) : Known request ids reached := by
  obtain ⟨keys, rows, planted⟩ := planted
  intro key member
  have listed : key ∈ ids.map Prod.fst := by
    rw [keys]
    exact (order.same key).mpr member
  obtain ⟨id, found⟩ := Option.isSome_iff_exists.mp (get_isSome.mpr listed)
  obtain ⟨row, isRow, named⟩ := mem_map.mp (planted.get found).1
  refine ⟨id, found, ?_⟩
  rw [JobsDb.findJob, find?_isSome, planted.jobs]
  exact ⟨row, mem_append_right _ isRow, by rw [named, beq_self_eq_true]⟩

theorem createJobs_runs (submits : Submits projects.rows request projectId before project)
    (levels : ThreeLevels request) :
    ∃ ids after, (createJobs projects.rows rootIds.rootIds newBatchId request project correlationId userId).Runs
        before (1 + (1 + (3 * request.nodes.length + 3 * (dependencyPairs request.dependencies).length)))
        (batchResponse request (newBatchId before) ids) after ∧
      Filled newBatchId request project correlationId userId before ids after := by
  obtain ⟨closed, acyclic⟩ := validateBatch_valid submits.valid
  have order := topologicalSort_order closed acyclic
  let record := batchRecord newBatchId request project correlationId before
  have asked := @select_runs before _ newBatchId
  have inserted : (insertBatch record).Runs before 1 () (opened before record) := insertBatch_runs submits.unsubmitted
  obtain ⟨ids, planted, created, filled⟩ :=
    createNodes_runs rootIds (resolve_again submits.resolved) closed order levels (nil_append _).symm
      (PlantedKeys.start request project.id (newBatchId before) userId (opened before record))
  obtain ⟨after, wired, related⟩ := wireDependencies_runs closed (filled.known order)
  rw [order.length closed] at created
  refine ⟨ids, after, ?_, ⟨_, planted, order, filled, related⟩⟩
  apply asked.bind
  apply inserted.bind
  apply created.bind
  rw [← Nat.add_zero (3 * (dependencyPairs request.dependencies).length)]
  apply wired.bind
  exact Call.Runs.ret _ _

/-! ## What the response says of it -/

variable {α : Type}

theorem lookup_nodes (nodes : List BatchNode) (value : BatchNode → α) (key : String) :
    (nodes.map fun node => (node.key, value node)).lookup key = (nodes.find? (·.key == key)).map value := by
  induction nodes with
  | nil => rfl
  | cons node nodes ih =>
    rw [map_cons, lookup_cons, find?_cons, ih]
    by_cases same : key = node.key
    · rw [← same, beq_self_eq_true]
      rfl
    · rw [beq_eq_false_iff_ne.mpr same, beq_eq_false_iff_ne.mpr (Ne.symm same)]

variable {key : String}

theorem jobOf_response (closed : Closed request) (named : key ∈ request.keys)
    (known : (KeyToJobId.get ids key).isSome) :
    (batchResponse request batchId ids).jobOf key = KeyToJobId.get ids key := by
  obtain ⟨node, member, rfl⟩ := mem_map.mp named
  obtain ⟨id, found⟩ := Option.isSome_iff_exists.mp known
  rw [CreateBatchResponse.jobOf, batchResponse, lookup_nodes, closed.find member, found,
    Option.map_some, Option.map_some, found]
  rfl

theorem ids_of_keys (distinct : (ids.map Prod.fst).Nodup) :
    ids.map Prod.snd = (ids.map Prod.fst).map fun key => (KeyToJobId.get ids key).getD "" := by
  rw [map_map]
  apply map_congr_left
  intro entry member
  unfold KeyToJobId.get
  revert member distinct
  induction ids with
  | nil => simp
  | cons first ids ih =>
    intro distinct member
    rw [map_cons, nodup_cons] at distinct
    rw [Function.comp_apply, lookup_cons]
    rcases mem_cons.mp member with rfl | later
    · rw [beq_self_eq_true]
      rfl
    · have other : entry.1 ≠ first.1 := by
        intro same
        exact distinct.1 (same ▸ mem_map_of_mem (f := Prod.fst) later)
      rw [beq_eq_false_iff_ne.mpr other]
      exact ih distinct.2 later

theorem stands_of_mem {β : Type} {relation : α → β → Prop} {firsts : List α} {seconds : List β}
    (all : List.Forall₂ relation firsts seconds) {first : α} (member : first ∈ firsts) :
    ∃ second ∈ seconds, relation first second := by
  induction all with
  | nil => cases member
  | cons related _ ih =>
    rcases mem_cons.mp member with rfl | later
    · exact ⟨_, mem_cons_self, related⟩
    · obtain ⟨second, listed, found⟩ := ih later
      exact ⟨second, mem_cons_of_mem _ listed, found⟩

variable {after : BatchDb}

theorem Filled.created (closed : Closed request)
    (filled : Filled newBatchId request project correlationId userId before ids after) :
    Created request before.jobs after.jobs (batchResponse request (newBatchId before) ids) := by
  obtain ⟨sorted, reached, order, planted, wired⟩ := filled.planted
  have known := planted.known order
  have jobOf : ∀ key ∈ request.keys,
      (batchResponse request (newBatchId before) ids).jobOf key = KeyToJobId.get ids key := by
    intro key named
    obtain ⟨id, found, _⟩ := known key named
    exact jobOf_response closed named (Option.isSome_iff_exists.mpr ⟨id, found⟩)
  obtain ⟨keys, rows, planted⟩ := planted
  have same : after.jobs.jobs = before.jobs.jobs ++ rows := by
    rw [wired.rest, planted.jobs]
    rfl
  have listed : (rows.map (·.id)).Perm ((batchResponse request (newBatchId before) ids).jobs.map (·.2.jobId)) := by
    have perm := (perm_ext_iff_of_nodup order.distinct closed.distinct).mpr order.same
    rw [planted.rowIds, ids_of_keys (keys ▸ order.distinct), keys]
    have mapped := perm.map fun key => (KeyToJobId.get ids key).getD ""
    rw [CreateBatchRequest.keys, map_map] at mapped
    rw [batchResponse, map_map]
    exact mapped
  constructor
  · rw [batchResponse, map_map]
    rfl
  · exact listed.nodup_iff.mp planted.grove.distinct
  · exact ⟨rows, same, listed⟩
  · intro node member
    have named : node.key ∈ request.keys := mem_map_of_mem member
    obtain ⟨id, found, _⟩ := known node.key named
    obtain ⟨row, isRow, other, isNode, _, filed⟩ := stands_of_mem planted.stand (get_mem found)
    cases isNode.symm.trans (closed.find member)
    refine ⟨row, same ▸ mem_append_right _ isRow, ?_, ?_⟩
    · rw [jobOf node.key named, found, filed]
      rfl
    · have parent : node.parentKey.bind (batchResponse request (newBatchId before) ids).jobOf =
          node.parentKey.bind (KeyToJobId.get ids) := by
        cases given : node.parentKey with
        | none => rfl
        | some parent => exact jobOf parent (closed.parents node member parent given)
      rw [parent, filed]
      rfl
  · intro relation
    have relations : reached.jobs.relations = before.jobs.relations := by
      rw [planted.jobs]
      rfl
    rw [wired.relations, relations]
    apply or_congr_right
    constructor
    · rintro ⟨pair, isPair, rfl⟩
      obtain ⟨dependency, isDependency, inPairs⟩ := mem_flatMap.mp isPair
      obtain ⟨key, depends, rfl⟩ := mem_map.mp inPairs
      have isJob := closed.jobs dependency isDependency
      have isKey := closed.dependsOn dependency isDependency key depends
      obtain ⟨fromId, fromFound, _⟩ := known dependency.job isJob
      obtain ⟨toId, toFound, _⟩ := known key isKey
      refine ⟨dependency, isDependency, key, depends, ?_, ?_, rfl⟩
      · rw [jobOf _ isJob, fromFound, pairRelation, fromFound]
        rfl
      · rw [jobOf _ isKey, toFound, pairRelation, toFound]
        rfl
    · rintro ⟨dependency, isDependency, key, depends, fromFound, toFound, type⟩
      refine ⟨(dependency.job, key), ?_, ?_⟩
      · exact mem_flatMap.mpr ⟨dependency, isDependency, mem_map.mpr ⟨key, depends, rfl⟩⟩
      · rw [jobOf _ (closed.jobs dependency isDependency)] at fromFound
        rw [jobOf _ (closed.dependsOn dependency isDependency key depends)] at toFound
        obtain ⟨jobId, relatedJobId, relationType⟩ := relation
        simp only at fromFound toFound type
        rw [pairRelation, fromFound, toFound, type]
        rfl

/-! ## A creation that fails -/

def Creating : BatchStatement → Prop
  | .jobs (.jobs .select) | .jobs (.insertJob _) | .jobs (.insertRelation _) => True
  | .jobs _ => False
  | .insertBatch _ | .tagJob _ => True

def Grown (before store : BatchDb) : Prop := before.jobs.jobs.length < store.jobs.jobs.length

theorem creating_grown (stmt : BatchStatement) (creating : Creating stmt) (store : BatchDb)
    (grown : Grown before store) : Grown before (Statement.effect stmt store) := by
  cases stmt with
  | jobs stmt =>
    cases stmt with
    | jobs stmt =>
      cases stmt with
      | select => exact grown
      | _ => cases creating
    | insertJob job =>
      apply grown.trans_le
      change _ ≤ (Workflows.WorkflowStatement.effect (.insertJob job) store.jobs).jobs.length
      rw [Workflows.WorkflowStatement.effect]
      split
      · exact Nat.le_refl _
      · rw [length_append]
        exact Nat.le_add_right _ _
    | insertRelation relation =>
      change Grown before { store with
        jobs := Workflows.WorkflowStatement.effect (.insertRelation relation) store.jobs }
      rw [insertRelation_rest]
      exact grown
    | _ => cases creating
  | insertBatch record =>
    change Grown before (effect (.insertBatch record) store)
    rw [effect]
    split <;> exact grown
  | tagJob tag =>
    change Grown before (effect (.tagJob tag) store)
    rw [effect]
    split <;> exact grown

theorem onWorkflow_creating {call : Workflows.WorkflowCall α}
    (issues : call.Issues fun stmt => Creating (.jobs stmt)) : (onWorkflow call).Issues Creating :=
  Issues.mapError (Issues.lift issues) _

variable {node : BatchNode}

theorem createNode_creating :
    (createNode projects.rows rootIds.rootIds request projectId batchId userId ids node).Issues Creating := by
  apply Issues.bind
  · unfold generateJobId
    split
    · apply onWorkflow_creating
      apply issues_ofExcept_bind
      intro project _
      exact issues_perform trivial
    · apply onWorkflow_creating
      apply issues_ofExcept_bind
      intro project _
      split
      · trivial
      · apply Issues.bind (issues_perform trivial)
        intro sequence
        cases sequence <;> trivial
  · intro jobId
    apply Issues.bind
    · apply onWorkflow_creating
      refine ⟨trivial, fun db => ?_⟩
      dsimp only
      split <;> trivial
    · intro _
      exact issues_perform trivial

theorem createNodes_creating {keys : List String} :
    (createNodes projects.rows rootIds.rootIds request projectId batchId userId keys ids).Issues Creating := by
  induction keys generalizing ids with
  | nil => trivial
  | cons key keys ih =>
    rw [createNodes]
    split
    · trivial
    · exact createNode_creating.bind fun jobId => ih

theorem wireDependencies_creating : (wireDependencies request ids).Issues Creating := by
  apply Issues.forEach
  intro dependency _
  apply Issues.forEach
  intro key _
  unfold wireDependency
  split
  · apply onWorkflow_creating
    apply Issues.bind (issues_perform trivial)
    intro fromJob
    apply Issues.bind (issues_perform trivial)
    intro toJob
    split
    · trivial
    · split
      · trivial
      · exact issues_perform trivial
  · trivial

variable (rootIds request userId) in
theorem createNode_interrupted (error : BatchFailure) (batchId : String) (start : BatchDb)
    (resolved : resolveProjectForJobId projects.rows projectId = .ok project) (top : node.parentKey = none)
    (number : Nat) :
    match number with
    | 0 | 1 =>
      (createNode projects.rows rootIds.rootIds request projectId batchId userId [] node).interrupted
        error number start = (.error error, start)
    | _ + 2 =>
      Grown start ((createNode projects.rows rootIds.rootIds request projectId batchId userId []
        node).interrupted error number start).2 := by
  obtain ⟨jobId, generated, fresh, apart, -, -⟩ := generateJobId_runs resolved
    (Grove.empty _) (append_nil start.jobs.jobs).symm none (by simp) (by simp)
  have vacant : start.jobs.findJob jobId = none := findJob_vacant (by simp) apart fresh
  let job := nodeJob request projectId userId node jobId none
  let row := newJob start.jobs.now job
  let created : BatchDb := { start with jobs := { start.jobs with jobs := start.jobs.jobs ++ [row] } }
  have creates : (onWorkflow (Workflows.create job)).Runs start 1 row created := runs_onWorkflow (runs_create vacant)
  have grown : Grown start created := by
    unfold Grown
    rw [length_append]
    exact Nat.lt_succ_self _
  rw [createNode, top]
  rcases number with _ | _ | later
  · exact generated.interrupted_zero error _
  · exact (generated.interrupted_succ error _ 0).trans (creates.interrupted_zero error _)
  · dsimp only
    rw [Option.bind_none, generated.interrupted_succ error, creates.interrupted_succ error]
    exact (issues_perform trivial).interrupted_keeps error creating_grown grown

theorem createJobs_interrupted (error : BatchFailure)
    (submits : Submits projects.rows request projectId before project) (some : request.nodes ≠ []) (number : Nat) :
    (number ≤ 3 → ((createJobs projects.rows rootIds.rootIds newBatchId request project correlationId
      userId).interrupted error number before).2.jobs = before.jobs) ∧
    (3 < number → Grown before ((createJobs projects.rows rootIds.rootIds newBatchId request project
      correlationId userId).interrupted error number before).2) := by
  obtain ⟨closed, acyclic⟩ := validateBatch_valid submits.valid
  have order := topologicalSort_order closed acyclic
  let record := batchRecord newBatchId request project correlationId before
  have asked := @select_runs before _ newBatchId
  have inserted : (insertBatch ⟨newBatchId before, project.id, request.idempotencyKey,
      request.nodes.length, correlationId⟩).Runs before 1 () (opened before record) :=
    insertBatch_runs submits.unsubmitted
  unfold createJobs
  rcases number with _ | _ | later
  · rw [asked.interrupted_zero error]
    exact ⟨fun _ => rfl, by omega⟩
  · rw [asked.interrupted_succ error, inserted.interrupted_zero error]
    exact ⟨fun _ => rfl, by omega⟩
  · rw [asked.interrupted_succ error, inserted.interrupted_succ error]
    cases sorted : topologicalSort request with
    | nil =>
      have empty := order.length closed
      rw [sorted] at empty
      exact absurd (length_eq_zero_iff.mp empty.symm) some
    | cons key rest =>
      rw [sorted] at order
      obtain ⟨node, _, rfl, found, parented⟩ := @order.node _ _ [] _ _ closed rfl
      have top : node.parentKey = none := by
        cases given : node.parentKey with
        | none => rfl
        | some parent => cases parented parent given
      have first := createNode_interrupted rootIds request userId error (newBatchId before) (opened before record)
        (resolve_again submits.resolved) top later
      rw [createNodes, found, bind_assoc]
      rcases later with _ | _ | later
      · rw [interrupted_bind, first]
        exact ⟨fun _ => rfl, by omega⟩
      · rw [interrupted_bind, first]
        exact ⟨fun _ => rfl, by omega⟩
      · refine ⟨by omega, fun _ => ?_⟩
        refine interrupted_bind_keeps error ?_ creating_grown first
        intro jobId
        exact createNodes_creating.bind fun ids => wireDependencies_creating.bind fun _ => trivial

theorem CreationOrder.deep_node (order : CreationOrder request sorted) (deep : ¬ ThreeLevels request) :
    ∃ node ∈ request.nodes, node.key ∈ sorted ∧ exceedsDepth request 2 node.parentKey = true := by
  unfold ThreeLevels at deep
  push Not at deep
  obtain ⟨node, member, isDeep⟩ := deep
  exact ⟨node, member, (order.same _).mpr (mem_map_of_mem member), by simpa using isDeep⟩

variable (rootIds newBatchId correlationId userId) in
theorem createJobs_deep (submits : Submits projects.rows request projectId before project)
    (deep : ¬ ThreeLevels request) : ((createJobs projects.rows rootIds.rootIds newBatchId request project correlationId
      userId).alone before).1 = .error (.failure (.error "Max hierarchy depth (3) exceeded")) := by
  obtain ⟨closed, acyclic⟩ := validateBatch_valid submits.valid
  have order := topologicalSort_order closed acyclic
  have asked := @select_runs before _ newBatchId
  have inserted : (insertBatch ⟨newBatchId before, project.id, request.idempotencyKey,
      request.nodes.length, correlationId⟩).Runs before 1 () (opened before _) :=
    insertBatch_runs submits.unsubmitted
  have failed := createNodes_deep rootIds (resolve_again submits.resolved) closed order (nil_append _).symm
    (order.deep_node deep) (PlantedKeys.start request project.id (newBatchId before) userId
      (opened before (batchRecord newBatchId request project correlationId before)))
  unfold createJobs
  rw [alone_bind, asked.ended]
  dsimp only
  rw [alone_bind, inserted.ended]
  exact alone_bind_error failed _

/-! ## A request that is answered without a creation -/

variable (projects rootIds newBatchId request projectId correlationId userId) in
/-- `createBatch`, where the statement of the number `failing` fails. -/
def submission (error : BatchFailure) (failing : Option Nat) (before : BatchDb) :
    Except BatchFailure CreateBatchResponse × BatchDb :=
  (createBatch projects.rows rootIds.rootIds newBatchId request projectId correlationId
    userId).faulted error failing before

theorem select_issues (query : BatchDb → α) : (select query).Issues (· = .jobs (.jobs .select)) :=
  ⟨rfl, fun _ => trivial⟩

theorem reconstructBatchResult_selects (batchId : String) :
    (reconstructBatchResult request batchId).Issues (· = .jobs (.jobs .select)) := by
  apply (select_issues (BatchDb.batchJobs · batchId)).bind
  intro rows
  apply (select_issues fun db => db.batches.find? (·.id == batchId)).bind
  intro batch
  trivial

theorem select_keeps (stmt : BatchStatement) (selects : stmt = .jobs (.jobs .select))
    (store : BatchDb) (same : store = before) : Statement.effect stmt store = before := by
  subst selects
  exact same

theorem insertBatch_taken {record : BatchRecord}
    (taken : (before.submitted record.projectId record.idempotencyKey).isSome = true)
    (error : BatchFailure) (failing : Option Nat) :
    ∃ failure, (insertBatch record).faulted error failing before = (.error failure, before) := by
  have effect : Statement.effect (BatchStatement.insertBatch record) before = before := if_pos taken
  match failing with
  | none =>
    rw [Call.faulted, insertBatch, alone_stmt, effect, taken]
    exact ⟨_, rfl⟩
  | some 0 => exact ⟨error, rfl⟩
  | some (number + 1) =>
    rw [Call.faulted, insertBatch, Call.interrupted, effect, taken]
    exact ⟨_, rfl⟩

theorem createBatch_eq (valid : (validateBatch request).valid = true)
    (resolved : resolveProject projects.rows projectId = .ok project) :
    createBatch projects.rows rootIds.rootIds newBatchId request projectId correlationId userId =
      findSubmission request project.id >>= fun found =>
        match found with
        | some existing => reconstructBatchResult request existing.id
        | none =>
          createJobs projects.rows rootIds.rootIds newBatchId request project correlationId userId := by
  unfold createBatch
  rw [valid, resolved]
  rfl

theorem submission_refused (error : BatchFailure) (failing : Option Nat) (valid : (validateBatch request).valid = true)
    (resolved : resolveProject projects.rows projectId = .ok project)
    (given : request.idempotencyKey = some key) (empty : key.isEmpty = true)
    (taken : (before.submitted project.id request.idempotencyKey).isSome = true) :
    ∃ failure, submission projects rootIds newBatchId request projectId correlationId userId error
      failing before = (.error failure, before) := by
  have none : findSubmission request project.id = .ret none := by
    rw [findSubmission, given]
    exact if_pos empty
  unfold submission
  rw [createBatch_eq valid resolved, none, ret_bind]
  dsimp only
  unfold createJobs
  rw [(select_runs newBatchId).faulted_one error failing]
  split
  · exact ⟨error, rfl⟩
  · obtain ⟨failure, refused⟩ := @insertBatch_taken _
      (batchRecord newBatchId request project correlationId before) taken error (failing.map (· - 1))
    exact ⟨failure, faulted_bind_error refused _⟩

theorem submission_replayed (error : BatchFailure) (failing : Option Nat) (valid : (validateBatch request).valid = true)
    (resolved : resolveProject projects.rows projectId = .ok project)
    (given : request.idempotencyKey = some key) (named : key.isEmpty = false) {existing : BatchRecord}
    (found : before.submitted project.id request.idempotencyKey = some existing) :
    submission projects rootIds newBatchId request projectId correlationId userId error failing before =
      if failing = some 0 then (.error error, before)
      else (reconstructBatchResult request existing.id).faulted error (failing.map (· - 1)) before := by
  have asks : findSubmission request project.id = select (·.submitted project.id (some key)) := by
    rw [findSubmission, given]
    exact if_neg (by simp [named])
  have runs := @select_runs before _ (·.submitted project.id (some key))
  rw [given] at found
  rw [found] at runs
  unfold submission
  rw [createBatch_eq valid resolved, asks, runs.faulted_one error failing]

variable (rootIds newBatchId correlationId userId) in
theorem submission_unchanged (error : BatchFailure) (failing : Option Nat)
    (old : ¬ ∃ project, Submits projects.rows request projectId before project) :
    (submission projects rootIds newBatchId request projectId correlationId userId error failing
      before).2 = before := by
  cases valid : (validateBatch request).valid with
  | false =>
    unfold submission createBatch
    rw [valid]
    cases failing <;> rfl
  | true =>
    cases resolved : resolveProject projects.rows projectId with
    | error failure =>
      unfold submission createBatch
      rw [valid, resolved]
      cases failing <;> rfl
    | ok project =>
      have taken : before.submitted project.id request.idempotencyKey ≠ none := by
        intro unsubmitted
        exact old ⟨project, valid, resolved, unsubmitted⟩
      cases given : request.idempotencyKey with
      | none =>
        rw [given] at taken
        exact absurd (find?_eq_none.mpr (by simp [sameSubmission])) taken
      | some key =>
        cases empty : key.isEmpty with
        | true =>
          obtain ⟨failure, refused⟩ := submission_refused error failing valid resolved given
            empty (Option.isSome_iff_ne_none.mpr taken)
          rw [refused]
        | false =>
          obtain ⟨existing, found⟩ := Option.ne_none_iff_exists'.mp taken
          rw [submission_replayed error failing valid resolved given empty found]
          split
          · rfl
          · exact (reconstructBatchResult_selects existing.id).faulted_keeps error _ select_keeps rfl

theorem not_created_unchanged {response : CreateBatchResponse} (some : request.nodes ≠ []) (same : after = before) :
    ¬ Created request before.jobs after.jobs response := by
  intro created
  obtain ⟨rows, jobs, listed⟩ := created.rows
  rw [same, self_eq_append_right] at jobs
  have none := listed.length_eq
  have keys := congrArg List.length created.keys
  rw [jobs, map_nil, length_nil, length_map] at none
  rw [CreateBatchRequest.keys, length_map, length_map, ← none] at keys
  exact some (length_eq_zero_iff.mp keys.symm)

theorem submission_new (error : BatchFailure) (failing : Option Nat)
    (submits : Submits projects.rows request projectId before project) :
    submission projects rootIds newBatchId request projectId correlationId userId error failing before =
      match failing with
      | none => (createJobs projects.rows rootIds.rootIds newBatchId request project correlationId userId).alone before
      | some number =>
        if number < submissionLookups request then (.error error, before)
        else (createJobs projects.rows rootIds.rootIds newBatchId request project correlationId
          userId).interrupted error (number - submissionLookups request) before := by
  unfold submission
  rw [createBatch_eq submits.valid submits.resolved, findSubmission, submissionLookups]
  have unsubmitted := submits.unsubmitted
  cases given : request.idempotencyKey with
  | none => cases failing <;> rfl
  | some key =>
    rw [given] at unsubmitted
    dsimp only
    split
    · cases failing <;> rfl
    · have runs := @select_runs before _ (·.submitted project.id (some key))
      rw [unsubmitted] at runs
      rw [runs.faulted_one error failing]
      match failing with
      | none => rfl
      | some 0 => rfl
      | some (number + 1) => rfl

variable (rootIds newBatchId correlationId userId) in
theorem createJobs_throws_iff (error : BatchFailure)
    (submits : Submits projects.rows request projectId before project) (number : Nat) :
    (∃ failure, ((createJobs projects.rows rootIds.rootIds newBatchId request project correlationId
      userId).interrupted error number before).1 = .error failure) ↔ ¬ (ThreeLevels request ∧
        1 + (1 + (3 * request.nodes.length + 3 * (dependencyPairs request.dependencies).length)) ≤ number) := by
  by_cases levels : ThreeLevels request
  · obtain ⟨ids, after, runs, -⟩ := createJobs_runs submits levels
    constructor
    · rintro ⟨failure, thrown⟩ ⟨_, ended⟩
      rw [runs.interrupted_of_le error ended] at thrown
      cases thrown
    · intro short
      rw [not_and, Nat.not_le, ← runs.counted] at short
      exact ⟨error, interrupted_of_lt error (short levels)⟩
  · have thrown := createJobs_deep rootIds newBatchId correlationId userId submits levels
    constructor
    · rintro _ ⟨shallow, _⟩
      exact levels shallow
    · intro _
      by_cases short : number < (createJobs projects.rows rootIds.rootIds newBatchId request project
          correlationId userId).statements before
      · exact ⟨error, interrupted_of_lt error short⟩
      · rw [interrupted_of_le error (Nat.not_lt.mp short), thrown]
        exact ⟨_, rfl⟩

variable (rootIds newBatchId correlationId userId) in
theorem createJobs_unwound_iff (error : BatchFailure)
    (submits : Submits projects.rows request projectId before project) (some : request.nodes ≠ []) (number : Nat) :
    (∀ failure, ((createJobs projects.rows rootIds.rootIds newBatchId request project correlationId
      userId).interrupted error number before).1 = .error failure →
        ((createJobs projects.rows rootIds.rootIds newBatchId request project correlationId
          userId).interrupted error number before).2.jobs.jobs = before.jobs.jobs) ↔ number ≤ 3 ∨ (ThreeLevels request ∧
        1 + (1 + (3 * request.nodes.length + 3 * (dependencyPairs request.dependencies).length)) ≤ number) := by
  have throws := createJobs_throws_iff rootIds newBatchId correlationId userId error submits number
  obtain ⟨early, late⟩ := createJobs_interrupted error submits some number
  constructor
  · intro unwound
    by_contra neither
    rw [not_or, Nat.not_le] at neither
    obtain ⟨failure, thrown⟩ := throws.mpr neither.2
    have grown := late neither.1
    rw [Grown, unwound failure thrown] at grown
    exact Nat.lt_irrefl _ grown
  · rintro (isEarly | ended) failure thrown
    · rw [early isEarly]
    · exact absurd ended (throws.mp ⟨failure, thrown⟩)

/-- Valid batches create their jobs, and failed ones leave none, exactly under `CreatesWhen`. -/
theorem batch_acceptance_iff (projects : ProjectTable) (rootIds : TreeIds)
    (newBatchId : BatchDb → String) (request : BatchRequest) (projectId : String)
    (correlationId userId : Option String) (error : BatchFailure) (failing : Option Nat) (before : BatchDb) :
    AcceptanceCreates request.val before failing
        (submission projects rootIds newBatchId request.val projectId correlationId userId error failing before) ↔
      CreatesWhen projects.rows request.val projectId before failing := by
  obtain ⟨request, conforming⟩ := request
  simp only
  by_cases new : ∃ project, Submits projects.rows request projectId before project
  · obtain ⟨project, submits⟩ := new
    rw [submission_new error failing submits]
    cases failing with
    | none =>
      constructor
      · intro accepts valid
        refine ⟨⟨project, submits⟩, ?_⟩
        by_contra deep
        obtain ⟨response, ended, -⟩ := accepts.accepted rfl valid
        cases (createJobs_deep _ _ _ _ submits deep).symm.trans ended
      · intro creates
        obtain ⟨ids, after, runs, filled⟩ := @createJobs_runs _ rootIds newBatchId _
          _ correlationId userId _ _ submits (creates submits.valid).2
        have created := filled.created (validateBatch_valid submits.valid).1
        simp only [runs.ended]
        constructor
        · intro _ _
          exact ⟨_, rfl, created⟩
        · intro failure thrown
          cases thrown
    | some number =>
      have unwound := createJobs_unwound_iff rootIds newBatchId correlationId userId error submits conforming.nodes
        (number - submissionLookups request)
      simp only
      split
      · next short =>
          constructor
          · intro _ _
            exact .inl (short.le.trans (Nat.le_add_right _ _))
          · intro _
            exact ⟨nofun, fun _ _ => rfl⟩
      · next long =>
          have first : number - submissionLookups request ≤ 3 ↔ number ≤ firstInsert request := by
            unfold firstInsert
            omega
          have last : 1 + (1 + (3 * request.nodes.length + 3 * (dependencyPairs request.dependencies).length)) ≤
                number - submissionLookups request ↔ creationStatements request ≤ number := by
            unfold creationStatements
            omega
          rw [first, last] at unwound
          constructor
          · intro accepts _
            exact unwound.mp accepts.unwound
          · intro creates
            exact ⟨nofun, unwound.mpr (creates ⟨project, submits⟩)⟩
  · have same := submission_unchanged rootIds newBatchId correlationId userId error failing new
    cases failing with
    | none =>
      constructor
      · intro accepts valid
        obtain ⟨response, ended, created⟩ := accepts.accepted rfl valid
        exact absurd created (not_created_unchanged conforming.nodes same)
      · intro creates
        constructor
        · intro _ valid
          exact absurd (creates valid).1 new
        · intro failure _
          rw [same]
    | some number =>
      constructor
      · intro _ submits
        exact absurd submits new
      · intro _
        constructor
        · intro impossible
          cases impossible
        · intro failure _
          rw [same]

end

theorem length_rootPart_le (id : JobId) : (rootPart id).length ≤ id.length := by
  rw [rootPart, ← String.length_toList]
  exact (takeWhile_sublist _).length_le

theorem longId_dotless (db : JobsDb) : '.' ∉ (Workflows.longId db).toList := by
  simp [Workflows.longId, mem_replicate]

theorem longId_apart (db : JobsDb) : Apart db.jobs (Workflows.longId db).toList := by
  intro row member
  obtain ⟨shorter, shorterParent⟩ := Workflows.length_lt_longId member
  rw [← String.length_toList (s := Workflows.longId db)] at shorter shorterParent
  constructor
  · intro same
    have bound := length_rootPart_le row.id
    rw [same] at bound
    omega
  · intro parentId filed same
    have bound := length_rootPart_le parentId
    rw [Option.mem_def.mp filed, Option.getD_some] at shorterParent
    rw [same] at bound
    omega

def longTreeIds : TreeIds where
  draw _ db := Workflows.longId db
  dotless _ := longId_dotless
  apart _ := longId_apart

def shop : ProjectTable where
  rows := [{ id := "proj_1", slug := "shop", orgId := "org_1" }]
  distinct := by decide
  prefixed := by decide +kernel

def fourLevels : BatchRequest where
  val :=
    { nodes := [{ key := "a", title := "A" }, { key := "b", title := "B", parent := some "a" },
        { key := "c", title := "C", parent := some "b" },
        { key := "d", title := "D", parent := some "c" }] }
  property := by
    constructor
    · decide
    · decide

/-- The request is valid, and its creation throws. -/
theorem four_levels_throw : ¬ AcceptanceCreates fourLevels.val {} none
      (submission shop longTreeIds (fun _ => "batch_1") fourLevels.val "proj_1" none none
        (.failure (.error "connection lost")) none {}) := by
  have valid : (validateBatch fourLevels.val).valid = true := by decide +kernel
  have thrown : (submission shop longTreeIds (fun _ => "batch_1") fourLevels.val "proj_1" none none
      (.failure (.error "connection lost")) none {}).1 =
        .error (.failure (.error "Max hierarchy depth (3) exceeded")) := by
    decide +kernel
  intro creates
  obtain ⟨response, ended, -⟩ := creates.accepted rfl valid
  cases thrown.symm.trans ended

end EveHorizon.Batches
