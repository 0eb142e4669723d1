import EveHorizon.Batches.Acceptance
import EveHorizon.Batches.Recorded

/-!
# Interrupted batches

What a batch leaves behind when its creation stops midway: some of its keys have no job, or
some of its dependencies have no relation.
-/

namespace EveHorizon.Batches

open Interleaving Call
open Jobs (JobId Job JobRelation JobsDb)
open Workflows (Project WorkflowStatement resolveProjectForJobId)

structure BatchIds where
  draw : BatchDb → String
  unrecorded : ∀ db, ∀ batch ∈ db.batches, batch.id ≠ draw db
  untagged : ∀ db, ∀ tag ∈ db.tags, tag.batchId ≠ draw db

section

variable {projects : ProjectTable} {rootIds : TreeIds} {request : CreateBatchRequest}
  {projectId batchId : String} {userId : Option String} {before : BatchDb} {project : Project}

def SameBatches (start store : BatchDb) : Prop := store.batches = start.batches ∧ store.tags = start.tags

def OnJobs : BatchStatement → Prop
  | .jobs _ => True
  | _ => False

variable {start : BatchDb}

theorem onJobs_sameBatches (stmt : BatchStatement) (onJobs : OnJobs stmt) (store : BatchDb)
    (same : SameBatches start store) : SameBatches start (Statement.effect stmt store) := by
  cases stmt with
  | jobs stmt => exact same
  | insertBatch batch | tagJob tag => cases onJobs

theorem onWorkflow_issues {α : Type} (call : Workflows.WorkflowCall α) : (onWorkflow call).Issues OnJobs := by
  apply Issues.mapError
  apply Issues.lift
  exact call.issues_true

theorem generateJobId_issues (parentJobId : Option JobId) :
    (generateJobId projects.rows rootIds.rootIds projectId parentJobId).Issues OnJobs := by
  cases parentJobId with
  | none | some parent => exact onWorkflow_issues _

variable {error : BatchFailure}

theorem createNode_throws {start : BatchDb} {ids : KeyToJobId} {node : BatchNode} :
    (createNode projects.rows rootIds.rootIds request projectId batchId userId ids node).ThrowsWithin
      error (SameBatches start) := by
  refine (generateJobId_issues _).throwsWithin_bind onJobs_sameBatches fun jobId => ?_
  refine (onWorkflow_issues _).throwsWithin_bind onJobs_sameBatches fun row => ?_
  exact Call.ThrowsWithin.perform _ _ _ _

inductive NodesEnd (request : CreateBatchRequest) (projectId batchId : String)
    (userId : Option String) (before : BatchDb) (sorted : List String) :
    Except BatchFailure KeyToJobId × BatchDb → Prop where
  | created {ids : KeyToJobId} {reached : BatchDb}
      (planted : PlantedKeys request projectId batchId userId before sorted ids reached) :
      NodesEnd request projectId batchId userId before sorted (.ok ids, reached)
  | missing {failure : BatchFailure} {reached : BatchDb} (batches : reached.batches = before.batches)
      {key : String} (member : key ∈ sorted)
      (untagged : ∀ tag ∈ reached.tags, tag.batchId = batchId → tag.batchKey ≠ key) :
      NodesEnd request projectId batchId userId before sorted (.error failure, reached)

variable {ids : KeyToJobId}

theorem Planted.tagged {rows : List Job} {reached : BatchDb}
    (planted : Planted request projectId batchId userId before ids rows reached)
    (fresh : ∀ tag ∈ before.tags, tag.batchId ≠ batchId) {tag : BatchTag} (isOwn : tag.batchId = batchId) :
    tag ∈ reached.tags ↔ ∃ entry ∈ ids, tag = ⟨entry.2, batchId, entry.1⟩ := by
  rw [planted.tags, retagged, List.mem_append, List.mem_map]
  constructor
  · rintro (old | ⟨entry, member, rfl⟩)
    · exact absurd isOwn (fresh tag (List.mem_of_mem_filter old))
    · exact ⟨entry, member, rfl⟩
  · rintro ⟨entry, member, rfl⟩
    exact .inr ⟨entry, member, rfl⟩

variable (rootIds) in
theorem createNodes_ends (error : BatchFailure)
    (resolved : resolveProjectForJobId projects.rows projectId = .ok project)
    (closed : Closed request) {sorted : List String} (order : CreationOrder request sorted)
    (fresh : ∀ tag ∈ before.tags, tag.batchId ≠ batchId) {rest done : List String}
    (split : sorted = done ++ rest) {ids : KeyToJobId} {reached : BatchDb} (failing : Option Nat)
    (planted : PlantedKeys request projectId batchId userId before done ids reached) :
    NodesEnd request projectId batchId userId before sorted
      ((createNodes projects.rows rootIds.rootIds request projectId batchId userId rest ids).faulted
        error failing reached) := by
  induction rest generalizing done ids reached failing with
  | nil =>
    rw [List.append_nil] at split
    have ended : (createNodes projects.rows rootIds.rootIds request projectId batchId userId []
        ids).faulted error failing reached = (.ok ids, reached) := by
      cases failing <;> rfl
    rw [ended]
    exact .created (split ▸ planted)
  | cons key rest ih =>
    obtain ⟨keys, rows, planted⟩ := planted
    obtain ⟨node, member, rfl, found, parented⟩ := order.node closed split
    rw [createNodes, found]
    dsimp only
    rw [faulted_bind]
    rcases ended : (createNode projects.rows rootIds.rootIds request projectId batchId userId ids
      node).faulted error failing reached with ⟨result, middle⟩
    cases result with
    | error failure =>
      obtain ⟨batches, tags⟩ := createNode_throws failing reached ⟨rfl, rfl⟩ failure middle ended
      refine .missing (batches.trans planted.batches) (by simp [split] : node.key ∈ sorted) ?_
      intro tag listed isOwn same
      rw [tags] at listed
      obtain ⟨entry, isEntry, rfl⟩ := (planted.tagged fresh isOwn).mp listed
      have distinct := order.distinct
      rw [split] at distinct
      have early : node.key ∈ done := by
        rw [← keys, ← same]
        exact List.mem_map_of_mem isEntry
      exact List.disjoint_of_nodup_append distinct early List.mem_cons_self
    | ok jobId =>
      have alone := alone_of_faulted ended
      cases level : exceedsDepth request 2 node.parentKey with
      | true =>
        cases (createNode_deep resolved planted (keys ▸ parented) level).symm.trans alone
      | false =>
        obtain ⟨made, row, reached, ran, grown⟩ := createNode_runs resolved planted found (keys ▸ parented) level
        cases ran.ended.symm.trans alone
        exact @ih (done ++ [node.key]) (by simp [split]) (ids ++ [(node.key, jobId)]) middle _
          ⟨by simp [keys], rows ++ [row], grown⟩

variable {number : Nat}

theorem wireDependency_halts {fromKey toKey : String} {fromId toId : JobId}
    (fromKnown : KeyToJobId.get ids fromKey = some fromId) (toKnown : KeyToJobId.get ids toKey = some toId)
    (fromFiled : (start.jobs.findJob fromId).isSome) (toFiled : (start.jobs.findJob toId).isSome)
    (within : number < 3) :
    (wireDependency ids fromKey toKey).interrupted error number start = (.error error, start) := by
  rw [wireDependency, fromKnown, toKnown]
  unfold onWorkflow Workflows.addDependency
  rcases number with _ | _ | _ | later
  · rfl
  · rfl
  · change (Call.mapError BatchFailure.failure (Call.lift BatchStatement.jobs BatchDb.jobs
      (if (start.jobs.findJob fromId).isNone then _
      else if (start.jobs.findJob toId).isNone then _ else _))).interrupted error 0 start = _
    rw [Option.isNone_eq_false_iff.mpr fromFiled, Option.isNone_eq_false_iff.mpr toFiled]
    rfl
  · omega

theorem wireDependencies_interrupted (error : BatchFailure) (closed : Closed request) (known : Known request ids start)
    (within : number < 3 * (dependencyPairs request.dependencies).length) :
    ∃ final, (wireDependencies request ids).interrupted error number start = (.error error, final) ∧
      Wired ids start ((dependencyPairs request.dependencies).take (number / 3)) final := by
  have wired : Wired ids start [] start := ⟨rfl, by simp⟩
  rw [wireDependencies_eq]
  apply interrupted_forEach (by decide) wired ?_ within
  intro earlier pair later split reached wired
  obtain ⟨isJob, isDependency⟩ := closed.pairs pair (by simp [split])
  constructor
  · exact wireDependency_runs known wired isJob isDependency
  · intro number halts
    obtain ⟨fromId, fromKnown, fromFiled⟩ := known pair.1 isJob
    obtain ⟨toId, toKnown, toFiled⟩ := known pair.2 isDependency
    have same : reached.jobs.jobs = start.jobs.jobs := by rw [wired.rest]
    apply wireDependency_halts fromKnown toKnown ?_ ?_ halts
    · rw [JobsDb.findJob, same]
      exact fromFiled
    · rw [JobsDb.findJob, same]
      exact toFiled

end

section

variable (newBatchId : BatchDb → String) (request : CreateBatchRequest) (project : Project)
  (correlationId userId : Option String) (before : BatchDb) (error : BatchFailure)

def nodeStatements : Nat := 1 + (1 + 3 * request.nodes.length)

/-- How the creation ends: before the record, before the last job, before the last relation,
or as a whole. -/
inductive CreationEnd : Option Nat → Except BatchFailure CreateBatchResponse × BatchDb → Prop where
  | unrecorded {number : Nat} (early : number ≤ 1) : CreationEnd (some number) (.error error, before)
  | missing {failing : Option Nat} {failure : BatchFailure} {reached : BatchDb}
      (recorded : ∀ number, failing = some number → 2 ≤ number)
      (short : ¬ (ThreeLevels request ∧ ∀ number, failing = some number → nodeStatements request ≤ number))
      (batches : reached.batches = before.batches ++ [batchRecord newBatchId request project correlationId before])
      {key : String} (member : key ∈ request.keys)
      (untagged : ∀ tag ∈ reached.tags, tag.batchId = newBatchId before → tag.batchKey ≠ key) :
      CreationEnd failing (.error failure, reached)
  | unrelated {number : Nat} {ids : KeyToJobId} {sorted : List String} {planted reached : BatchDb}
      (levels : ThreeLevels request) (late : nodeStatements request ≤ number)
      (short : number - nodeStatements request < 3 * (dependencyPairs request.dependencies).length)
      (order : CreationOrder request sorted)
      (filled : PlantedKeys request project.id (newBatchId before) userId
        (opened before (batchRecord newBatchId request project correlationId before)) sorted ids planted)
      (wired : Wired ids planted ((dependencyPairs request.dependencies).take
        ((number - nodeStatements request) / 3)) reached) :
      CreationEnd (some number) (.error error, reached)
  | filled {failing : Option Nat} {ids : KeyToJobId} {after : BatchDb} (levels : ThreeLevels request)
      (ended : ∀ number, failing = some number →
        nodeStatements request + 3 * (dependencyPairs request.dependencies).length ≤ number)
      (filled : Filled newBatchId request project correlationId userId before ids after) :
      CreationEnd failing (.ok (batchResponse request (newBatchId before) ids), after)

variable {newBatchId request project correlationId userId before error} {projects : ProjectTable}
  {rootIds : TreeIds} {projectId : String}

variable (correlationId userId error rootIds) in
theorem createRest_ends (submits : Submits projects.rows request projectId before project)
    (fresh : ∀ tag ∈ before.tags, tag.batchId ≠ newBatchId before) {sorted : List String}
    (order : CreationOrder request sorted) (later : Option Nat) :
    CreationEnd newBatchId request project correlationId userId before error ((later.map (· + 1)).map (· + 1))
      ((createNodes projects.rows rootIds.rootIds request project.id (newBatchId before) userId sorted []
        >>= fun ids => wireDependencies request ids >>= fun _ =>
          pure (batchResponse request (newBatchId before) ids)).faulted error later
        (opened before (batchRecord newBatchId request project correlationId before))) := by
  have closed := (validateBatch_valid submits.valid).1
  have resolved := resolve_again submits.resolved
  have length := order.length closed
  let start := opened before (batchRecord newBatchId request project correlationId before)
  have planted := PlantedKeys.start request project.id (newBatchId before) userId start
  have runs := fun levels => createNodes_runs rootIds resolved closed order levels rfl planted
  have ends := createNodes_ends rootIds error resolved closed order (by exact fresh) rfl later planted
  rw [faulted_bind]
  rcases created : (createNodes projects.rows rootIds.rootIds request project.id (newBatchId before)
    userId sorted []).faulted error later start with ⟨result, reached⟩
  rw [created] at ends
  cases ends with
  | missing batches member untagged =>
    refine .missing ?_ ?_ batches ((order.same _).mp member) untagged
    · intro number isLate
      cases later with
      | none => cases isLate
      | some later =>
        cases isLate
        exact Nat.le_add_left 2 later
    · rintro ⟨levels, late⟩
      obtain ⟨ids, final, ran, -⟩ := runs levels
      have beyond : ∀ number, later = some number → 3 * sorted.length ≤ number := by
        rintro number rfl
        have all := late (number + 1 + 1) rfl
        rw [length]
        unfold nodeStatements at all
        omega
      cases created.symm.trans (ran.faulted_of_le error beyond)
  | created filled =>
    rename_i ids
    have levels : ThreeLevels request := by
      by_contra deep
      have thrown := createNodes_deep rootIds resolved closed order rfl (order.deep_node deep) planted
      rw [alone_of_faulted created] at thrown
      cases thrown
    obtain ⟨made, final, ran, -⟩ := runs levels
    cases ran.ended.symm.trans (alone_of_faulted created)
    have past := ran.beyond_of_faulted created
    have known := filled.known order
    obtain ⟨after, wired, related⟩ := wireDependencies_runs closed known
    rw [ran.counted, length]
    rw [length] at past
    dsimp only
    rw [faulted_bind]
    by_cases ended : ∀ number, later.map (· - 3 * request.nodes.length) = some number →
        3 * (dependencyPairs request.dependencies).length ≤ number
    · have returned : ∀ failing, (pure (batchResponse request (newBatchId before) ids) :
          BatchCall CreateBatchResponse).faulted error failing after =
            (.ok (batchResponse request (newBatchId before) ids), after) := by
        intro failing
        cases failing <;> rfl
      rw [wired.faulted_of_le error ended]
      dsimp only
      rw [returned]
      refine .filled levels ?_ ⟨sorted, reached, order, filled, related⟩
      intro number isNumber
      cases later with
      | none => cases isNumber
      | some later =>
        cases isNumber
        have nodes := past later rfl
        have pairs := ended (later - 3 * request.nodes.length) rfl
        change nodeStatements request + _ ≤ later + 2
        unfold nodeStatements
        omega
    · push Not at ended
      obtain ⟨number, isNumber, short⟩ := ended
      cases later with
      | none => cases isNumber
      | some later =>
        cases isNumber
        have nodes := past later rfl
        obtain ⟨final, halted, related⟩ := wireDependencies_interrupted error closed known short
        have halted : (wireDependencies request ids).faulted error
            ((some later).map (· - 3 * request.nodes.length)) reached = (.error error, final) :=
          halted
        rw [halted]
        have same : later + 1 + 1 - nodeStatements request = later - 3 * request.nodes.length := by
          unfold nodeStatements
          omega
        refine .unrelated levels ?_ (same ▸ short) order filled (same ▸ related)
        change nodeStatements request ≤ later + 2
        unfold nodeStatements
        omega

theorem createJobs_ends (submits : Submits projects.rows request projectId before project)
    (fresh : ∀ tag ∈ before.tags, tag.batchId ≠ newBatchId before) (failing : Option Nat) :
    CreationEnd newBatchId request project correlationId userId before error failing
      ((createJobs projects.rows rootIds.rootIds newBatchId request project correlationId
        userId).faulted error failing before) := by
  obtain ⟨closed, acyclic⟩ := validateBatch_valid submits.valid
  have order := topologicalSort_order closed acyclic
  have asked := @select_runs before _ newBatchId
  have inserted : (insertBatch ⟨newBatchId before, project.id, request.idempotencyKey,
      request.nodes.length, correlationId⟩).Runs before 1 () (opened before
        (batchRecord newBatchId request project correlationId before)) :=
    insertBatch_runs submits.unsubmitted
  have rest := createRest_ends correlationId userId error rootIds submits fresh order
  unfold createJobs
  match failing with
  | none =>
    change CreationEnd _ _ _ _ _ _ _ _ (Call.faulted error (((none : Option Nat).map (· + 1)).map (· + 1)) _ before)
    rw [asked.faulted_succ error, inserted.faulted_succ error]
    exact rest none
  | some 0 =>
    rw [asked.faulted_one error, if_pos rfl]
    exact .unrecorded (by decide)
  | some 1 =>
    change CreationEnd _ _ _ _ _ _ _ _ (Call.faulted error ((some 0).map (· + 1)) _ before)
    rw [asked.faulted_succ error, inserted.faulted_one error, if_pos rfl]
    exact .unrecorded (by decide)
  | some (later + 2) =>
    change CreationEnd _ _ _ _ _ _ _ _ (Call.faulted error (((some later).map (· + 1)).map (· + 1)) _ before)
    rw [asked.faulted_succ error, inserted.faulted_succ error]
    exact rest (some later)

end

end EveHorizon.Batches
