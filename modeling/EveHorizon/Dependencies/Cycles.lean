import EveHorizon.Dependencies.Operations
import EveHorizon.Library.Visits

/-!
# Cycles of jobs that wait for each other

Batches, workflows and their retries never close a cycle.
-/

namespace EveHorizon.Dependencies

open Interleaving
open Jobs (JobId Job JobRelation JobsDb JobStatement RelationType)
open Precedence (Acyclic)
open Workflows (WorkflowStatement)

variable (counts : RelationType → Bool)

/-- A deadlock: each of some jobs waits for another of them. -/
def WaitOnOneAnother (db : JobsDb) (waiting : JobId → Prop) : Prop :=
  (∃ id, waiting id) ∧ ∀ id, waiting id → ∃ other, waiting other ∧ Waits counts db id other

theorem acyclic_iff_none {counts : RelationType → Bool} {db : JobsDb} :
    Acyclic (Waits counts db) ↔ ∀ waiting, ¬ WaitOnOneAnother counts db waiting := by
  constructor
  · intro acyclic waiting ⟨isSome, wait⟩
    have listed : ∀ id, waiting id → id ∈ db.relations.map (·.jobId) := by
      intro id isWaiting
      obtain ⟨other, _, relation, member, source, _⟩ := wait id isWaiting
      exact List.mem_map.mpr ⟨relation, member, source⟩
    obtain ⟨last, isWaiting, alone⟩ := acyclic.exists_last listed isSome
    obtain ⟨other, otherWaiting, waits⟩ := wait last isWaiting
    exact alone other waits otherWaiting
  · intro none id cycle
    refine none (fun other => Relation.TransGen (Waits counts db) other id) ⟨⟨id, cycle⟩, ?_⟩
    intro other path
    obtain ⟨following, waits, onward⟩ := Relation.TransGen.head'_iff.mp path
    refine ⟨following, ?_, waits⟩
    cases Relation.ReflTransGen.cases_head onward with
    | inl same => exact same ▸ cycle
    | inr further =>
      obtain ⟨_, waitsOn, rest⟩ := further
      exact Relation.TransGen.head' waitsOn rest

/-- A request relates two jobs of which the second already waits for the first, or the steps of an
expansion are declared in a circle. -/
def Operation.ClosesCycle (db : ApiDb) : Operation → Prop
  | .addDependency jobId data =>
    (db.jobs.findJob jobId).isSome = true ∧ (db.jobs.findJob data.relatedJobId).isSome = true ∧
      ∃ relation, relationRow jobId data.relatedJobId data.type = .ok relation ∧ counts relation.relationType = true ∧
        Relation.ReflTransGen (Waits counts db.jobs) data.relatedJobId jobId
  | .expandPipeline catalog projectId request userId ids => counts .blocks = true ∧
      ExpandsInCircle catalog projectId request userId ids db.pipelines
  | _ => False

section

variable {counts : RelationType → Bool} {db : ApiDb} {relation : JobRelation}

theorem relationRow_ok {fromId toId : JobId} {relationType : String}
    (isRow : relationRow fromId toId relationType = .ok relation) :
    relation.jobId = fromId ∧ relation.relatedJobId = toId := by
  unfold relationRow at isRow
  split at isRow
  · cases isRow
  · split at isRow
    · cases isRow
    · split at isRow
      · cases isRow
      · cases isRow
        exact ⟨rfl, rfl⟩

theorem addDependency_after (jobId : JobId) (data : AddDependencyRequest) (db : JobsDb) :
    ((addDependency jobId data).alone db).2 = db ∧
        ¬ ((db.findJob jobId).isSome = true ∧ (db.findJob data.relatedJobId).isSome = true ∧
          ∃ relation, relationRow jobId data.relatedJobId data.type = .ok relation) ∨
      ∃ relation, relationRow jobId data.relatedJobId data.type = .ok relation ∧
        (db.findJob jobId).isSome = true ∧ (db.findJob data.relatedJobId).isSome = true ∧
        ((addDependency jobId data).alone db).2 = WorkflowStatement.effect (.insertRelation relation) db := by
  unfold addDependency
  rw [Workflows.alone_select_bind, Workflows.alone_select_bind]
  cases db.findJob jobId with
  | none => exact Or.inl ⟨rfl, by simp⟩
  | some job =>
    cases db.findJob data.relatedJobId with
    | none => exact Or.inl ⟨rfl, by simp⟩
    | some related =>
      cases relationRow jobId data.relatedJobId data.type with
      | error failure => exact Or.inl ⟨rfl, by simp⟩
      | ok relation => exact Or.inr ⟨relation, rfl, rfl, rfl, rfl⟩

theorem waits_insertRelation {db : JobsDb} (counted : counts relation.relationType = true) :
    Waits counts (WorkflowStatement.effect (.insertRelation relation) db) =
      fun jobId relatedJobId => Waits counts db jobId relatedJobId ∨
        (jobId = relation.jobId ∧ relatedJobId = relation.relatedJobId) := by
  funext jobId relatedJobId
  apply propext
  constructor
  · intro ⟨row, member, leads⟩
    cases Batches.mem_insertRelation.mp member with
    | inl old => exact Or.inl ⟨row, old, leads⟩
    | inr same =>
      subst same
      exact Or.inr ⟨leads.1.symm, leads.2.1.symm⟩
  · intro either
    cases either with
    | inl old =>
      obtain ⟨row, member, leads⟩ := old
      exact ⟨row, Batches.mem_insertRelation.mpr (Or.inl member), leads⟩
    | inr new =>
      have member : relation ∈ (WorkflowStatement.effect (.insertRelation relation) db).relations :=
        Batches.mem_insertRelation.mpr (Or.inr rfl)
      exact ⟨relation, member, new.1.symm, new.2.symm, counted⟩

theorem waits_insertRelation_other {db : JobsDb} (uncounted : counts relation.relationType = false) :
    Waits counts (WorkflowStatement.effect (.insertRelation relation) db) = Waits counts db := by
  funext jobId relatedJobId
  apply propext
  constructor
  · intro ⟨row, member, leads⟩
    cases Batches.mem_insertRelation.mp member with
    | inl old => exact ⟨row, old, leads⟩
    | inr same =>
      subst same
      rw [leads.2.2] at uncounted
      cases uncounted
  · intro ⟨row, member, leads⟩
    exact ⟨row, Batches.mem_insertRelation.mpr (Or.inl member), leads⟩

variable {data : AddDependencyRequest} {jobId : JobId}

theorem addDependency_acyclic_iff (acyclic : Acyclic (Waits counts db.jobs)) :
    Acyclic (Waits counts (next db (.addDependency jobId data)).jobs) ↔
      ¬ (Operation.addDependency jobId data).ClosesCycle counts db := by
  change Acyclic (Waits counts ((addDependency jobId data).alone db.jobs).2) ↔ _
  unfold Operation.ClosesCycle
  cases addDependency_after jobId data db.jobs with
  | inl refused =>
    rw [refused.1]
    refine iff_of_true acyclic fun closes => refused.2 ⟨closes.1, closes.2.1, ?_⟩
    obtain ⟨relation, isRow, _⟩ := closes.2.2
    exact ⟨relation, isRow⟩
  | inr related =>
    obtain ⟨relation, isRow, found, relatedFound, after⟩ := related
    rw [after]
    cases counted : counts relation.relationType with
    | false =>
      rw [waits_insertRelation_other counted]
      refine iff_of_true acyclic fun closes => ?_
      obtain ⟨_, _, other, isOther, otherCounted, _⟩ := closes
      rw [isRow] at isOther
      cases isOther
      rw [counted] at otherCounted
      cases otherCounted
    | true =>
      obtain ⟨source, target⟩ := relationRow_ok isRow
      rw [waits_insertRelation counted, Precedence.acyclic_insert_iff, source, target, and_iff_right acyclic]
      refine not_congr ⟨fun back => ?_, fun closes => closes.2.2.choose_spec.2.2⟩
      exact ⟨found, relatedFound, relation, isRow, counted, back⟩

theorem addDependency_referenced (referenced : Referenced db.jobs) :
    Referenced (next db (.addDependency jobId data)).jobs := by
  change Referenced ((addDependency jobId data).alone db.jobs).2
  cases addDependency_after jobId data db.jobs with
  | inl refused =>
    rw [refused.1]
    exact referenced
  | inr related =>
    obtain ⟨relation, isRow, found, relatedFound, after⟩ := related
    obtain ⟨source, target⟩ := relationRow_ok isRow
    have kept := Batches.rowsKept_effect (.insertRelation relation) db.jobs
    rw [after]
    intro row member
    cases Batches.mem_insertRelation.mp member with
    | inl old =>
      exact ⟨RowsKept.found kept (referenced row old).1, RowsKept.found kept (referenced row old).2⟩
    | inr same =>
      subst same
      rw [source, target]
      exact ⟨RowsKept.found kept found, RowsKept.found kept relatedFound⟩

theorem statement_grows {stmt : WorkflowStatement} {db : JobsDb}
    (quiet : ∀ relation, stmt ≠ .insertRelation relation) :
    Grows counts db (WorkflowStatement.effect stmt db) := by
  have same : ∀ relation ∈ (WorkflowStatement.effect stmt db).relations, relation ∈ db.relations := by
    intro relation member
    exact (mem_relations_effect member).resolve_right (quiet relation)
  constructor
  · exact ⟨Batches.rowsKept_effect stmt db, fun relation member => Or.inl (same relation member)⟩
  · intro jobId cycle
    obtain ⟨_, added, _⟩ := Relation.TransGen.head'_iff.mp cycle
    obtain ⟨relation, member, new, _⟩ := added
    exact new (same relation member)

theorem create_grows (job : Job) (db : JobsDb) : Grows counts db ((Workflows.create job).alone db).2 := by
  have sown := create_sown (Sown.start db) job
  unfold Call.Ends at sown
  cases created : ((Workflows.create job).alone db).1 with
  | ok row =>
    rw [created] at sown
    exact Sown.grows sown.2
  | error error =>
    rw [created] at sown
    exact Sown.grows sown

theorem checkRetry_still (projects : List Workflows.Project) (projectId : String)
    (request : Workflows.WorkflowRetryRequest) (db : JobsDb) :
    ((Workflows.checkRetry projects projectId request).alone db).2 = db := by
  refine ends_same ?_ db
  unfold Workflows.checkRetry
  refine Call.Issues.bind (Call.issues_perform rfl) fun found => ?_
  split
  · trivial
  · trivial
  · split
    · trivial
    · split <;> trivial

theorem retry_grows (projects : List Workflows.Project) (projectId : String)
    (request : Workflows.WorkflowRetryRequest) (userId : Option String) {db : JobsDb}
    (referenced : Referenced db) (acyclic : Acyclic (Waits counts db)) :
    Grows counts db (Workflows.retry projects projectId request userId db).2 := by
  have unchanged : Grows counts db db := (Sown.start db).grows
  have still := checkRetry_still projects projectId request db
  unfold Workflows.retry
  split
  · next checked => exact (checked ▸ still : _ = db) ▸ unchanged
  · next checked =>
      have same := (checked ▸ still : _ = db)
      subst same
      unfold Workflows.inTransaction
      have grows := @retryLocked_grows projects counts request userId _ referenced acyclic
      unfold Call.Ends at grows
      split
      · next ended =>
          rw [ended] at grows
          exact grows
      · exact unchanged

theorem next_spreads {operation : Operation} (referenced : Referenced db.jobs)
    (acyclic : Acyclic (Waits counts db.jobs)) (own : ∀ jobId data, operation ≠ .addDependency jobId data) :
    Spreads counts (operation.ClosesCycle counts db) db.jobs (next db operation).jobs := by
  cases operation with
  | create job => exact (create_grows job db.jobs).spreads not_false
  | addDependency jobId data => exact absurd rfl (own jobId data)
  | createBatch projects rootIds newBatchId request projectId correlationId userId =>
    have grows := @createBatch_grows projects rootIds newBatchId request counts projectId correlationId userId db.store
    exact Grows.spreads grows not_false
  | invoke catalog rootIds projectId workflowName request userId wait =>
    exact (invoke_grows counts catalog rootIds projectId workflowName request userId wait db.jobs).spreads not_false
  | retry projects projectId request userId =>
    exact (retry_grows projects projectId request userId referenced acyclic).spreads not_false
  | expandPipeline catalog projectId request userId ids =>
    exact expandPipeline_spreads counts projectId referenced
  | other stmt =>
    have grows := @statement_grows counts (.jobs stmt) db.jobs nofun
    exact grows.spreads not_false

theorem next_acyclic_iff (operation : Operation) (referenced : Referenced db.jobs)
    (acyclic : Acyclic (Waits counts db.jobs)) :
    Acyclic (Waits counts (next db operation).jobs) ↔ ¬ operation.ClosesCycle counts db := by
  by_cases own : ∀ jobId data, operation ≠ .addDependency jobId data
  · have spreads := next_spreads referenced acyclic own
    rw [spreads.extension.acyclic_iff referenced, and_iff_right acyclic, spreads.acyclic]
  · push Not at own
    obtain ⟨jobId, data, rfl⟩ := own
    exact addDependency_acyclic_iff acyclic

theorem next_referenced (operation : Operation) (referenced : Referenced db.jobs)
    (acyclic : Acyclic (Waits counts db.jobs)) : Referenced (next db operation).jobs := by
  by_cases own : ∀ jobId data, operation ≠ .addDependency jobId data
  · exact (next_spreads referenced acyclic own).extension.referenced referenced
  · push Not at own
    obtain ⟨jobId, data, rfl⟩ := own
    exact addDependency_referenced referenced

end

/-- Over every sequence of operations, the graph stays free of cycles, and no jobs come to wait on
one another, exactly if none of the operations closes a cycle. -/
theorem acyclic_iff_no_closing (counts : RelationType → Bool) (start : ApiDb)
    (referenced : Referenced start.jobs) (acyclic : Acyclic (Waits counts start.jobs)) (operations : List Operation) :
    (∀ visit ∈ visits next start operations, Acyclic (Waits counts (next visit.1 visit.2).jobs) ∧
          ∀ waiting, ¬ WaitOnOneAnother counts (next visit.1 visit.2).jobs waiting) ↔
      ∀ visit ∈ visits next start operations, ¬ visit.2.ClosesCycle counts visit.1 := by
  have kept := @visits_kept_iff ApiDb _ _ (fun db => Referenced db.jobs)
    _
    _
    (fun db operation referenced acyclic => next_referenced operation referenced acyclic)
    (fun db operation referenced acyclic => next_acyclic_iff operation referenced acyclic)
    _ referenced acyclic operations
  rw [← kept]
  refine forall₂_congr fun visit _ => ?_
  rw [← acyclic_iff_none, and_self]

def requestsInCircle : List Operation :=
  [.create { id := "first", projectId := "project", phase := .ready },
    .create { id := "second", projectId := "project", phase := .ready },
    .addDependency "first" { relatedJobId := "second" }, .addDependency "second" { relatedJobId := "first" }]

theorem requests_deadlock :
    ¬ (∀ visit ∈ visits next {} requestsInCircle, Acyclic (Waits (· == .blocks) (next visit.1 visit.2).jobs)) ∧
      (requestsInCircle.foldl next {}).jobs.isBlocked "first" = true ∧
      (requestsInCircle.foldl next {}).jobs.isBlocked "second" = true := by
  refine ⟨fun acyclic => ?_, by decide +kernel, by decide +kernel⟩
  simp only [requestsInCircle, visits, List.forall_mem_cons] at acyclic
  obtain ⟨_, _, _, last, _⟩ := acyclic
  have relations : (requestsInCircle.foldl next {}).jobs.relations =
      [⟨"first", "second", .blocks⟩, ⟨"second", "first", .blocks⟩] := by
    decide +kernel
  have there : Waits (· == .blocks) (requestsInCircle.foldl next {}).jobs "first" "second" :=
    ⟨⟨"first", "second", .blocks⟩, by simp [relations], rfl, rfl, rfl⟩
  have back : Waits (· == .blocks) (requestsInCircle.foldl next {}).jobs "second" "first" :=
    ⟨⟨"second", "first", .blocks⟩, by simp [relations], rfl, rfl, rfl⟩
  exact last "first" (.tail (.single there) back)

theorem first_request_acyclic : (∀ visit ∈ visits next {} (requestsInCircle.take 3),
        Acyclic (Waits RelationType.blocking (next visit.1 visit.2).jobs) ∧
          ∀ waiting, ¬ WaitOnOneAnother RelationType.blocking (next visit.1 visit.2).jobs waiting) ↔
      ∀ visit ∈ visits next {} (requestsInCircle.take 3), ¬ visit.2.ClosesCycle RelationType.blocking visit.1 := by
  refine acyclic_iff_no_closing RelationType.blocking {} nofun ?_ _
  intro id cycle
  obtain ⟨_, ⟨relation, member, _⟩, _⟩ := Relation.TransGen.head'_iff.mp cycle
  cases member

end EveHorizon.Dependencies
