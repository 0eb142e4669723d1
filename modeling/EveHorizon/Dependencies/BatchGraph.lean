import EveHorizon.Batches.Acceptance
import EveHorizon.Dependencies.Growth

/-!
# The relations of a batch

The relations that a batch adds are those of its dependencies, between jobs of its own.
-/

namespace EveHorizon.Dependencies

open Batches (BatchDb BatchStatement BatchCall BatchNode BatchFailure CreateBatchRequest KeyToJobId onWorkflow)
open Interleaving Call
open Jobs (JobId Job JobRelation JobsDb RelationType)
open Precedence (Acyclic)
open Workflows (Project RootIds WorkflowStatement WorkflowCall)

def batchActs : BatchStatement → WorkflowStatement
  | .jobs statement => statement
  | .insertBatch _ | .tagJob _ => .jobs .select

theorem batchActs_agrees (stmt : BatchStatement) (db : BatchDb) :
    (Statement.effect stmt db).jobs = (batchActs stmt).effect db.jobs := by
  cases stmt with
  | jobs stmt => rfl
  | insertBatch batch =>
    change (BatchStatement.effect (.insertBatch batch) db).jobs = db.jobs
    rw [BatchStatement.effect]
    split <;> rfl
  | tagJob tag =>
    change (BatchStatement.effect (.tagJob tag) db).jobs = db.jobs
    rw [BatchStatement.effect]
    split <;> rfl

section

variable {projects : List Project} {rootIds : RootIds} {newBatchId : BatchDb → String}
  {request : CreateBatchRequest} {before : JobsDb} {ids : List JobId}

theorem ends_still {α : Type} {call : BatchCall α}
    (issues : call.Issues fun stmt => batchActs stmt = .jobs .select) (db : BatchDb) :
    call.Ends (fun _ reached => reached.jobs = db.jobs) db :=
  alone_still batchActs_agrees issues db

variable {projectId : String}

theorem generateJobId_still {parentJobId : Option JobId} :
    (Batches.generateJobId projects rootIds projectId parentJobId).Issues
      fun stmt => batchActs stmt = .jobs .select := by
  unfold Batches.generateJobId
  split
  · apply Issues.mapError
    apply Issues.lift
    exact generateRootJobId_quiet
  · apply Issues.mapError
    apply Issues.lift
    exact generateChildJobId_quiet

def Creates {α : Type} (before : JobsDb) (ids : List JobId) (created : α → List JobId)
    (result : Except BatchFailure α) (reached : BatchDb) : Prop :=
  match result with
  | .ok value => Sown before (ids ++ created value) reached.jobs
  | .error _ => Sown before ids reached.jobs

variable {userId : Option String} {db : BatchDb} {known : KeyToJobId} {batchId : String}

theorem createNode_creates {node : BatchNode} (sown : Sown before ids db.jobs) :
    (Batches.createNode projects rootIds request projectId batchId userId known node).Ends
      (Creates before ids fun jobId => [jobId]) db := by
  unfold Batches.createNode
  apply Ends.bind (ends_still generateJobId_still db)
  · intro jobId reached same
    have created := create_sown (same ▸ sown) (Batches.nodeJob request projectId userId node jobId
      (node.parentKey.bind (KeyToJobId.get known)))
    have creates : (onWorkflow (Workflows.create (Batches.nodeJob request projectId userId node jobId
        (node.parentKey.bind (KeyToJobId.get known))))).Ends
          (Creates before ids fun _ => [jobId]) reached := by
      unfold Ends at created ⊢
      rw [Batches.alone_onWorkflow]
      cases result : ((Workflows.create (Batches.nodeJob request projectId userId node jobId
          (node.parentKey.bind (KeyToJobId.get known)))).alone reached.jobs).1 with
      | ok row =>
        rw [result] at created
        exact created.2
      | error error =>
        rw [result] at created
        exact created
    apply creates.bind
    · intro row later sownRow
      change Sown before (ids ++ [jobId])
        (Statement.effect (BatchStatement.tagJob ⟨jobId, batchId, node.key⟩) later).jobs
      rw [batchActs_agrees]
      exact sownRow
    · intro error later sownLater
      exact sownLater
  · intro error reached same
    change Sown before ids reached.jobs
    rw [same]
    exact sown

theorem createNodes_creates {keys : List String} (sown : Sown before (known.map Prod.snd) db.jobs) :
    (Batches.createNodes projects rootIds request projectId batchId userId keys known).Ends
      (Creates before [] fun ids => ids.map Prod.snd) db := by
  have none : ∀ {ids : List JobId} {reached : JobsDb}, Sown before ids reached →
      Sown before [] reached := fun sown => sown.fewer (List.nil_sublist _)
  induction keys generalizing known db with
  | nil =>
    change Sown before ([] ++ known.map Prod.snd) db.jobs
    exact sown
  | cons key rest ih =>
    rw [Batches.createNodes]
    split
    · exact none sown
    · next node _ =>
        apply (createNode_creates sown).bind
        · intro jobId reached created
          apply ih
          rw [List.map_append]
          exact created
        · intro error reached failed
          exact none failed

/-- The relations a batch may insert: along its edges, between the jobs of the keys. -/
def MayWire (request : CreateBatchRequest) (ids : KeyToJobId) (relation : JobRelation) : Prop :=
  ∃ job dependsOn, Batches.Precedes (Batches.edges request) dependsOn job ∧
    KeyToJobId.get ids job = some relation.jobId ∧ KeyToJobId.get ids dependsOn = some relation.relatedJobId

theorem wireDependencies_wires {ids : KeyToJobId} : (Batches.wireDependencies request ids).Issues fun stmt =>
      ∀ relation, batchActs stmt = .insertRelation relation → MayWire request ids relation := by
  apply Issues.forEach
  intro dependency listed
  apply Issues.forEach
  intro dependsOn depends
  have precedes : Batches.Precedes (Batches.edges request) dependsOn dependency.job := by
    apply List.mem_append_right
    exact List.mem_flatMap.mpr ⟨dependency, listed, List.mem_map_of_mem depends⟩
  unfold Batches.wireDependency
  split
  · next jobId dependsOnId isJob isDependency =>
      apply Issues.mapError
      apply Issues.lift
      refine Issues.bind ?_ fun fromJob => ?_
      · exact issues_perform nofun
      · refine Issues.bind ?_ fun toJob => ?_
        · exact issues_perform nofun
        · split
          · trivial
          · split
            · trivial
            · refine issues_perform fun relation same => ?_
              cases same
              exact ⟨_, _, precedes, isJob, isDependency⟩
  · trivial

theorem edges_acyclic (valid : (Batches.validateBatch request).valid = true) :
    Acyclic fun job dependsOn => Batches.Precedes (Batches.edges request) dependsOn job := by
  obtain ⟨closed, none⟩ := Batches.validateBatch_valid valid
  obtain ⟨listed, ordered, all⟩ := Batches.ordered_of_acyclic none
  rw [Batches.keys_batchGraph] at all
  have inOrder : Precedence.Ordered (Batches.Precedes (Batches.edges request)) listed := by
    intro earlier key later split other precedes
    exact ordered earlier key later split other (Batches.needs_of_precedes closed precedes)
  have known : ∀ key other, Batches.Precedes (Batches.edges request) other key → key ∈ listed := by
    intro key other precedes
    have edge := closed.edges _ precedes
    exact all key edge.2
  exact (Precedence.acyclic_of_ordered inOrder known).swap

theorem grows_of_same {counts : RelationType → Bool} {reached : BatchDb} (same : reached.jobs = db.jobs) :
    Grows counts db.jobs reached.jobs := by
  rw [same]
  exact (Sown.start db.jobs).grows

theorem createJobs_grows (counts : RelationType → Bool)
    (valid : (Batches.validateBatch request).valid = true) {project : Project} {correlationId : Option String} :
    (Batches.createJobs projects rootIds newBatchId request project correlationId userId).Ends
      (fun _ reached => Grows counts db.jobs reached.jobs) db := by
  unfold Batches.createJobs
  apply Ends.bind (ends_still (issues_perform rfl) db)
  · intro batchId chosen sameChosen
    apply Ends.bind (ends_still ?_ chosen)
    · intro _ opened sameOpened
      have same : opened.jobs = db.jobs := sameOpened.trans sameChosen
      have sown : Sown db.jobs (([] : KeyToJobId).map Prod.snd) opened.jobs := by
        rw [same]
        exact .start db.jobs
      apply (createNodes_creates sown).bind
      · intro ids created isCreated
        have isSown : Sown db.jobs (ids.map Prod.snd) created.jobs := isCreated
        have acyclic := edges_acyclic valid
        have wired : (Batches.wireDependencies request ids).Ends
            (fun _ reached => Grows counts db.jobs reached.jobs) created := by
          refine isSown.wired (alone_rowsKept batchActs_agrees _ created)
            (alone_added batchActs_agrees wireDependencies_wires created) ?_ ?_
          · intro relation may
            obtain ⟨job, dependsOn, _, isJob, isDependency⟩ := may
            exact ⟨snd_mem_of_lookup isJob, (isSown.fresh _ (snd_mem_of_lookup isDependency)).2⟩
          · refine @Precedence.acyclic_of_placed _ _ _ _
              (fun key jobId => KeyToJobId.get ids key = some jobId) ?_ ?_ acyclic
            · intro first second jobId isFirst isSecond
              exact key_eq_of_lookup isSown.distinct isFirst isSecond
            · intro jobId relatedJobId added
              obtain ⟨relation, may, _, source, target, _⟩ := added
              obtain ⟨job, dependsOn, precedes, isJob, isDependency⟩ := may
              rw [source] at isJob
              rw [target] at isDependency
              exact ⟨job, dependsOn, isJob, isDependency, precedes⟩
        apply wired.bind
        · intro _ reached grown
          exact grown
        · intro error reached grown
          exact grown
      · intro error created isCreated
        have isSown : Sown db.jobs [] created.jobs := isCreated
        exact isSown.grows
    · intro error opened sameOpened
      exact grows_of_same (sameOpened.trans sameChosen)
    · refine ⟨rfl, fun store => ?_⟩
      dsimp only
      split <;> trivial
  · intro error chosen sameChosen
    exact grows_of_same sameChosen

theorem createBatch_grows (counts : RelationType → Bool) (projectId : String)
    (correlationId userId : Option String) (db : BatchDb) :
    (Batches.createBatch projects rootIds newBatchId request projectId correlationId userId).Ends
      (fun _ reached => Grows counts db.jobs reached.jobs) db := by
  unfold Batches.createBatch
  split
  · exact grows_of_same rfl
  · next isValid =>
      have valid : (Batches.validateBatch request).valid = true := by simpa using isValid
      cases resolved : Batches.resolveProject projects projectId with
      | error failure => exact grows_of_same rfl
      | ok project =>
        have looks : (Batches.findSubmission request project.id).Ends (fun _ reached => reached = db) db := by
          unfold Batches.findSubmission
          split
          · rfl
          · split
            · rfl
            · rfl
        apply looks.bind
        · intro found reached same
          subst same
          cases found with
          | none => exact createJobs_grows counts valid
          | some existing => exact grows_of_same rfl
        · intro error reached same
          subst same
          exact grows_of_same rfl

end

end EveHorizon.Dependencies
