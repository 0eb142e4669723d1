import EveHorizon.Dependencies.Growth
import EveHorizon.Workflows.Cycles
import EveHorizon.Workflows.Retry

/-!
# The relations of a workflow

The relations that an invocation adds are those of its steps, whose graph has been searched for
cycles.
-/

namespace EveHorizon.Dependencies

open Interleaving List Call
open Jobs (JobId Job JobRelation JobsDb RelationType)
open Precedence (Acyclic)
open Workflows (Catalog Invocation Project RootIds StepDependsOn StepEntry WorkflowStatement WorkflowCall
  WorkflowStepJob WorkflowInvokeRequest WorkflowRetryRequest OldToNew RetryPlan)

theorem workflow_agrees (stmt : WorkflowStatement) (db : JobsDb) :
    id (Statement.effect stmt db) = (id stmt : WorkflowStatement).effect (id db) :=
  rfl

theorem ends_same {α : Type} {call : WorkflowCall α} (issues : call.Issues (· = .jobs .select))
    (db : JobsDb) : call.Ends (fun _ reached => reached = db) db :=
  alone_still workflow_agrees issues db

def Relates (may : JobRelation → Prop) (stmt : WorkflowStatement) : Prop :=
  ∀ relation, stmt = .insertRelation relation → may relation

section

variable {may : JobRelation → Prop}

theorem select_relates {α : Type} (query : JobsDb → α) : (Workflows.select query).Issues (Relates may) :=
  issues_perform nofun

theorem addDependency_relates {jobId relatedJobId : JobId} {relationType : RelationType}
    (allowed : may ⟨jobId, relatedJobId, relationType⟩) :
    (Workflows.addDependency jobId relatedJobId relationType).Issues (Relates may) := by
  refine Issues.bind (select_relates _) fun fromJob => ?_
  refine Issues.bind (select_relates _) fun toJob => ?_
  split
  · trivial
  · split
    · trivial
    · refine issues_perform fun relation same => ?_
      cases same
      exact allowed

end

section

variable {catalog : Catalog} {context : Invocation} {before : JobsDb} {ids : List JobId} {rootJobId : JobId}
  {db : JobsDb} {index : Nat}

theorem createStep_sown {entry : StepEntry} (sown : Sown before ids db) :
    (Workflows.createStep catalog context rootJobId index entry).Ends (fun result reached =>
      match result with
      | .ok created => Sown before (ids ++ [created.jobId]) reached ∧ created.stepName = entry.1.1
      | .error _ => Sown before ids reached) db := by
  unfold Workflows.createStep
  apply Ends.bind (ends_same generateChildJobId_quiet db)
  · intro stepJobId reached same
    subst same
    cases planned : Workflows.planStep catalog context entry with
    | error failure => exact sown
    | ok plan =>
      apply (create_sown sown (Workflows.stepJob context rootJobId stepJobId index entry plan)).bind
      · intro row later created
        exact ⟨created.2, rfl⟩
      · intro error later kept
        exact kept
  · intro error reached same
    subst same
    exact sown

theorem createSteps_sown {entries : List StepEntry} (sown : Sown before ids db) :
    (Workflows.createSteps catalog context rootJobId index entries).Ends (fun result reached =>
      match result with
      | .ok created => Sown before (ids ++ created.map (·.jobId)) reached
      | .error _ => Sown before [] reached) db := by
  induction entries generalizing ids index db with
  | nil =>
    change Sown before (ids ++ []) db
    rw [append_nil]
    exact sown
  | cons entry rest ih =>
    rw [Workflows.createSteps]
    apply (createStep_sown sown).bind
    · intro created reached isCreated
      apply (ih isCreated.1).bind
      · intro later last areLater
        change Sown before (ids ++ (created :: later).map (·.jobId)) last
        rw [map_cons, append_cons]
        exact areLater
      · intro error last kept
        exact kept
    · intro error reached kept
      exact Sown.fewer kept (nil_sublist _)

variable {created : List WorkflowStepJob} {jobId : JobId}

theorem mem_of_jobNamed {name : String} (named : Workflows.jobNamed created name = some jobId) :
    ∃ stepJob ∈ created, stepJob.stepName = name ∧ stepJob.jobId = jobId := by
  obtain ⟨stepJob, found, isId⟩ := Option.map_eq_some_iff.mp named
  have isName := find?_some found
  exact ⟨stepJob, mem_reverse.mp (mem_of_find?_eq_some found), by simpa using isName, isId⟩

theorem jobNamed_inj (distinct : (created.map (·.jobId)).Nodup) {first second : String}
    (isFirst : Workflows.jobNamed created first = some jobId)
    (isSecond : Workflows.jobNamed created second = some jobId) : first = second := by
  obtain ⟨stepJob, listed, isName, isId⟩ := mem_of_jobNamed isFirst
  obtain ⟨other, otherListed, otherName, otherId⟩ := mem_of_jobNamed isSecond
  have same := inj_on_of_nodup_map distinct listed otherListed (isId.trans otherId.symm)
  rw [← isName, ← otherName, same]

/-- The relations an invocation may insert: from the job of a step to that of a dependency. -/
def StepRelation (context : Invocation) (created : List WorkflowStepJob) (relation : JobRelation) : Prop :=
  ∃ name dependency, StepDependsOn (context.steps.map Prod.fst) name dependency ∧
    Workflows.jobNamed created name = some relation.jobId ∧
    Workflows.jobNamed created dependency = some relation.relatedJobId

theorem connect_relates : (Workflows.connect context created).Issues (Relates (StepRelation context created)) := by
  apply Issues.bind
  · apply Issues.forEach
    intro entry listed
    unfold Workflows.wireStep
    split
    · trivial
    · next jobId isJob =>
        apply Issues.forEach
        intro dependency depends
        split
        · trivial
        · next dependencyId isDependency =>
            exact addDependency_relates ⟨entry.1, dependency, ⟨entry, listed, rfl, depends⟩, isJob, isDependency⟩
  · intro _
    apply Issues.forEach
    intro stepJob _
    apply Issues.bind
    · apply Issues.mapError
      apply Issues.lift
      exact (issues_true _).imp fun _ _ => nofun
    · intro released
      split <;> trivial

variable {wait : Option Nat}

theorem answer_relates {may : JobRelation → Prop} : (Workflows.answer rootJobId created wait).Issues (Relates may) := by
  cases wait with
  | none => trivial
  | some rounds =>
    change (Workflows.pollStepJobsForCompletion rootJobId (created.map (·.jobId)) rounds).Issues _
    induction rounds with
    | zero => trivial
    | succ rounds ih =>
      refine Issues.bind (select_relates _) fun result => ?_
      cases result with
      | none => exact ih
      | some result => trivial

variable (counts : RelationType → Bool)

theorem expand_grows {rootIds : RootIds} (acyclic : Acyclic (StepDependsOn (context.steps.map Prod.fst))) :
    (Workflows.expand catalog rootIds context wait).Ends (fun _ reached => Grows counts db reached) db := by
  unfold Workflows.expand
  apply Ends.bind (ends_same generateRootJobId_quiet db)
  · intro rootJobId reached same
    subst same
    apply (create_sown (.start reached) (Workflows.rootJob context rootJobId)).bind
    · intro row rooted isRooted
      apply (createSteps_sown isRooted.2).bind
      · intro created filed areCreated
        have sown : Sown reached ([rootJobId] ++ created.map (·.jobId)) filed := areCreated
        have named : ∀ {name : String} {jobId : JobId}, Workflows.jobNamed created name = some jobId →
              jobId ∈ [rootJobId] ++ created.map (·.jobId) := by
          intro name jobId isJob
          obtain ⟨stepJob, listed, _, isId⟩ := mem_of_jobNamed isJob
          exact mem_append_right _ (isId ▸ mem_map_of_mem listed)
        have relates : (Workflows.connect context created >>= fun _ =>
            Workflows.answer rootJobId created wait).Issues (Relates (StepRelation context created)) :=
          connect_relates.bind fun _ => answer_relates
        refine sown.wired (alone_rowsKept workflow_agrees _ filed) (alone_added workflow_agrees relates filed) ?_ ?_
        · intro relation isRelation
          obtain ⟨name, dependency, _, isJob, isDependency⟩ := isRelation
          exact ⟨named isJob, (sown.fresh _ (named isDependency)).2⟩
        · refine @Precedence.acyclic_of_placed _ _ _ _
            (fun name jobId => Workflows.jobNamed created name = some jobId) ?_ ?_ acyclic
          · intro first second jobId isFirst isSecond
            exact jobNamed_inj (sown.distinct.sublist (sublist_append_right _ _)) isFirst isSecond
          · intro jobId relatedJobId added
            obtain ⟨relation, isRelation, _, source, target, _⟩ := added
            obtain ⟨name, dependency, depends, isJob, isDependency⟩ := isRelation
            rw [source] at isJob
            rw [target] at isDependency
            exact ⟨name, dependency, isJob, isDependency, depends⟩
      · intro error filed sown
        exact Sown.grows sown
    · intro error rooted sown
      exact Sown.grows sown
  · intro error reached same
    subst same
    exact (Sown.start reached).grows

theorem invoke_grows (catalog : Catalog) (rootIds : RootIds) (projectId workflowName : String)
    (request : WorkflowInvokeRequest) (userId : Option String) (wait : Option Nat) (db : JobsDb) :
    Grows counts db ((Workflows.invoke catalog rootIds projectId workflowName request userId wait).alone db).2 := by
  unfold Workflows.invoke
  rw [Workflows.alone_select_bind]
  cases prepared : Workflows.prepare catalog projectId workflowName request userId with
  | error failure => exact (Sown.start db).grows
  | ok context =>
    obtain ⟨steps, named, validated⟩ := Workflows.prepare_steps prepared
    have acyclic := Workflows.validateStepGraph_acyclic validated
    rw [← named] at acyclic
    exact expand_grows counts acyclic

end

section

variable {projects : List Project} {before : JobsDb} {oldToNew : OldToNew} {userId : Option String} {generation : Nat}
  {db : JobsDb} {root : Job}

theorem cloneSteps_sown {sources : List Job} (sown : Sown before (oldToNew.map Prod.snd) db) :
    (Workflows.cloneSteps projects root generation userId sources oldToNew).Ends
      (fun result reached =>
        match result with
        | .ok created => Sown before (created.map Prod.snd) reached
        | .error _ => Sown before [] reached) db := by
  induction sources generalizing oldToNew db with
  | nil => exact sown
  | cons source rest ih =>
    rw [Workflows.cloneSteps]
    apply Ends.bind (ends_same generateChildJobId_quiet db)
    · intro retryJobId reached same
      subst same
      apply (create_sown sown (Workflows.retryStep root.id generation userId retryJobId source)).bind
      · intro row later created
        apply ih
        rw [map_append]
        exact created.2
      · intro error later kept
        exact Sown.fewer kept (nil_sublist _)
    · intro error reached same
      subst same
      exact sown.fewer (nil_sublist _)

/-- A relation of the retried run, between the clones of its jobs. -/
def CloneRelation (before : JobsDb) (oldToNew : OldToNew) (relation : JobRelation) : Prop :=
  ∃ old ∈ before.relations, oldToNew.get old.jobId = some relation.jobId ∧
    relation.relatedJobId = (oldToNew.get old.relatedJobId).getD old.relatedJobId ∧
    relation.relationType = old.relationType

variable {request : WorkflowRetryRequest} {plan : RetryPlan}

theorem planRetry_relations {allChildren : List Job} {relationsOf : List JobId → List JobRelation}
    (planned : Workflows.planRetry request root allChildren relationsOf = .ok plan) :
    ∃ jobIds, plan.relations = relationsOf jobIds := by
  unfold Workflows.planRetry at planned
  dsimp only at planned
  split at planned
  · obtain ⟨_, refused, _⟩ := Checks.bind_eq_ok.mp planned
    cases refused
  · split at planned
    · obtain ⟨_, refused, _⟩ := Checks.bind_eq_ok.mp planned
      cases refused
    · split at planned
      · cases planned
      · obtain ⟨selected, _, onward⟩ := Checks.bind_eq_ok.mp planned
        obtain ⟨_, _, isPlan⟩ := Checks.bind_eq_ok.mp onward
        cases isPlan
        exact ⟨_, rfl⟩

theorem relateClone_relates (within : ∀ relation ∈ plan.relations, relation ∈ before.relations) (source : Job) :
    (Workflows.relateClone plan oldToNew source).Issues (Relates (CloneRelation before oldToNew)) := by
  unfold Workflows.relateClone
  split
  · trivial
  · next retryJobId isClone =>
      apply Issues.bind
      · apply Issues.forEach
        intro relation listed
        obtain ⟨member, isSource⟩ := mem_filter.mp listed
        apply addDependency_relates
        refine ⟨relation, within relation member, ?_, rfl, rfl⟩
        rw [beq_iff_eq.mp isSource]
        exact isClone
      · intro _
        exact issues_perform nofun

theorem audit_relates {may : JobRelation → Prop} {entityId action workflowRetryAction : String}
    {replacements : OldToNew} :
    (Workflows.insertWorkflowRetryAudit request userId generation entityId action workflowRetryAction
      replacements).Issues (Relates may) :=
  issues_perform nofun

def StandsAt (before : JobsDb) (oldToNew : OldToNew) (jobId place : JobId) : Prop :=
  oldToNew.get jobId = some place ∨ (jobId = place ∧ (before.findJob place).isSome = true)

theorem standsAt_single (sown : Sown before (oldToNew.map Prod.snd) db) {first second place : JobId}
    (isFirst : StandsAt before oldToNew first place) (isSecond : StandsAt before oldToNew second place) :
    first = second := by
  have distinct : (oldToNew.reverse.map Prod.snd).Nodup := by
    rw [map_reverse]
    exact nodup_reverse.mpr sown.distinct
  have fresh : ∀ {jobId : JobId}, oldToNew.get jobId = some place → before.findJob place = none := by
    intro jobId isClone
    have listed := snd_mem_of_lookup isClone
    rw [map_reverse] at listed
    exact (sown.fresh place (mem_reverse.mp listed)).1
  cases isFirst with
  | inl isClone =>
    cases isSecond with
    | inl isOther => exact key_eq_of_lookup distinct isClone isOther
    | inr old =>
      rw [fresh isClone] at old
      cases old.2
  | inr old =>
    cases isSecond with
    | inl isClone =>
      rw [fresh isClone] at old
      cases old.2
    | inr other => exact old.1.trans other.1.symm

theorem relate_grows {counts : RelationType → Bool} {α : Type} {call : WorkflowCall α}
    {cloned : JobsDb} (referenced : Referenced before) (acyclic : Acyclic (Waits counts before))
    (sown : Sown before (oldToNew.map Prod.snd) cloned)
    (relates : call.Issues (Relates (CloneRelation before oldToNew))) :
    call.Ends (fun _ reached => Grows counts before reached) cloned := by
  have created : ∀ {jobId retryJobId : JobId}, oldToNew.get jobId = some retryJobId →
      retryJobId ∈ oldToNew.map Prod.snd := by
    intro jobId retryJobId isClone
    have listed := snd_mem_of_lookup isClone
    rw [map_reverse] at listed
    exact mem_reverse.mp listed
  refine sown.wired (alone_rowsKept workflow_agrees _ cloned) (alone_added workflow_agrees relates cloned) ?_ ?_
  · intro relation isRelation
    obtain ⟨old, member, isClone, related, _⟩ := isRelation
    refine ⟨created isClone, ?_⟩
    rw [related]
    cases isOther : oldToNew.get old.relatedJobId with
    | some retryJobId => exact (sown.fresh _ (created isOther)).2
    | none => exact RowsKept.found sown.kept (referenced old member).2
  · refine @Precedence.acyclic_of_placed _ _ _ _ (StandsAt before oldToNew) ?_ ?_ acyclic
    · intro first second place isFirst isSecond
      exact standsAt_single sown isFirst isSecond
    · intro jobId relatedJobId added
      obtain ⟨relation, isRelation, _, source, target, isCounted⟩ := added
      obtain ⟨old, member, isClone, related, kind⟩ := isRelation
      rw [source] at isClone
      rw [kind] at isCounted
      refine ⟨old.jobId, old.relatedJobId, Or.inl isClone, ?_, old, member, rfl, rfl, isCounted⟩
      rw [← target, related]
      cases isOther : oldToNew.get old.relatedJobId with
      | some retryJobId => exact Or.inl isOther
      | none => exact Or.inr ⟨rfl, (referenced old member).2⟩

theorem retryLocked_grows (counts : RelationType → Bool) {request : WorkflowRetryRequest}
    {userId : Option String} {db : JobsDb} (referenced : Referenced db) (acyclic : Acyclic (Waits counts db)) :
    (Workflows.retryLocked projects request userId).Ends (fun _ reached => Grows counts db reached) db := by
  have unchanged : Grows counts db db := (Sown.start db).grows
  unfold Ends Workflows.retryLocked
  rw [Workflows.alone_select_bind]
  cases db.findJob request.rootJobId with
  | none => exact unchanged
  | some root =>
    dsimp only
    split
    · exact unchanged
    · rw [Workflows.alone_select_bind, Workflows.alone_select_bind]
      cases planned : Workflows.planRetry request root (Workflows.JobsDb.childrenByAge db root.id)
          (Workflows.JobsDb.dependenciesAmong db) with
      | error failure => exact unchanged
      | ok plan =>
        obtain ⟨jobIds, areRelations⟩ := planRetry_relations planned
        have within : ∀ relation ∈ plan.relations, relation ∈ db.relations := by
          intro relation member
          rw [areRelations] at member
          exact (mem_filter.mp member).1
        change (_ : WorkflowCall _).Ends (fun _ reached => Grows counts db reached) db
        apply Ends.bind (cloneSteps_sown (Sown.start db))
        · intro oldToNew cloned isSown
          apply relate_grows referenced acyclic isSown
          apply Issues.bind
          · exact Issues.forEach fun source _ => relateClone_relates within source
          · intro _
            refine Issues.bind (issues_perform nofun) fun _ => ?_
            refine Issues.bind audit_relates fun _ => ?_
            refine Issues.bind ?_ fun _ => trivial
            apply Issues.forEach
            intro source _
            split
            · trivial
            · exact audit_relates
        · intro error cloned isSown
          exact Sown.grows isSown

end

end EveHorizon.Dependencies
