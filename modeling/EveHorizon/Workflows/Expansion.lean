import EveHorizon.Library.Solo
import EveHorizon.Workflows.StepChecks

/-!
# Expanding a workflow

What is known of a workflow once the checks before its root job have passed, and which rows
the jobs of its steps are.
-/

namespace EveHorizon.Workflows

open Interleaving List Call Checks
open Jobs (JobId Job JobsDb)

variable {catalog : Catalog} {context : Invocation}

/-- The steps have distinct names, depend on each other, and were accepted by the schema. -/
structure WellFormed (context : Invocation) : Prop where
  conforming : ∀ entry ∈ context.steps, entry.1.2.conforms = true
  distinct : (context.steps.map fun entry => entry.1.1).Nodup
  closed : ∀ entry ∈ context.steps, ∀ dependency ∈ entry.1.2.dependencies,
    dependency ∈ context.steps.map fun entry => entry.1.1

variable {workflowName : String} {names : List String}

theorem checkNames_eq_ok {entries : List (String × WorkflowStep)} :
    checkNames workflowName names entries = .ok () ↔
      (∀ entry ∈ entries, executionKeyCount entry.2 = 1) ∧ (entries.map Prod.fst).Nodup ∧
        ∀ name ∈ names, name ∉ entries.map Prod.fst := by
  induction entries generalizing names with
  | nil => simp [checkNames]
  | cons entry rest ih =>
    obtain ⟨name, step⟩ := entry
    rw [checkNames, forall_mem_cons, map_cons, nodup_cons]
    by_cases executed : executionKeyCount step = 1
    · rw [if_neg (by simpa using executed)]
      by_cases used : name ∈ names
      · rw [if_pos (contains_iff_mem.mpr used)]
        constructor
        · exact nofun
        · intro ⟨_, _, apart⟩
          exact absurd mem_cons_self (apart name used)
      · rw [if_neg (by simpa using used), ih]
        constructor
        · intro ⟨others, distinct, apart⟩
          refine ⟨⟨executed, others⟩, ⟨apart name (by simp), distinct⟩, fun other member listed => ?_⟩
          cases mem_cons.mp listed with
          | inl same =>
            cases same
            exact used member
          | inr later => exact apart other (mem_append_left _ member) later
        · intro ⟨⟨_, others⟩, ⟨fresh, distinct⟩, apart⟩
          refine ⟨others, distinct, fun other member later => ?_⟩
          cases mem_append.mp member with
          | inl old => exact apart other old (mem_cons_of_mem _ later)
          | inr new => exact fresh (mem_singleton.mp new ▸ later)
    · rw [if_pos executed]
      constructor
      · exact nofun
      · intro ⟨all, _⟩
        exact absurd all.1 executed

variable {entry : String × WorkflowStep}

theorem checkDependencies_eq_ok :
    checkDependencies workflowName names entry = .ok () ↔ ∀ dependency ∈ entry.2.dependencies, dependency ∈ names := by
  unfold checkDependencies
  split
  · next none =>
      refine iff_of_true rfl fun dependency member => ?_
      simpa using find?_eq_none.mp none dependency member
  · next dependency found =>
      refine iff_of_false nofun fun all => ?_
      have missing := find?_some found
      simp [all dependency (mem_of_find?_eq_some found)] at missing

variable {steps : List WorkflowStep}

theorem validateStepGraph_accepts (validated : validateStepGraph workflowName steps = .ok ()) :
    (stepNames steps).Nodup ∧ ∀ entry ∈ namedSteps steps, ∀ dependency ∈ entry.2.dependencies,
      dependency ∈ stepNames steps := by
  obtain ⟨_, named, onward⟩ := bind_eq_ok.mp validated
  obtain ⟨_, related, _⟩ := bind_eq_ok.mp onward
  constructor
  · exact (checkNames_eq_ok.mp named).2.1
  · intro entry member
    exact checkDependencies_eq_ok.mp (forM_eq_ok.mp related entry member)

theorem mem_of_mem_namedSteps (member : entry ∈ namedSteps steps) : entry.2 ∈ steps := by
  obtain ⟨⟨step, index⟩, listed, rfl⟩ := mem_map.mp member
  exact (mem_zipIdx' listed).2 ▸ getElem_mem _

variable {entries : List StepEntry}

theorem prepareSteps_spec (prepared : prepareSteps workflowName steps = .ok entries) :
    entries.map Prod.fst = namedSteps steps ∧ validateStepGraph workflowName steps = .ok () := by
  unfold prepareSteps at prepared
  split at prepared
  · cases prepared
  · obtain ⟨_, validated, onward⟩ := bind_eq_ok.mp (rejecting_eq_ok.mp prepared)
    obtain ⟨executions, executed, same⟩ := bind_eq_ok.mp onward
    cases same
    have lengths := (mapM_eq_ok.mp executed).length_eq
    exact ⟨map_fst_zip lengths.le, validated⟩

variable {request : WorkflowInvokeRequest} {userId : Option String} {projectId : String}

theorem prepare_definition (prepared : prepare catalog projectId workflowName request userId = .ok context) :
    ∃ workflow, findByName catalog projectId workflowName = .ok workflow ∧ context.git = workflow.val.git ∧
      context.steps.map Prod.fst = namedSteps (workflow.val.steps.getD []) ∧
      validateStepGraph workflowName (workflow.val.steps.getD []) = .ok () := by
  obtain ⟨workflow, found, onward⟩ := bind_eq_ok.mp prepared
  obtain ⟨project, _, onward⟩ := bind_eq_ok.mp onward
  obtain ⟨entries, stepped, onward⟩ := bind_eq_ok.mp onward
  simp only [bind_eq_ok] at onward
  obtain ⟨_, _, _, _, _, _, _, _, _, _, _, _, _, _, _, _, _, _, _, _, _, _, same⟩ := onward
  cases same
  exact ⟨workflow, found, rfl, prepareSteps_spec stepped⟩

theorem prepare_wellFormed (prepared : prepare catalog projectId workflowName request userId = .ok context) :
    WellFormed context := by
  obtain ⟨workflow, _, _, named, validated⟩ := prepare_definition prepared
  obtain ⟨distinct, closed⟩ := validateStepGraph_accepts validated
  have names : (context.steps.map fun entry => entry.1.1) = stepNames (workflow.val.steps.getD []) := by
    rw [stepNames, ← named, map_map]
    rfl
  have listed : ∀ entry ∈ context.steps, entry.1 ∈ namedSteps (workflow.val.steps.getD []) :=
    fun entry member => named ▸ mem_map_of_mem member
  constructor
  · intro entry member
    have conforms := workflow.property
    simp only [WorkflowDefinition.conforms, Bool.and_eq_true] at conforms
    exact all_eq_true.mp conforms.1.1.1.1.1 _ (mem_of_mem_namedSteps (listed entry member))
  · exact names ▸ distinct
  · intro entry member dependency depends
    exact names ▸ closed entry.1 (listed entry member) dependency depends

variable {α β : Type}

theorem alone_select_bind (query : JobsDb → β) (cont : β → WorkflowCall α) (db : JobsDb) :
    (select query >>= cont).alone db = (cont (query db)).alone db := rfl

/-- The tables once the root job and some step jobs exist. -/
structure Family (db : JobsDb) (root : Job) (rows : List Job) (reached : JobsDb) : Prop where
  now : reached.now = db.now
  jobs : reached.jobs = db.jobs ++ root :: rows
  relations : reached.relations = db.relations

def stepRows (context : Invocation) (rootJobId : JobId) (now : Jobs.Timestamp) :
    Nat → List (StepEntry × StepPlan) → List Job
  | _, [] => []
  | index, (entry, plan) :: rest =>
    newJob now (stepJob context rootJobId (childId rootJobId (index + 1)) index entry plan) ::
      stepRows context rootJobId now (index + 1) rest

def createdStep (rootJobId : JobId) (index : Nat) (planned : StepEntry × StepPlan) : WorkflowStepJob where
  jobId := childId rootJobId (index + 1)
  stepName := planned.1.1.1
  dependsOn := planned.1.1.2.dependencies
  resourceRefs := planned.2.settings.resourceRefs.2

def createdSteps (rootJobId : JobId) : Nat → List (StepEntry × StepPlan) → List WorkflowStepJob
  | _, [] => []
  | index, planned :: rest =>
    createdStep rootJobId index planned :: createdSteps rootJobId (index + 1) rest

def planSteps (catalog : Catalog) (context : Invocation) (entries : List StepEntry) :
    Except Failure (List (StepEntry × StepPlan)) :=
  entries.mapM fun entry => (planStep catalog context entry).map fun plan => (entry, plan)

variable {check : Except Failure α} {change : α → β}

theorem map_eq_ok {result : β} :
    check.map change = .ok result ↔ ∃ value, check = .ok value ∧ change value = result := by
  cases check <;> simp [Except.map]

theorem map_eq_error {failure : Failure} : check.map change = .error failure ↔ check = .error failure := by
  cases check <;> simp [Except.map]

theorem planSteps_cons (entry : StepEntry) (rest : List StepEntry) : planSteps catalog context (entry :: rest) = do
      let plan ← planStep catalog context entry
      let later ← planSteps catalog context rest
      return (entry, plan) :: later := by
  rw [planSteps, mapM_cons]
  cases planStep catalog context entry <;> rfl

variable {planned : List (StepEntry × StepPlan)}

theorem planSteps_fst (passed : planSteps catalog context entries = .ok planned) : planned.map Prod.fst = entries := by
  have each := mapM_eq_ok.mp passed
  induction each with
  | nil => rfl
  | cons first rest ih =>
    obtain ⟨plan, _, rfl⟩ := map_eq_ok.mp first
    rw [map_cons, ih (mapM_eq_ok.mpr rest)]

theorem planSteps_rejected (catalog : Catalog) (context : Invocation)
    (conforming : ∀ entry ∈ entries, entry.1.2.conforms = true) :
    (∃ failure, planSteps catalog context entries = .error failure ∧ failure.rejects = true) ↔
      ∃ earlier entry later, entries = earlier ++ entry :: later ∧
        (∀ other ∈ earlier, StepPasses catalog context other) ∧ StepRejected catalog context entry := by
  simp only [planSteps, mapM_eq_error, map_eq_ok, map_eq_error]
  constructor
  · rintro ⟨failure, ⟨earlier, entry, later, rfl, passing, failed⟩, rejects⟩
    refine ⟨earlier, entry, later, rfl, ?_, ?_⟩
    · intro other member
      obtain ⟨_, plan, planned, _⟩ := passing other member
      exact (planStep_passes (conforming other (mem_append_left _ member))).mp ⟨plan, planned⟩
    · exact (planStep_rejected (conforming entry (by simp))).mp ⟨failure, failed, rejects⟩
  · rintro ⟨earlier, entry, later, rfl, passing, rejected⟩
    obtain ⟨failure, failed, rejects⟩ := (planStep_rejected (conforming entry (by simp))).mpr rejected
    refine ⟨failure, ⟨earlier, entry, later, rfl, ?_, failed⟩, rejects⟩
    intro other member
    obtain ⟨plan, planned⟩ := (planStep_passes (conforming other (mem_append_left _ member))).mpr (passing other member)
    exact ⟨_, plan, planned, rfl⟩

theorem createdSteps_names (rootJobId : JobId) (index : Nat) (planned : List (StepEntry × StepPlan)) :
    (createdSteps rootJobId index planned).map (·.stepName) = planned.map fun step => step.1.1.1 := by
  induction planned generalizing index with
  | nil => rfl
  | cons step rest ih => exact congrArg (step.1.1.1 :: ·) (ih (index + 1))

/-- The step jobs of a family are filed under its root, in the order of their numbers. -/
structure Numbered (rootJobId : JobId) (rows : List Job) : Prop where
  filed : ∀ row ∈ rows, row.parentId = some rootJobId
  ids : rows.map (·.id) = (List.range rows.length).map fun index => childId rootJobId (index + 1)

variable {rootJobId : JobId}

theorem Numbered.empty : Numbered rootJobId [] := ⟨by simp, rfl⟩

theorem Numbered.append {rows : List Job} {row : Job} (numbered : Numbered rootJobId rows)
    (filed : row.parentId = some rootJobId) (id : row.id = childId rootJobId (rows.length + 1)) :
    Numbered rootJobId (rows ++ [row]) := by
  constructor
  · intro other member
    rcases mem_append.mp member with old | new
    · exact numbered.filed other old
    · rw [mem_singleton.mp new, filed]
  · rw [map_append, numbered.ids, length_append, length_singleton,
      range_succ, map_append, map_singleton, map_singleton, id]

section

variable {db reached : JobsDb} {root : Job} {rows : List Job}

theorem Family.children (unfiled : Unfiled db root.id) (top : root.parentId = none)
    (numbered : Numbered root.id rows) (family : Family db root rows reached) :
    JobsDb.children reached root.id = rows := by
  have others : db.jobs.filter (·.parentId == some root.id) = [] := by
    rw [filter_eq_nil_iff]
    intro row member
    simpa using unfiled.childless row member
  have own : rows.filter (·.parentId == some root.id) = rows := by
    rw [filter_eq_self]
    intro row member
    simpa using numbered.filed row member
  rw [JobsDb.children, family.jobs, filter_append, others, filter_cons, top, own]
  simp

theorem Family.vacant (unfiled : Unfiled db root.id) (numbered : Numbered root.id rows)
    (family : Family db root rows reached) : reached.findJob (childId root.id (rows.length + 1)) = none := by
  rw [JobsDb.findJob, find?_eq_none, family.jobs]
  intro row member same
  rw [beq_iff_eq] at same
  rcases mem_append.mp member with old | new
  · exact unfiled.vacant row old _ same
  · rcases mem_cons.mp new with rfl | child
    · have lengths := congrArg (fun id => id.toList.length) same
      simp [childId] at lengths
    · have listed := mem_map_of_mem (f := (·.id)) child
      rw [numbered.ids, same] at listed
      obtain ⟨index, inRange, equal⟩ := mem_map.mp listed
      have number := childId_inj.mp equal
      have bound := mem_range.mp inRange
      omega

theorem insertJob_vacant {job : Job} (vacant : reached.findJob job.id = none) :
    Statement.effect (WorkflowStatement.insertJob job) reached =
      { reached with jobs := reached.jobs ++ [newJob reached.now job] } := by
  change WorkflowStatement.effect _ _ = _
  rw [WorkflowStatement.effect, vacant]
  rfl

theorem create_alone (job : Job) (vacant : reached.findJob job.id = none) : (create job).alone reached =
      (.ok (newJob reached.now job), { reached with jobs := reached.jobs ++ [newJob reached.now job] }) := by
  rw [create, alone_stmt, insertJob_vacant vacant, vacant]
  rfl

theorem Family.append (family : Family db root rows reached) (job : Job) :
    Family db root (rows ++ [newJob db.now job]) { reached with jobs := reached.jobs ++ [newJob reached.now job] } := by
  constructor
  · exact family.now
  · simp [family.jobs, family.now]
  · exact family.relations

variable {project : Project}

theorem generateChildJobId_alone (unfiled : Unfiled db root.id) (top : root.parentId = none)
    (numbered : Numbered root.id rows) (family : Family db root rows reached) {projectInput : String}
    (resolved : resolveProjectForJobId catalog.projects projectInput = .ok project) :
    (generateChildJobId catalog.projects projectInput root.id).alone reached =
      (.ok (childId root.id (rows.length + 1)), reached) := by
  have shallow : ¬ 3 ≤ hierarchyDepth root.id := Nat.not_le.mpr unfiled.shallow
  have sequence := nextChildSequence_numbered (family.children unfiled top numbered) numbered.ids
  rw [generateChildJobId, resolved]
  simp only [Call.ofExcept, ret_bind, shallow, if_false, alone_select_bind, sequence]
  rfl

theorem createStep_ends (unfiled : Unfiled db root.id) (top : root.parentId = none)
    (numbered : Numbered root.id rows) (family : Family db root rows reached)
    (resolved : resolveProjectForJobId catalog.projects context.project.id = .ok project)
    (entry : StepEntry) :
    (createStep catalog context root.id rows.length entry).Ends
      (fun result final =>
        match planStep catalog context entry with
        | .ok plan => result = .ok (createdStep root.id rows.length (entry, plan)) ∧
            Family db root (rows ++ [newJob db.now
              (stepJob context root.id (childId root.id (rows.length + 1)) rows.length entry plan)])
              final
        | .error failure => result = .error failure ∧ Family db root rows final) reached := by
  rw [Ends, createStep, alone_bind, generateChildJobId_alone unfiled top numbered family resolved]
  cases planned : planStep catalog context entry with
  | error failure => exact ⟨rfl, family⟩
  | ok plan =>
    have created := create_alone (stepJob context root.id
      (childId root.id (rows.length + 1)) rows.length entry plan) (family.vacant unfiled numbered)
    simp only [Call.ofExcept, ret_bind, alone_bind, created]
    exact ⟨rfl, family.append _⟩

theorem createSteps_ends (unfiled : Unfiled db root.id) (top : root.parentId = none)
    (resolved : resolveProjectForJobId catalog.projects context.project.id = .ok project)
    (entries : List StepEntry) (numbered : Numbered root.id rows)
    (family : Family db root rows reached) :
    (createSteps catalog context root.id rows.length entries).Ends
      (fun result final =>
        match planSteps catalog context entries with
        | .ok planned => result = .ok (createdSteps root.id rows.length planned) ∧
            Family db root (rows ++ stepRows context root.id db.now rows.length planned) final
        | .error failure => result = .error failure ∧
            ∃ created, Family db root created final) reached := by
  induction entries generalizing rows reached with
  | nil =>
    have start : Family db root (rows ++ []) reached := by simpa using family
    exact ⟨rfl, start⟩
  | cons entry rest ih =>
    have first := createStep_ends unfiled top numbered family resolved entry
    rw [createSteps, planSteps_cons]
    refine first.bind ?_ ?_
    · intro created middle creation
      cases planned : planStep catalog context entry with
      | error failure =>
        rw [planned] at creation
        cases creation.1
      | ok plan =>
        rw [planned] at creation
        obtain ⟨same, family⟩ := creation
        cases same
        have later := ih (numbered.append rfl rfl) family
        rw [length_append, length_singleton] at later
        refine later.bind ?_ ?_
        · intro others final ending
          cases remaining : planSteps catalog context rest with
          | error failure =>
            rw [remaining] at ending
            cases ending.1
          | ok planned =>
            rw [remaining] at ending
            obtain ⟨same, family⟩ := ending
            cases same
            refine ⟨rfl, ?_⟩
            rwa [append_assoc] at family
        · intro failure final ending
          cases remaining : planSteps catalog context rest with
          | error failure =>
            rw [remaining] at ending
            exact ending
          | ok planned =>
            rw [remaining] at ending
            cases ending.1
    · intro failure middle creation
      cases planned : planStep catalog context entry with
      | error failure =>
        rw [planned] at creation
        obtain ⟨same, family⟩ := creation
        cases same
        exact ⟨rfl, rows, family⟩
      | ok plan =>
        rw [planned] at creation
        cases creation.1

end

def Failure.Plain (failure : Failure) : Prop := failure.rejects = false

theorem addDependency_raises (fromId toId : JobId) (relationType : Jobs.RelationType) :
    (addDependency fromId toId relationType).Raises Failure.Plain := by
  intro found again
  simp only [bind_eq, ret_bind]
  split
  · rfl
  · split
    · rfl
    · exact fun _ => trivial

theorem releaseStep_raises (stepJob : WorkflowStepJob) : (releaseStep stepJob).Raises Failure.Plain := by
  have plain : ∀ message, (Failure.error message).Plain := fun _ => rfl
  have updates : (onJobs (Jobs.updatePhase stepJob.jobId .ready)).Raises Failure.Plain := raises_mapError plain _
  refine updates.bind fun released => ?_
  split
  · trivial
  · rfl

theorem poll_raises (rootJobId : JobId) (stepJobIds : List JobId) (rounds : Nat) :
    (pollStepJobsForCompletion rootJobId stepJobIds rounds).Raises Failure.Plain := by
  induction rounds with
  | zero => rfl
  | succ rounds ih =>
    intro found
    simp only [bind_eq, ret_bind]
    split
    · trivial
    · exact ih

variable {created : List WorkflowStepJob}

theorem jobNamed_isSome {name : String} (listed : name ∈ created.map (·.stepName)) :
    ∃ jobId, jobNamed created name = some jobId := by
  obtain ⟨stepJob, member, same⟩ := mem_map.mp listed
  have found : (created.reverse.find? (·.stepName == name)).isSome := by
    rw [find?_isSome]
    exact ⟨stepJob, mem_reverse.mpr member, by simp [same]⟩
  obtain ⟨first, same⟩ := Option.isSome_iff_exists.mp found
  exact ⟨first.jobId, by rw [jobNamed, same]; rfl⟩

theorem wireStep_raises (closed : ∀ dependency ∈ entry.2.dependencies, dependency ∈ created.map (·.stepName)) :
    (wireStep created entry).Raises Failure.Plain := by
  unfold wireStep
  split
  · trivial
  · next jobId _ =>
      refine Call.Raises.forEach fun dependency member => ?_
      obtain ⟨other, named⟩ := jobNamed_isSome (closed dependency member)
      simp only [named]
      exact addDependency_raises jobId other .blocks

theorem answer_raises (rootJobId : JobId) (created : List WorkflowStepJob) (wait : Option Nat) :
    (answer rootJobId created wait).Raises Failure.Plain := by
  cases wait with
  | none => trivial
  | some rounds => exact poll_raises rootJobId _ rounds

theorem connect_raises (wellFormed : WellFormed context) (rootJobId : JobId) (index : Nat)
    (all : planned.map Prod.fst = context.steps) :
    (connect context (createdSteps rootJobId index planned)).Raises Failure.Plain := by
  have names : (createdSteps rootJobId index planned).map (·.stepName) = context.steps.map fun entry => entry.1.1 := by
    rw [createdSteps_names, ← all, map_map]
    rfl
  have wired : (Call.forEach (context.steps.map Prod.fst)
      (wireStep (createdSteps rootJobId index planned))).Raises Failure.Plain := by
    apply Call.Raises.forEach
    intro step member
    obtain ⟨entry, listed, rfl⟩ := mem_map.mp member
    apply wireStep_raises
    intro dependency depends
    exact names ▸ wellFormed.closed entry listed dependency depends
  exact wired.bind fun _ => Call.Raises.forEach fun stepJob _ => releaseStep_raises stepJob

def rootRow (rootIds : RootIds) (context : Invocation) (project : Project) (db : JobsDb) : Job :=
  newJob db.now (rootJob context (rootIds.draw project.slug db))

theorem expand_alone (rootIds : RootIds) {project : Project}
    (resolved : resolveProjectForJobId catalog.projects context.project.id = .ok project)
    (wait : Option Nat) (db : JobsDb) : ∃ reached, Family db (rootRow rootIds context project db) [] reached ∧
      (expand catalog rootIds context wait).alone db =
        (createSteps catalog context (rootRow rootIds context project db).id 0 context.steps >>=
          fun created => connect context created >>= fun _ =>
            answer (rootRow rootIds context project db).id created wait).alone reached := by
  have vacant : db.findJob (rootIds.draw project.slug db) = none := by
    rw [JobsDb.findJob, find?_eq_none]
    intro row member
    simpa using (rootIds.unfiled project.slug db).unused row member
  have created := create_alone (rootJob context (rootIds.draw project.slug db)) vacant
  refine ⟨{ db with jobs := db.jobs ++ [rootRow rootIds context project db] }, ⟨rfl, rfl, rfl⟩, ?_⟩
  rw [expand, generateRootJobId, resolved]
  simp only [Call.ofExcept, ret_bind, alone_select_bind]
  rw [alone_bind, created]
  rfl

end EveHorizon.Workflows
