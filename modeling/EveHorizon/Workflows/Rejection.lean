import EveHorizon.Workflows.Expansion
import Mathlib.Data.List.MinMax
import Mathlib.Order.Nat

/-!
# Rejected invocations

Some of the checks of a step are made after the root job and the jobs of earlier steps
exist.
-/

namespace EveHorizon.Workflows

open Interleaving
open Jobs (JobId Job JobsDb)

variable {catalog : Catalog} {context : Invocation}

def Placed (catalog : Catalog) (context : Invocation) : Prop :=
  ∃ project, resolveProjectForJobId catalog.projects context.project.id = .ok project

def RejectedStep (catalog : Catalog) (context : Invocation) : Prop :=
  ∃ earlier entry later, context.steps = earlier ++ entry :: later ∧
    (∀ other ∈ earlier, StepPasses catalog context other) ∧ StepRejected catalog context entry

def AllOrNothing {α : Type} (call : WorkflowCall α) (db : JobsDb) : Prop :=
  ∀ failure reached, call.alone db = (.error failure, reached) → failure.rejects = true →
    reached.jobs = db.jobs ∧ reached.relations = db.relations

variable {db : JobsDb}

theorem Family.grows {reached : JobsDb} {root : Job} {rows : List Job} (family : Family db root rows reached) :
    reached.jobs ≠ db.jobs := by
  intro same
  have lengths := congrArg List.length (family.jobs.symm.trans same)
  simp at lengths

/-- How expanding a workflow ends is decided by the checks of its steps. -/
def EndsAsPlanned (catalog : Catalog) (context : Invocation) (db : JobsDb)
    (result : Except Failure WorkflowInvokeResult) (final : JobsDb) : Prop :=
  match planSteps catalog context context.steps with
  | .ok _ => ∀ failure, result = .error failure → failure.Plain
  | .error failure => result = .error failure ∧ final.jobs ≠ db.jobs

theorem expand_ends (rootIds : RootIds) (wait : Option Nat) (db : JobsDb) {project : Project}
    (wellFormed : WellFormed context)
    (resolved : resolveProjectForJobId catalog.projects context.project.id = .ok project) :
    (expand catalog rootIds context wait).Ends (EndsAsPlanned catalog context db) db := by
  obtain ⟨rooted, family, expanded⟩ := expand_alone rootIds resolved wait db
  have unfiled : Unfiled db (rootRow rootIds context project db).id := rootIds.unfiled project.slug db
  have steps := createSteps_ends unfiled rfl resolved context.steps Numbered.empty family
  rw [Call.Ends, expanded]
  change Call.Ends (EndsAsPlanned catalog context db) _ rooted
  refine steps.bind ?_ ?_
  · intro created final creation
    rw [Call.Ends, EndsAsPlanned]
    cases planned : planSteps catalog context context.steps with
    | error failure =>
      rw [planned] at creation
      cases creation.1
    | ok plans =>
      rw [planned] at creation
      obtain ⟨same, _⟩ := creation
      cases same
      intro failure failed
      have connects := connect_raises wellFormed (rootRow rootIds context project db).id 0 (planSteps_fst planned)
      have whole := connects.bind fun _ => answer_raises (rootRow rootIds context project db).id
        (createdSteps (rootRow rootIds context project db).id 0 plans) wait
      exact whole.error (Prod.ext failed rfl)
  · intro failure final creation
    rw [EndsAsPlanned]
    cases planned : planSteps catalog context context.steps with
    | error failed =>
      rw [planned] at creation
      obtain ⟨same, created, family⟩ := creation
      cases same
      exact ⟨rfl, family.grows⟩
    | ok plans =>
      rw [planned] at creation
      cases creation.1

theorem expand_allOrNothing_iff {rootIds : RootIds} {wait : Option Nat} (wellFormed : WellFormed context) :
    AllOrNothing (expand catalog rootIds context wait) db ↔
      ¬ (Placed catalog context ∧ RejectedStep catalog context) := by
  have rejected := planSteps_rejected catalog context wellFormed.conforming
  cases resolved : resolveProjectForJobId catalog.projects context.project.id with
  | error failure =>
    have unplaced : ¬ Placed catalog context := by
      rintro ⟨project, same⟩
      cases resolved.symm.trans same
    have alone : (expand catalog rootIds context wait).alone db = (.error failure, db) := by
      rw [expand, generateRootJobId, resolved]
      rfl
    constructor
    · intro _ placed
      exact unplaced placed.1
    · rintro _ other reached ended _
      cases alone.symm.trans ended
      exact ⟨rfl, rfl⟩
  | ok project =>
    have placed : Placed catalog context := ⟨project, resolved⟩
    have ends := expand_ends rootIds wait db wellFormed resolved
    rw [Call.Ends, EndsAsPlanned] at ends
    cases planned : planSteps catalog context context.steps with
    | ok plans =>
      rw [planned] at ends rejected
      constructor
      · rintro _ ⟨_, step⟩
        obtain ⟨_, failed, _⟩ := rejected.mpr step
        cases failed
      · intro _ failure reached ended rejects
        rw [ended] at ends
        rw [ends failure rfl] at rejects
        cases rejects
    | error failure =>
      rw [planned] at ends rejected
      constructor
      · rintro unchanged ⟨_, step⟩
        obtain ⟨_, same, rejects⟩ := rejected.mpr step
        cases same
        exact ends.2 (unchanged failure _ (Prod.ext ends.1 rfl) rejects).1
      · intro accepted other reached ended rejects
        rw [ended] at ends
        cases ends.1
        exact absurd ⟨placed, rejected.mp ⟨failure, rfl, rejects⟩⟩ accepted

/-- An invocation that is rejected leaves nothing behind exactly when it is not a step, all
earlier steps having passed, that is rejected after the root job exists. -/
theorem invoke_allOrNothing_iff (catalog : Catalog) (rootIds : RootIds)
    (projectId workflowName : String) (request : WorkflowInvokeRequest) (userId : Option String)
    (wait : Option Nat) (db : JobsDb) :
    AllOrNothing (invoke catalog rootIds projectId workflowName request userId wait) db ↔
      ∀ context, prepare catalog projectId workflowName request userId = .ok context →
        ¬ (Placed catalog context ∧ RejectedStep catalog context) := by
  rw [AllOrNothing, invoke]
  cases prepared : prepare catalog projectId workflowName request userId with
  | error failure =>
    simp only [alone_select_bind, Call.ofExcept, Call.raise_bind, Call.alone_raise]
    constructor
    · rintro _ context ⟨⟩
    · rintro _ failure reached ⟨⟩ _
      exact ⟨rfl, rfl⟩
  | ok context =>
    simp only [alone_select_bind, Call.ofExcept, Call.ret_bind, Except.ok.injEq, forall_eq']
    exact expand_allOrNothing_iff (prepare_wellFormed prepared)

def longId (db : JobsDb) : JobId :=
  String.ofList (List.replicate
    ((db.jobs.flatMap fun row => [row.id.length, (row.parentId.getD "").length]).foldr max 0 + 1) 'r')

theorem length_lt_longId {row : Job} (member : row ∈ db.jobs) :
    row.id.length < (longId db).length ∧ (row.parentId.getD "").length < (longId db).length := by
  have size : (longId db).length = (db.jobs.flatMap fun row =>
      [row.id.length, (row.parentId.getD "").length]).foldr max 0 + 1 := by
    simp [longId]
  have bounded : ∀ length ∈ [row.id.length, (row.parentId.getD "").length], length < (longId db).length := by
    intro length listed
    rw [size, Nat.lt_succ_iff]
    refine List.le_max_of_le ?_ le_rfl
    exact List.mem_flatMap.mpr ⟨row, member, listed⟩
  exact ⟨bounded _ (by simp), bounded _ (by simp)⟩

theorem longId_unfiled (db : JobsDb) : Unfiled db (longId db) := by
  constructor
  · rintro row member same
    exact absurd (congrArg String.length same) (length_lt_longId member).1.ne
  · rintro row member same
    have shorter := (length_lt_longId member).2
    simp [same] at shorter
  · rintro row member sequence same
    have shorter := (length_lt_longId member).1
    rw [same, childId, String.length_append, String.length_append] at shorter
    omega
  · have undotted : (longId db).toList.count '.' = 0 := by
      simp [longId, List.count_replicate]
    rw [hierarchyDepth, undotted]
    decide

def longIds : RootIds where
  draw _ db := longId db
  unfiled _ := longId_unfiled

def misspelled : AcceptedWorkflow where
  val :=
    { steps := some [{ name := some "build", run := some "make" },
        { name := some "ship", run := some "make ship", permissions := some ["jobs:reed"] }] }
  property := by decide +kernel

def misspelledCatalog : Catalog where
  projects := [{ id := "proj_1", slug := "shop", orgId := "org_1" }]
  orgs := ["org_1"]
  workflows _ := some (.ok [("release", .valid misspelled)])
  appLinks _ := []
  agents _ := []
  agentToolchains _ _ := .absent
  grants := none
  isValidPermission := (· == "jobs:read")
  profiles _ := { digest := fun _ _ => "" }
  resourceRef _ := .error "Required"
  issuesMessage _ := "invalid"

theorem misspelled_leaves_jobs :
    ¬ AllOrNothing (invoke misspelledCatalog longIds "proj_1" "release" {} none none) {} := by
  intro unchanged
  have rejected : ((invoke misspelledCatalog longIds "proj_1" "release" {} none none).alone {}).1 =
      .error (.badRequest ("Invalid Workflow \"release\" step \"ship\".permissions: " ++
        "unknown permission(s) jobs:reed")) := by
    decide +kernel
  have left : ((invoke misspelledCatalog longIds "proj_1" "release" {} none none).alone {}).2.jobs.map
      (·.id) = ["r", "r.1"] := by
    decide +kernel
  have same := (unchanged _ _ (Prod.ext rejected rfl) rfl).1
  rw [same] at left
  cases left

end EveHorizon.Workflows
