import EveHorizon.Workflows.TemplateValidation
import EveHorizon.Workflows.Validation

/-!
# Coherence of manifests

The part of the lint that looks at step graphs.
-/

namespace EveHorizon.Workflows

open List
open Pipelines (PipelineDefinition PipelineStep)
open Precedence (Acyclic)

structure Manifest where
  pipelines : List (Text × PipelineDefinition)
  workflows : List (Text × AcceptedWorkflow)
  pipelines_distinct : (pipelines.map Prod.fst).Nodup
  workflows_distinct : (workflows.map Prod.fst).Nodup

def stepRecord (step : PipelineStep) : WorkflowStep where
  name := step.name
  dependsOn := step.dependsOn

def pipelineSteps (definition : PipelineDefinition) : List WorkflowStep :=
  (definition.steps.getD []).map stepRecord

def workflowSteps (definition : AcceptedWorkflow) : List WorkflowStep := definition.val.steps.getD []

def Manifest.allWorkflowsAndPipelines (manifest : Manifest) : List (Text × List WorkflowStep) :=
  spread (manifest.pipelines.map fun entry => (entry.1, pipelineSteps entry.2))
    (manifest.workflows.map fun entry => (entry.1, workflowSteps entry.2))

structure ManifestCoherenceWarning where
  code : String
  message : String

def lintNames (workflow : String) (stepNames : List String) :
    List (String × WorkflowStep) → List ManifestCoherenceWarning
  | [] => []
  | (stepName, _) :: rest =>
    (if stepNames.contains stepName then
      [⟨"workflow_duplicate_step", workflow ++ " has duplicate step name \"" ++ stepName ++ "\"."⟩]
    else []) ++ lintNames workflow (stepName :: stepNames) rest

variable (workflow : String)

def lintDependencies (stepNames : List String) (entry : String × WorkflowStep) : List ManifestCoherenceWarning :=
  (entry.2.dependencies.filter (!stepNames.contains ·)).map fun dep =>
    ⟨"workflow_invalid_dep", workflow ++ " step \"" ++ entry.1 ++ "\" depends on nonexistent step \"" ++ dep ++ "\"."⟩

def lintedMap (entries : List (String × WorkflowStep)) : DependencyMap :=
  entries.reverse.map fun entry => (entry.1, entry.2.dependencies)

def lintCycle (entries : List (String × WorkflowStep)) : List ManifestCoherenceWarning :=
  ((detectCycle (entries.map Prod.fst) (lintedMap entries)).map fun cycle =>
    ⟨"workflow_cycle", workflow ++ " has a dependency cycle: " ++ " -> ".intercalate cycle ++ "."⟩).toList

def lintCondition (stepNames : List String) (entry : String × WorkflowStep) : List ManifestCoherenceWarning :=
  match entry.2.condition with
  | none => []
  | some condition =>
    let path := workflow ++ " step \"" ++ entry.1 ++ "\""
    match parseStepCondition condition with
    | none => [⟨"workflow_invalid_condition", path ++ " has invalid condition \"" ++ condition ++
        "\". Expected format: step_name.status == 'value' or step_name.status != 'value'."⟩]
    | some parsed =>
      if !stepNames.contains parsed.stepName then
        [⟨"workflow_condition_unknown_step", path ++ " condition references nonexistent step \"" ++
          parsed.stepName ++ "\"."⟩]
      else if !entry.2.dependencies.contains parsed.stepName then
        [⟨"workflow_condition_not_dependency", path ++ " condition references step \"" ++
          parsed.stepName ++ "\" which is not in its depends_on list. " ++ "The condition step must be a dependency."⟩]
      else []

def lintGraph (name : Text) (steps : List WorkflowStep) : List ManifestCoherenceWarning :=
  let workflow := "Workflow \"" ++ String.ofList name ++ "\""
  let entries := namedSteps steps
  lintNames workflow [] entries ++ entries.flatMap (lintDependencies workflow (stepNames steps)) ++
    lintCycle workflow entries ++ entries.flatMap (lintCondition workflow (stepNames steps))

def analyzeManifestCoherence (manifest : Manifest) : List ManifestCoherenceWarning :=
  manifest.allWorkflowsAndPipelines.flatMap fun entry => lintGraph entry.1 entry.2

structure Coherent (steps : List WorkflowStep) : Prop where
  distinct : (stepNames steps).Nodup
  known : ∀ entry ∈ namedSteps steps, ∀ dependency ∈ entry.2.dependencies, dependency ∈ stepNames steps
  acyclic : Acyclic (StepDependsOn (namedSteps steps))
  conditioned : ∀ entry ∈ namedSteps steps, ∀ condition, entry.2.condition = some condition →
    ∃ parsed, parseStepCondition condition = some parsed ∧ parsed.stepName ∈ entry.2.dependencies

section

variable {workflow : String} {steps : List WorkflowStep} {entries : List (String × WorkflowStep)}
  {entry : String × WorkflowStep} {names : List String}

theorem lintNames_eq_nil : lintNames workflow names entries = [] ↔
      (entries.map Prod.fst).Nodup ∧ ∀ name ∈ names, name ∉ entries.map Prod.fst := by
  induction entries generalizing names with
  | nil => simp [lintNames]
  | cons entry rest ih =>
    rw [lintNames, append_eq_nil_iff, ih, map_cons, nodup_cons]
    by_cases seen : entry.1 ∈ names
    · simp only [contains_iff_mem, seen, if_true, cons_ne_nil, false_and, false_iff]
      exact fun ⟨_, apart⟩ => apart entry.1 seen mem_cons_self
    · simp only [contains_iff_mem, seen, if_false, true_and, forall_mem_cons]
      constructor
      · rintro ⟨distinct, fresh, apart⟩
        exact ⟨⟨fresh, distinct⟩, fun name member =>
          not_mem_cons_of_ne_of_not_mem (fun same => seen (same ▸ member)) (apart name member)⟩
      · rintro ⟨⟨fresh, distinct⟩, apart⟩
        exact ⟨distinct, fresh, fun name member => not_mem_of_not_mem_cons (apart name member)⟩

theorem mem_lintedMap {name dependency : String} (depends : dependency ∈ (lintedMap entries).get name) :
    StepDependsOn entries name dependency := by
  rw [DependencyMap.get] at depends
  cases found : (lintedMap entries).lookup name with
  | none =>
    rw [found] at depends
    cases depends
  | some listed =>
    rw [found] at depends
    obtain ⟨entry, member, same⟩ := mem_map.mp (Table.mem_of_lookup found)
    cases same
    exact ⟨entry, mem_reverse.mp member, rfl, depends⟩

theorem lintedMap_get (distinct : (entries.map Prod.fst).Nodup) (member : entry ∈ entries) :
    (lintedMap entries).get entry.1 = entry.2.dependencies := by
  have names : ((lintedMap entries).map Prod.fst).Nodup := by
    rw [lintedMap, map_map, map_reverse]
    exact nodup_reverse.mpr distinct
  rw [DependencyMap.get, Table.lookup_of_mem names (mem_map.mpr ⟨entry, mem_reverse.mpr member, rfl⟩)]
  rfl

theorem lintCycle_eq_nil (distinct : (entries.map Prod.fst).Nodup)
    (known : ∀ entry ∈ entries, ∀ dependency ∈ entry.2.dependencies, dependency ∈ entries.map Prod.fst) :
    lintCycle workflow entries = [] ↔ Acyclic (StepDependsOn entries) := by
  rw [lintCycle, Option.toList_eq_nil_iff, Option.map_eq_none_iff]
  constructor
  · intro none node returns
    refine detectCycle_none none node (Relation.TransGen.mono ?_ node node returns)
    rintro _ dependency ⟨entry, member, rfl, depends⟩
    exact ⟨mem_map_of_mem member, known entry member dependency depends, (lintedMap_get distinct member).symm ▸ depends⟩
  · intro acyclic
    by_contra found
    obtain ⟨cycle, isCycle⟩ := Option.ne_none_iff_exists'.mp found
    obtain ⟨node, returns⟩ := (searchCycle_closes isCycle).returns
    exact acyclic node (Relation.TransGen.mono (fun _ _ => mem_lintedMap) node node returns)

theorem lintDependencies_eq_nil :
    lintDependencies workflow names entry = [] ↔ ∀ dependency ∈ entry.2.dependencies, dependency ∈ names := by
  simp [lintDependencies]

theorem lintCondition_eq_nil (known : ∀ dependency ∈ entry.2.dependencies, dependency ∈ names) :
    lintCondition workflow names entry = [] ↔ ∀ condition, entry.2.condition = some condition →
        ∃ parsed, parseStepCondition condition = some parsed ∧ parsed.stepName ∈ entry.2.dependencies := by
  refine Iff.trans (b := checkCondition workflow names entry = .ok ()) ?_ (checkCondition_eq_ok known)
  rw [lintCondition, checkCondition]
  cases entry.2.condition with
  | none => simp
  | some condition =>
    dsimp only
    cases parseStepCondition condition with
    | none => simp
    | some parsed =>
      dsimp only
      split
      · simp
      · split <;> simp

theorem lintGraph_eq_nil {name : Text} : lintGraph name steps = [] ↔ Coherent steps := by
  simp only [lintGraph, append_eq_nil_iff, flatMap_eq_nil_iff, lintNames_eq_nil, lintDependencies_eq_nil]
  constructor
  · rintro ⟨⟨⟨⟨distinct, _⟩, known⟩, cycle⟩, conditions⟩
    exact ⟨distinct, known, (lintCycle_eq_nil distinct known).mp cycle, fun entry member =>
      (lintCondition_eq_nil (known entry member)).mp (conditions entry member)⟩
  · intro coherent
    exact ⟨⟨⟨⟨coherent.distinct, nofun⟩, coherent.known⟩,
      (lintCycle_eq_nil coherent.distinct coherent.known).mpr coherent.acyclic⟩, fun entry member =>
        (lintCondition_eq_nil (coherent.known entry member)).mpr (coherent.conditioned entry member)⟩

theorem coherent_iff_validates {definition : AcceptedWorkflow} :
    Coherent (workflowSteps definition) ↔ validateStepGraph workflow (workflowSteps definition) = .ok () := by
  rw [validateStepGraph_eq_ok]
  constructor
  · rintro ⟨distinct, known, acyclic, conditioned⟩
    refine ⟨distinct, fun entry member => executionKeyCount_eq_one.mp ?_, known, acyclic, conditioned⟩
    have conforms := definition.property
    simp only [WorkflowDefinition.conforms, Bool.and_eq_true] at conforms
    have step := all_eq_true.mp conforms.1.1.1.1.1 _ (mem_of_mem_namedSteps member)
    simp only [WorkflowStep.conforms, Bool.and_eq_true, beq_iff_eq] at step
    exact step.1.1.1.1.1.1.1
  · rintro ⟨distinct, _, known, acyclic, conditioned⟩
    exact ⟨distinct, known, acyclic, conditioned⟩

end

theorem mem_spread_iff {α : Type} {base overriding : List (Text × α)} {entry : Text × α}
    (distinct : (overriding.map Prod.fst).Nodup) :
    entry ∈ spread base overriding ↔ entry ∈ overriding ∨ entry ∈ base ∧ entry.1 ∉ overriding.map Prod.fst := by
  have missing : ∀ name, overriding.lookup name = none ↔ name ∉ overriding.map Prod.fst := by
    intro name
    rw [lookup_eq_none_iff]
    constructor
    · intro apart member
      obtain ⟨entry, listed, same⟩ := mem_map.mp member
      exact bne_iff_ne.mp (apart entry listed) same.symm
    · intro absent entry listed
      exact bne_iff_ne.mpr fun same => absent (same ▸ mem_map_of_mem listed)
  rw [spread, mem_append, mem_map, mem_filter]
  constructor
  · rintro (⟨old, listed, rfl⟩ | ⟨listed, _⟩)
    · cases found : overriding.lookup old.1 with
      | none => exact .inr ⟨listed, (missing old.1).mp found⟩
      | some value => exact .inl (Table.mem_of_lookup found)
    · exact .inl listed
  · rintro (listed | ⟨listed, kept⟩)
    · by_cases named : entry.1 ∈ base.map Prod.fst
      · obtain ⟨old, isOld, same⟩ := mem_map.mp named
        have found := Table.lookup_of_mem distinct listed
        exact .inl ⟨old, isOld, by rw [same, found]; rfl⟩
      · exact .inr ⟨listed, by simpa using named⟩
    · exact .inl ⟨entry, listed, by rw [(missing entry.1).mpr kept]; rfl⟩

variable (manifest : Manifest)

def Manifest.names : List Text := manifest.workflows.map Prod.fst

/-- A pipeline or a workflow of the manifest has a defect in its step graph; that of a workflow is
one that its invocation rejects. -/
def Manifest.Defective : Prop :=
  (∃ entry ∈ manifest.pipelines, ¬ Coherent (pipelineSteps entry.2)) ∨ ∃ entry ∈ manifest.workflows,
      validateStepGraph (String.ofList entry.1) (workflowSteps entry.2) ≠ .ok ()

/-- The same, of the definitions that no workflow of their name hides. -/
def Manifest.VisiblyDefective : Prop :=
  (∃ entry ∈ manifest.pipelines, entry.1 ∉ manifest.names ∧ ¬ Coherent (pipelineSteps entry.2)) ∨
    ∃ entry ∈ manifest.workflows, validateStepGraph (String.ofList entry.1) (workflowSteps entry.2) ≠ .ok ()

def Manifest.HidesDefect : Prop :=
  ∃ entry ∈ manifest.pipelines, entry.1 ∈ manifest.names ∧ ¬ Coherent (pipelineSteps entry.2)

def LintAgrees : Prop := analyzeManifestCoherence manifest ≠ [] ↔ manifest.Defective

section

variable {manifest : Manifest}

theorem lint_reports_iff : analyzeManifestCoherence manifest ≠ [] ↔ manifest.VisiblyDefective := by
  have names : (manifest.workflows.map fun entry => (entry.1, workflowSteps entry.2)).map Prod.fst =
      manifest.names := by
    rw [map_map, Manifest.names]
    rfl
  have distinct : ((manifest.workflows.map fun entry =>
      (entry.1, workflowSteps entry.2)).map Prod.fst).Nodup := by
    rw [names]
    exact manifest.workflows_distinct
  rw [analyzeManifestCoherence, Ne, flatMap_eq_nil_iff]
  simp only [lintGraph_eq_nil, Manifest.allWorkflowsAndPipelines, mem_spread_iff distinct, names]
  push Not
  constructor
  · rintro ⟨_, listed | ⟨listed, visible⟩, defect⟩
    · obtain ⟨entry, isWorkflow, rfl⟩ := mem_map.mp listed
      exact .inr ⟨entry, isWorkflow, mt coherent_iff_validates.mpr defect⟩
    · obtain ⟨entry, isPipeline, rfl⟩ := mem_map.mp listed
      exact .inl ⟨entry, isPipeline, visible, defect⟩
  · rintro (⟨entry, isPipeline, visible, defect⟩ | ⟨entry, isWorkflow, rejected⟩)
    · exact ⟨_, .inr ⟨mem_map_of_mem isPipeline, visible⟩, defect⟩
    · exact ⟨_, .inl (mem_map_of_mem isWorkflow), mt coherent_iff_validates.mp rejected⟩

end

def hiddenDefect : Manifest where
  pipelines := [("ship".toList, { steps := some [{ run := some "make", dependsOn := some ["build"] }] })]
  workflows := [("ship".toList, ⟨{ steps := some [{ run := some "make" }] }, by decide +kernel⟩)]
  pipelines_distinct := nodup_singleton _
  workflows_distinct := nodup_singleton _

end EveHorizon.Workflows
