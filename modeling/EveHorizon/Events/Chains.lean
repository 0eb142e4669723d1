import EveHorizon.Events.Triggers
import EveHorizon.Library.Cascades

/-!
# Chains of triggers

Runs emit events when their jobs end or fail, the events trigger further runs.
-/

namespace EveHorizon.Events

open Precedence List

/-- A run with its place in the tree of runs: its number among the runs of its event, the
number of the event among those of the run before, and so on. -/
structure Run where
  place : List Nat
  target : Target
  gitSha : Option String

/-- The events of a run: a job that fails, an attempt that completes, well or not, and a
pipeline run that fails. -/
inductive Emission where
  | jobFailed
  | attemptCompleted
  | pipelineFailed (envName : Option String)
  deriving DecidableEq

def systemEvent (id : EventId) (projectId type : String) (envName refSha : Option String)
    (pipelineName : Option String) : Event where
  id := id
  projectId := projectId
  type := type
  source := "system"
  envName := envName
  refSha := refSha
  refBranch := none
  actorType := some "system"
  actorId := some "orchestrator"
  payload := some { action := none, pullRequest := none, repositoryFullName := none,
                    pipelineName := pipelineName }
  dedupeKey := none
  jobId := none
  status := .pending
  processedAt := none
  createdAt := 0
  updatedAt := 0

variable (manifest : Manifest)

def Manifest.hints (workflow : String) : DefinitionHints :=
  ((manifest.workflows.find workflow).map (·.2.hints)).getD {}

def Run.jobCommit (run : Run) : Option String :=
  match run.target.type with
  | .pipeline => run.gitSha
  | .workflow => (manifest.hints run.target.name).gitSha

def Run.jobPipelineName (run : Run) : Option String :=
  match run.target.type with
  | .pipeline => some run.target.name
  | .workflow => (manifest.hints run.target.name).pipelineName

def Run.event (projectId : String) (run : Run) (id : EventId) : Emission → Option Event
  | .jobFailed =>
    some (systemEvent id projectId "system.job.failed" none (run.jobCommit manifest) (run.jobPipelineName manifest))
  | .attemptCompleted =>
    some (systemEvent id projectId "system.job.attempt.completed" none (run.jobCommit manifest) none)
  | .pipelineFailed envName =>
    match run.target.type with
    | .pipeline =>
      some (systemEvent id projectId "system.pipeline.failed" envName run.gitSha (some run.target.name))
    | .workflow => none

/-- An API that takes requests by their paths and starts runs of what the manifest
defines. -/
structure Addressing (manifest : Manifest) where
  pipelineAt : String → Option String
  workflowAt : String → Option String
  pipeline_mem : ∀ path name, pipelineAt path = some name → name ∈ manifest.pipelines.rows.map Prod.fst
  workflow_mem : ∀ path name, workflowAt path = some name → name ∈ manifest.workflows.rows.map Prod.fst

def Addressing.api {manifest : Manifest} (addressing : Addressing manifest) : InternalApi where
  startsPipeline request := addressing.pipelineAt request.path
  startsWorkflow request := addressing.workflowAt request.path

section

variable {manifest : Manifest} (addressing : Addressing manifest) (project : Option Project)

/-- The definitions that one processing of an event starts runs of, in order: those of the
rows in `alone_processEvent`. -/
def startedTargets (event : Event) : List Target :=
  (fired addressing.api event (manifestTriggers project (some manifest) event).1).map Prod.snd

def startedRuns (event : Event) (place : List Nat) : List Run :=
  (startedTargets addressing project event).zipIdx.map fun (target, number) =>
    { place := number :: place, target, gitSha := event.refSha }

def nextRuns (projectId : String) (newId : List Nat → EventId) (behaviour : Run → List Emission)
    (run : Run) : List Run :=
  (behaviour run).zipIdx.flatMap fun (emission, number) =>
    match run.event manifest projectId (newId (number :: run.place)) emission with
    | none => []
    | some event => startedRuns addressing project event (number :: run.place)

def runsOf (newId : List Nat → EventId) (behaviour : Run → List Emission) (event : Event) : Set Run :=
  ⋃ first ∈ {first | first ∈ startedRuns addressing project event []},
    Cascade (nextRuns addressing project event.projectId newId behaviour) first

def Run.Possible (run : Run) : Prop := run.target.type = .pipeline → (truthy run.gitSha).isSome = true

def Leads (projectId : String) (target next : Target) : Prop :=
  ∃ run : Run, run.Possible ∧ run.target = target ∧
    ∃ id emission event, run.event manifest projectId id emission = some event ∧
      next ∈ startedTargets addressing project event

variable {event : Event}

theorem fired_congr {other : Event} (commits : (truthy event.refSha).isSome = (truthy other.refSha).isSome)
    (found : List TriggerMatch) : fired addressing.api event found = fired addressing.api other found := by
  induction found with
  | nil => rfl
  | cons trigger rest ih =>
    unfold fired
    rw [ih]
    obtain ⟨type, name, projectId, envName⟩ := trigger
    cases type with
    | workflow => rfl
    | pipeline =>
      unfold requestFor
      dsimp only
      cases own : truthy event.refSha with
      | none =>
        rw [own] at commits
        rw [Option.isSome_eq_false_iff.mp commits.symm |> Option.isNone_iff_eq_none.mp]
        rfl
      | some sha =>
        rw [own] at commits
        obtain ⟨otherSha, same⟩ := Option.isSome_iff_exists.mp commits.symm
        rw [same]
        rfl

theorem startedTargets_systemEvent (id other : EventId) (projectId type : String)
    (envName otherEnv : Option String) {refSha otherSha : Option String}
    (commits : (truthy refSha).isSome = (truthy otherSha).isSome) (pipelineName : Option String) :
    startedTargets addressing project (systemEvent id projectId type envName refSha pipelineName) =
      startedTargets addressing project (systemEvent other projectId type otherEnv otherSha pipelineName) := by
  have found : manifestTriggers project (some manifest) (systemEvent id projectId type envName refSha pipelineName) =
      manifestTriggers project (some manifest)
        (systemEvent other projectId type otherEnv otherSha pipelineName) := rfl
  rw [startedTargets, startedTargets, found]
  exact congrArg (List.map Prod.snd) (fired_congr addressing commits _)

def failures : List Emission := [.jobFailed, .attemptCompleted, .pipelineFailed none]

variable {addressing project} {run : Run}

theorem jobCommit_isSome (manifest : Manifest) {other : Run} (possible : run.Possible)
    (otherPossible : other.Possible) (same : run.target = other.target) :
    (truthy (run.jobCommit manifest)).isSome = (truthy (other.jobCommit manifest)).isSome := by
  unfold Run.jobCommit
  rw [← same]
  cases isType : run.target.type with
  | pipeline =>
    rw [possible isType, otherPossible (same ▸ isType)]
  | workflow => rfl

variable {projectId : String} {target : Target}

theorem Leads.of_run {next : Target} (leads : Leads addressing project projectId target next)
    (possible : run.Possible) (isTarget : run.target = target) :
    ∃ emission ∈ failures, ∀ id, ∃ event, run.event manifest projectId id emission = some event ∧
      next ∈ startedTargets addressing project event := by
  obtain ⟨known, isPossible, rfl, knownId, emission, event, emitted, starts⟩ := leads
  have commits := jobCommit_isSome manifest isPossible possible isTarget.symm
  have pipelineName : known.jobPipelineName manifest = run.jobPipelineName manifest := by
    rw [Run.jobPipelineName, Run.jobPipelineName, isTarget]
  cases emission with
  | jobFailed =>
    cases emitted
    refine ⟨.jobFailed, mem_cons_self, fun id => ⟨_, rfl, ?_⟩⟩
    rw [← pipelineName, ← startedTargets_systemEvent addressing project knownId id projectId
      "system.job.failed" none none commits]
    exact starts
  | attemptCompleted =>
    cases emitted
    refine ⟨.attemptCompleted, by decide, fun id => ⟨_, rfl, ?_⟩⟩
    rw [← startedTargets_systemEvent addressing project knownId id projectId
      "system.job.attempt.completed" none none commits]
    exact starts
  | pipelineFailed envName =>
    refine ⟨.pipelineFailed none, by decide, fun id => ?_⟩
    unfold Run.event at emitted ⊢
    rw [isTarget]
    cases isType : known.target.type with
    | workflow =>
      rw [isType] at emitted
      cases emitted
    | pipeline =>
      rw [isType] at emitted
      cases emitted
      refine ⟨_, rfl, ?_⟩
      have shas : (truthy known.gitSha).isSome = (truthy run.gitSha).isSome := by
        rw [isPossible isType, possible (isTarget ▸ isType)]
      rw [← startedTargets_systemEvent addressing project knownId id projectId
        "system.pipeline.failed" envName none shas]
      exact starts

variable {place : List Nat}

theorem mem_startedRuns (member : run ∈ startedRuns addressing project event place) :
    run.target ∈ startedTargets addressing project event ∧ run.gitSha = event.refSha ∧
      run.place.length = place.length + 1 := by
  obtain ⟨⟨target, number⟩, listed, rfl⟩ := mem_map.mp member
  exact ⟨mem_of_getElem? (mk_mem_zipIdx_iff_getElem?.mp listed), rfl, rfl⟩

theorem exists_startedRuns (place : List Nat) (started : target ∈ startedTargets addressing project event) :
    ∃ run ∈ startedRuns addressing project event place, run.target = target := by
  obtain ⟨number, listed⟩ := getElem?_of_mem started
  exact ⟨_, mem_map.mpr ⟨(target, number), mk_mem_zipIdx_iff_getElem?.mpr listed, rfl⟩, rfl⟩

theorem possible_of_started (member : run ∈ startedRuns addressing project event place) : run.Possible := by
  obtain ⟨started, gitSha, _⟩ := mem_startedRuns member
  obtain ⟨⟨trigger, target⟩, isFired, same⟩ := mem_map.mp started
  obtain ⟨_, request, asks, starts⟩ := mem_fired isFired
  intro isPipeline
  rw [gitSha]
  obtain ⟨type, name, projectId, envName⟩ := trigger
  cases type with
  | pipeline =>
    obtain ⟨sha, isSha, _⟩ := Option.map_eq_some_iff.mp asks
    exact Option.isSome_of_eq_some isSha
  | workflow =>
    cases asks
    have isWorkflow : target.type = .workflow := by
      obtain ⟨_, _, rfl⟩ := Option.map_eq_some_iff.mp starts
      rfl
    rw [← same, isWorkflow] at isPipeline
    cases isPipeline

variable {behaviour : Run → List Emission} {newId : List Nat → EventId} {child : Run}

theorem mem_nextRuns :
    child ∈ nextRuns addressing project projectId newId behaviour run ↔
      ∃ number emission event, (behaviour run)[number]? = some emission ∧
        run.event manifest projectId (newId (number :: run.place)) emission = some event ∧
        child ∈ startedRuns addressing project event (number :: run.place) := by
  constructor
  · intro member
    obtain ⟨⟨emission, number⟩, listed, inside⟩ := mem_flatMap.mp member
    dsimp only at inside
    cases emitted : run.event manifest projectId (newId (number :: run.place)) emission with
    | none =>
      rw [emitted] at inside
      cases inside
    | some event =>
      rw [emitted] at inside
      exact ⟨number, emission, event, mk_mem_zipIdx_iff_getElem?.mp listed, emitted, inside⟩
  · intro ⟨number, emission, event, listed, emitted, started⟩
    refine mem_flatMap.mpr ⟨(emission, number), mk_mem_zipIdx_iff_getElem?.mpr listed, ?_⟩
    dsimp only
    rw [emitted]
    exact started

theorem leads_of_nextRuns (possible : run.Possible)
    (member : child ∈ nextRuns addressing project projectId newId behaviour run) :
    Leads addressing project projectId run.target child.target := by
  obtain ⟨number, emission, event, _, emitted, started⟩ := mem_nextRuns.mp member
  exact ⟨run, possible, rfl, _, emission, event, emitted, (mem_startedRuns started).1⟩

def targetOf (type : TriggerType) (entry : String × Definition) : Target where
  type := type
  name := entry.1

def Manifest.targets (manifest : Manifest) : Finset Target :=
  (manifest.pipelines.rows.map (targetOf .pipeline) ++ manifest.workflows.rows.map (targetOf .workflow)).toFinset

theorem mem_targets_of_started (started : target ∈ startedTargets addressing project event) :
    target ∈ manifest.targets := by
  obtain ⟨⟨trigger, target⟩, isFired, rfl⟩ := mem_map.mp started
  obtain ⟨_, request, _, starts⟩ := mem_fired isFired
  apply mem_toFinset.mpr
  apply mem_append.mpr
  unfold InternalApi.starts at starts
  split at starts
  · obtain ⟨name, found, rfl⟩ := Option.map_eq_some_iff.mp starts
    obtain ⟨entry, member, rfl⟩ := mem_map.mp (addressing.pipeline_mem _ _ found)
    exact .inl (mem_map.mpr ⟨entry, member, rfl⟩)
  · obtain ⟨name, found, rfl⟩ := Option.map_eq_some_iff.mp starts
    obtain ⟨entry, member, rfl⟩ := mem_map.mp (addressing.workflow_mem _ _ found)
    exact .inr (mem_map.mpr ⟨entry, member, rfl⟩)

theorem event_projectId {id : EventId} {emission : Emission}
    (emitted : run.event manifest projectId id emission = some event) : event.projectId = projectId := by
  unfold Run.event at emitted
  split at emitted
  · cases emitted
    rfl
  · cases emitted
    rfl
  · split at emitted
    · cases emitted
      rfl
    · cases emitted

theorem exists_next_of_cycle (cycle : Relation.TransGen (Leads addressing project projectId) target target) :
    ∃ next, Leads addressing project projectId target next ∧
      Relation.TransGen (Leads addressing project projectId) next next := by
  obtain ⟨next, step, back⟩ := Relation.TransGen.head'_iff.mp cycle
  exact ⟨next, step, Relation.TransGen.tail' back step⟩

/-- Whatever the runs do, one event leads to finitely many runs, exactly if no definition
of the manifest leads back to itself. -/
theorem runsOf_finite_iff (addressing : Addressing manifest) (project : Option Project)
    (projectId : String) (newId : List Nat → EventId) :
    (∀ behaviour event, event.projectId = projectId → (runsOf addressing project newId behaviour event).Finite) ↔
      Acyclic (Leads addressing project projectId) := by
  constructor
  · intro finite target cycle
    obtain ⟨first, leads, further⟩ := exists_next_of_cycle cycle
    obtain ⟨_, _, _, id, emission, event, emitted, started⟩ := leads
    have sameProject := event_projectId emitted
    obtain ⟨run, isFirst, rfl⟩ := exists_startedRuns [] started
    have continues (run : Run)
        (endless : run.Possible ∧ Relation.TransGen (Leads addressing project projectId) run.target run.target) :
        ∃ child ∈ nextRuns addressing project projectId newId (fun _ => failures) run, (child.Possible ∧
            Relation.TransGen (Leads addressing project projectId) child.target child.target) ∧
          run.place.length < child.place.length := by
      obtain ⟨next, leads, further⟩ := exists_next_of_cycle endless.2
      obtain ⟨emission, isFailure, starts⟩ := leads.of_run endless.1 rfl
      obtain ⟨number, listed⟩ := getElem?_of_mem isFailure
      obtain ⟨event, emitted, starts⟩ := starts (newId (number :: run.place))
      obtain ⟨child, isChild, rfl⟩ := exists_startedRuns (number :: run.place) starts
      refine ⟨child, mem_nextRuns.mpr ⟨number, emission, event, listed, emitted, isChild⟩,
        ⟨possible_of_started isChild, further⟩, ?_⟩
      rw [(mem_startedRuns isChild).2.2, length_cons]
      omega
    have infinite := cascade_infinite (fun run : Run => run.place.length) continues
      ⟨possible_of_started isFirst, further⟩
    apply infinite
    refine (finite (fun _ => failures) event sameProject).subset ?_
    rw [runsOf, sameProject]
    exact Set.subset_biUnion_of_mem (u := fun first => Cascade (nextRuns addressing project
      projectId newId fun _ => failures) first) isFirst
  · intro acyclic behaviour event sameProject
    subst sameProject
    have known (kind next : Target) (leads : Leads addressing project event.projectId kind next) :
        next ∈ manifest.targets := by
      obtain ⟨_, _, _, _, _, _, _, started⟩ := leads
      exact mem_targets_of_started started
    have preserves (run : Run) (_ : run.Possible) : ∀ child ∈ nextRuns addressing project
        event.projectId newId behaviour run, child.Possible := by
      intro child isChild
      obtain ⟨_, _, _, _, _, started⟩ := mem_nextRuns.mp isChild
      exact possible_of_started started
    have steps (run : Run) (possible : run.Possible) : ∀ child ∈ nextRuns addressing project
        event.projectId newId behaviour run,
        Leads addressing project event.projectId run.target child.target := by
      intro child isChild
      exact leads_of_nextRuns possible isChild
    refine Set.Finite.biUnion (finite_toSet _) fun first member => ?_
    exact cascade_finite preserves steps acyclic manifest.targets known (possible_of_started member)

end

def triageManifest : Manifest where
  workflows := ⟨[("triage", { trigger := .object { system := some { event := some "job.failed" } } })], by decide⟩

def triage : Target where
  type := .workflow
  name := "triage"

def triageAddressing : Addressing triageManifest where
  pipelineAt := fun _ => none
  workflowAt := fun path =>
    if path = "/internal/projects/proj_1/workflows/triage/invoke" then some "triage" else none
  pipeline_mem := nofun
  workflow_mem := by
    intro path name found
    split at found
    · cases found
      decide
    · cases found

def placeId (place : List Nat) : EventId := "evt_" ++ toString place

def failedJob (id : EventId) : Event := systemEvent id "proj_1" "system.job.failed" none none none

theorem startedTargets_failedJob (id : EventId) : startedTargets triageAddressing none (failedJob id) = [triage] := by
  have moved : startedTargets triageAddressing none (failedJob id) =
      startedTargets triageAddressing none (failedJob "evt_0") :=
    startedTargets_systemEvent triageAddressing none id "evt_0" "proj_1" "system.job.failed" none
      none rfl none
  rw [moved]
  decide +kernel

/-- Where every run fails, one failed job leads to runs without end: the events of a
workflow's jobs name no pipeline, and the workflow is not kept from triggering itself. -/
theorem triage_runs_without_end :
    ¬ (runsOf triageAddressing none placeId (fun _ => failures) (failedJob "evt_0")).Finite := by
  have continues (run : Run) (isTriage : run.target = triage) :
      ∃ child ∈ nextRuns triageAddressing none "proj_1" placeId (fun _ => failures) run,
        child.target = triage ∧ run.place.length < child.place.length := by
    have emitted : run.event triageManifest "proj_1" (placeId (0 :: run.place)) .jobFailed =
        some (failedJob (placeId (0 :: run.place))) := by
      unfold Run.event Run.jobCommit Run.jobPipelineName
      rw [isTriage]
      rfl
    have started : triage ∈ startedTargets triageAddressing none (failedJob (placeId (0 :: run.place))) := by
      rw [startedTargets_failedJob]
      exact mem_singleton_self triage
    obtain ⟨child, isChild, same⟩ := exists_startedRuns (0 :: run.place) started
    refine ⟨child, mem_nextRuns.mpr ⟨0, .jobFailed, _, rfl, emitted, isChild⟩, same, ?_⟩
    rw [(mem_startedRuns isChild).2.2, length_cons]
    omega
  have started : triage ∈ startedTargets triageAddressing none (failedJob "evt_0") := by
    rw [startedTargets_failedJob]
    exact mem_singleton_self triage
  obtain ⟨run, isFirst, isTriage⟩ := exists_startedRuns [] started
  intro finite
  apply cascade_infinite (fun run : Run => run.place.length) continues isTriage
  refine finite.subset ?_
  exact Set.subset_biUnion_of_mem (u := fun first => Cascade (nextRuns triageAddressing none
    "proj_1" placeId fun _ => failures) first) isFirst

end EveHorizon.Events
