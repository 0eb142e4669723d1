import EveHorizon.Library.Checks
import EveHorizon.Pipelines.Atomicity

/-!
# Dry runs

With `dry_run` the expander reports the jobs and the relations that it would create.
-/

namespace EveHorizon.Pipelines

open Interleaving List Checks
open Jobs (JobId Job JobRelation Phase)

structure DryRunJob where
  id : JobId
  title : String
  phase : Phase
  priority : Nat
  reviewRequired : String
  stepName : String
  stepIndex : Nat
  executionType : String

structure DryRunResponse where
  jobs : List DryRunJob
  relations : List JobRelation

def dryRunJobId (name : String) (index : Nat) : JobId := "dry-" ++ name ++ "-" ++ toString index

def dryRunReview (step : PipelineStep) : String :=
  match step.action.bind (·.reviewRequired) with
  | some text => text
  | none => if step.action.any (·.type == some "create-pr") then "human" else "none"

def dryRunPhase (step : PipelineStep) : Phase :=
  if (step.dependsOn.getD []).length > 0 then .backlog else .ready

variable (catalog : Catalog) (request : ExpandPipelineRequest)

def dryRunJob (pipelineToolchains : Option (List String)) (entry : PipelineStep × Nat) : Except String DryRunJob := do
  let (step, index) := entry
  let name := stepName index step
  let path := stepPath request.pipelineName name
  let execution ← parseStepExecution step name
  let stepToolchains ← parseToolchains catalog.validToolchains (path ++ ".toolchains")
    step.toolchains
  let _ ← resolvePipelineStepToolchains pipelineToolchains stepToolchains step execution path
  return { id := dryRunJobId name index
           title := stepTitle execution name
           phase := dryRunPhase step
           priority := min index 4
           reviewRequired := dryRunReview step
           stepName := name
           stepIndex := index
           executionType := execution.text }

variable (steps : List PipelineStep)

def stepNameToIndex (name : String) : Option Nat :=
  (steps.zipIdx.reverse.find? fun entry => stepName entry.2 entry.1 == name).map Prod.snd

def dryRunRelations (entry : PipelineStep × Nat) : Except String (List JobRelation) :=
  let name := stepName entry.2 entry.1
  (entry.1.dependsOn.getD []).mapM fun depName =>
    match stepNameToIndex steps depName with
    | none => .error ("Step \"" ++ name ++ "\" depends on unknown step \"" ++ depName ++ "\"")
    | some depIndex => .ok ⟨dryRunJobId name entry.2, dryRunJobId depName depIndex, .blocks⟩

def buildDryRunResponse (pipelineToolchains : Option (List String)) :
    Except String DryRunResponse := do
  let jobs ← steps.zipIdx.mapM (dryRunJob catalog request pipelineToolchains)
  let relations ← steps.zipIdx.mapM (dryRunRelations steps)
  return { jobs, relations := relations.flatten }

def expandPipelineDryRun (projectId : String) (request : ExpandPipelineRequest) : PipelineCall DryRunResponse := do
  select fun _ => ()
  let resolved ← .ofExcept (resolvePipeline catalog projectId request)
  match truthy request.dedupeKey with
  | none => pure ()
  | some dedupeKey => expanderCancelExisting dedupeKey
  let steps ← .ofExcept (planSteps resolved.pipeline request)
  .ofExcept (buildDryRunResponse catalog request steps resolved.pipelineToolchains)

structure SameJob (reported : DryRunJob) (job : Job) : Prop where
  stepName : job.stepName = some reported.stepName
  stepIndex : job.hints.stepIndex = some reported.stepIndex
  title : job.title = reported.title
  executionType : job.executionType = some reported.executionType
  phase : job.phase = reported.phase

structure SameGraph (response : DryRunResponse) (before after : PipelineDb) : Prop where
  same : ∃ created, after.jobs.jobs = before.jobs.jobs ++ created ∧ List.Forall₂ SameJob response.jobs created ∧
      ∀ first ∈ response.jobs.zip created, ∀ second ∈ response.jobs.zip created,
        ⟨first.1.id, second.1.id, .blocks⟩ ∈ response.relations ↔ Blocks after first.2.id second.2.id

/-- A dry run changes nothing, is accepted when the expansion is, and reports its jobs. -/
structure Faithful (projectId : String) (request : ExpandPipelineRequest) (userId : Option String)
    (ids : NewIds) (db : PipelineDb) : Prop where
  keeps : ((expandPipelineDryRun catalog projectId request).alone db).2 = db
  agrees : ((expandPipelineDryRun catalog projectId request).alone db).1.isOk =
    ((expandPipeline catalog projectId request userId ids).alone db).1.isOk
  reports : ∀ response, ((expandPipelineDryRun catalog projectId request).alone db).1 = .ok response →
    ∀ after, (expandPipeline catalog projectId request userId ids).alone db = (.ok (), after) →
      SameGraph response db after

def Reportable (request : ExpandPipelineRequest) (steps : List PipelineStep)
    (pipelineToolchains : Option (List String)) : Prop :=
  ∀ entry ∈ steps.zipIdx, (dryRunJob catalog request pipelineToolchains entry).isOk = true ∧
    ∀ depName ∈ entry.1.dependsOn.getD [], depName ∈ stepNames steps

def TokensAndColumnsAccepted (resolved : Resolved) (request : ExpandPipelineRequest)
    (userId : Option String) (steps : List PipelineStep) : Prop :=
  ∃ expansion, startExpansion catalog resolved request userId = .ok expansion ∧
    ∀ entry ∈ steps.zipIdx, (planJob catalog expansion entry).isOk = true

/-- The request supersedes no run; and when the steps can be reported, none has a dependency and
the expansion accepts their tokens and columns. -/
def ReportsSoundly (projectId : String) (request : ExpandPipelineRequest) (userId : Option String)
    (db : PipelineDb) : Prop :=
  match resolvePipeline catalog projectId request with
  | .error _ => True
  | .ok resolved => ¬ Supersedes request db ∧
      match planSteps resolved.pipeline request with
      | .error _ => True
      | .ok steps => Reportable catalog request steps resolved.pipelineToolchains →
          (∀ step ∈ steps, step.dependsOn.getD [] = []) ∧
            TokensAndColumnsAccepted catalog resolved request userId steps ∧ ¬ EmptyKeyTaken request db

variable {catalog}

theorem expandPipelineDryRun_alone {projectId : String} {request : ExpandPipelineRequest}
    {db : PipelineDb} :
    (expandPipelineDryRun catalog projectId request).alone db =
      match resolvePipeline catalog projectId request with
      | .error error => (.error error, db)
      | .ok resolved =>
        match planSteps resolved.pipeline request with
        | .error error => (.error error, superseded request db)
        | .ok steps => (buildDryRunResponse catalog request steps resolved.pipelineToolchains,
            superseded request db) := by
  refine (resolving_alone fun resolved steps => Call.ofExcept
    (buildDryRunResponse catalog request steps resolved.pipelineToolchains)).trans ?_
  cases resolvePipeline catalog projectId request with
  | error error => rfl
  | ok resolved =>
    dsimp only
    cases planSteps resolved.pipeline request with
    | error error => rfl
    | ok steps => exact Call.alone_ofExcept _ _

section

variable {request : ExpandPipelineRequest} {steps : List PipelineStep}
  {pipelineToolchains : Option (List String)} {response : DryRunResponse}

theorem stepNameToIndex_isSome {name : String} :
    (stepNameToIndex steps name).isSome = true ↔ name ∈ stepNames steps := by
  rw [stepNameToIndex, Option.isSome_map, find?_isSome, stepNames, mem_map]
  constructor
  · rintro ⟨entry, member, same⟩
    exact ⟨entry, mem_reverse.mp member, by simpa using same⟩
  · rintro ⟨entry, member, same⟩
    exact ⟨entry, mem_reverse.mpr member, by simpa using same⟩

variable {entry : PipelineStep × Nat}

theorem dryRunRelations_passes :
    (∃ relations, dryRunRelations steps entry = .ok relations) ↔
      ∀ depName ∈ entry.1.dependsOn.getD [], depName ∈ stepNames steps := by
  rw [dryRunRelations, exists_mapM_eq_ok]
  refine forall₂_congr fun depName _ => ?_
  rw [← stepNameToIndex_isSome]
  cases stepNameToIndex steps depName with
  | none | some index => simp

theorem reported (built : buildDryRunResponse catalog request steps pipelineToolchains = .ok response) :
    List.Forall₂ (fun entry job => dryRunJob catalog request pipelineToolchains entry = .ok job)
        steps.zipIdx response.jobs ∧ ∃ relations, List.Forall₂ (fun entry row => dryRunRelations steps entry = .ok row)
        steps.zipIdx relations ∧ response.relations = relations.flatten := by
  obtain ⟨jobs, areJobs, built⟩ := bind_eq_ok.mp built
  obtain ⟨relations, areRelations, built⟩ := bind_eq_ok.mp built
  cases built
  exact ⟨mapM_eq_ok.mp areJobs, relations, mapM_eq_ok.mp areRelations, rfl⟩

theorem built_iff : (buildDryRunResponse catalog request steps pipelineToolchains).isOk = true ↔
      Reportable catalog request steps pipelineToolchains := by
  rw [isOk_iff]
  constructor
  · intro ⟨response, built⟩ entry member
    obtain ⟨areJobs, relations, areRelations, _⟩ := reported built
    obtain ⟨job, _, isJob⟩ := related_of_mem areJobs member
    obtain ⟨row, _, isRow⟩ := related_of_mem areRelations member
    exact ⟨isOk_iff.mpr ⟨job, isJob⟩, dryRunRelations_passes.mp ⟨row, isRow⟩⟩
  · intro reportable
    obtain ⟨jobs, areJobs⟩ := exists_mapM_eq_ok.mpr fun entry member =>
      isOk_iff.mp (reportable entry member).1
    obtain ⟨relations, areRelations⟩ := exists_mapM_eq_ok.mpr fun entry member =>
      dryRunRelations_passes.mpr (reportable entry member).2
    refine ⟨{ jobs, relations := relations.flatten }, ?_⟩
    exact bind_eq_ok.mpr ⟨jobs, areJobs, bind_eq_ok.mpr ⟨relations, areRelations, rfl⟩⟩

theorem relations_of_independent (built : buildDryRunResponse catalog request steps pipelineToolchains = .ok response)
    (independent : ∀ step ∈ steps, step.dependsOn.getD [] = []) : response.relations = [] := by
  obtain ⟨_, relations, areRelations, isFlat⟩ := reported built
  rw [isFlat, flatten_eq_nil_iff]
  intro row member
  have swapped : List.Forall₂ (fun row entry => dryRunRelations steps entry = .ok row)
      relations steps.zipIdx := List.Forall₂.flip areRelations
  obtain ⟨⟨step, index⟩, present, isRow⟩ := related_of_mem swapped member
  have inSteps := mem_of_getElem? (mk_mem_zipIdx_iff_getElem?.mp present)
  rw [dryRunRelations, independent step inSteps] at isRow
  exact (Except.ok.inj isRow).symm

theorem dryRunJob_planned {expansion : Expansion} {job : DryRunJob} (sameRequest : expansion.request = request)
    (sameToolchains : expansion.pipelineToolchains = pipelineToolchains) :
    dryRunJob catalog request pipelineToolchains entry = .ok job ↔
      ∃ execution, planExecution catalog expansion entry.2 entry.1 = .ok execution ∧
        job = { id := dryRunJobId (stepName entry.2 entry.1) entry.2
                title := stepTitle execution (stepName entry.2 entry.1)
                phase := dryRunPhase entry.1
                priority := min entry.2 4
                reviewRequired := dryRunReview entry.1
                stepName := stepName entry.2 entry.1
                stepIndex := entry.2
                executionType := execution.text } := by
  subst sameRequest sameToolchains
  constructor
  · intro isJob
    obtain ⟨execution, isExecution, isJob⟩ := bind_eq_ok.mp isJob
    obtain ⟨toolchains, areToolchains, isJob⟩ := bind_eq_ok.mp isJob
    obtain ⟨resolved, areResolved, isJob⟩ := bind_eq_ok.mp isJob
    refine ⟨execution, ?_, (Except.ok.inj isJob).symm⟩
    exact bind_eq_ok.mpr ⟨execution, isExecution, bind_eq_ok.mpr
      ⟨toolchains, areToolchains, bind_eq_ok.mpr ⟨resolved, areResolved, rfl⟩⟩⟩
  · intro ⟨planned, isPlanned, isJob⟩
    obtain ⟨execution, isExecution, isPlanned⟩ := bind_eq_ok.mp isPlanned
    obtain ⟨toolchains, areToolchains, isPlanned⟩ := bind_eq_ok.mp isPlanned
    obtain ⟨resolved, areResolved, isPlanned⟩ := bind_eq_ok.mp isPlanned
    cases isPlanned
    rw [isJob]
    exact bind_eq_ok.mpr ⟨_, isExecution, bind_eq_ok.mpr
      ⟨toolchains, areToolchains, bind_eq_ok.mpr ⟨resolved, areResolved, rfl⟩⟩⟩

end

section

variable {projectId : String} {request : ExpandPipelineRequest} {userId : Option String} {ids : NewIds}
  {db : PipelineDb} {resolved : Resolved} {steps : List PipelineStep} {response : DryRunResponse}
  {expansion : Expansion}

section

variable (started : startExpansion catalog resolved request userId = .ok expansion)
include started

theorem startExpansion_request :
    expansion.request = request ∧ expansion.pipelineToolchains = resolved.pipelineToolchains := by
  obtain ⟨scope, _, started⟩ := accepts_bind started
  obtain ⟨permissions, _, started⟩ := accepts_bind started
  split at started
  · cases started
  · cases started
    exact ⟨rfl, rfl⟩

omit started in
theorem reportable_of_accepted (accepted : StepsAccepted catalog resolved request userId steps) :
    Reportable catalog request steps resolved.pipelineToolchains := by
  obtain ⟨expansion, started, each⟩ := accepted
  obtain ⟨sameRequest, sameToolchains⟩ := startExpansion_request started
  intro entry member
  have isAccepted := each entry member
  rw [stepAccepted, Bool.and_eq_true, all_eq_true] at isAccepted
  obtain ⟨⟨execution, review⟩, planned⟩ := isOk_iff.mp isAccepted.1
  constructor
  · exact isOk_iff.mpr ⟨_, (dryRunJob_planned sameRequest sameToolchains).mpr ⟨execution, (planJob_ok planned).1, rfl⟩⟩
  · intro depName depends
    have known := isAccepted.2 depName depends
    rw [Bool.and_eq_true, contains_iff_mem] at known
    exact known.1

omit started in
theorem stepsAccepted_of_independent (independent : ∀ step ∈ steps, step.dependsOn.getD [] = [])
    (accepted : TokensAndColumnsAccepted catalog resolved request userId steps) :
    StepsAccepted catalog resolved request userId steps := by
  obtain ⟨expansion, started, each⟩ := accepted
  refine ⟨expansion, started, fun entry member => ?_⟩
  obtain ⟨step, index⟩ := entry
  have inSteps := mem_of_getElem? (mk_mem_zipIdx_iff_getElem?.mp member)
  rw [stepAccepted, each (step, index) member, independent step inSteps]
  rfl

omit started in
theorem tokensAccepted_of_accepted (accepted : StepsAccepted catalog resolved request userId steps) :
    TokensAndColumnsAccepted catalog resolved request userId steps := by
  obtain ⟨expansion, started, each⟩ := accepted
  refine ⟨expansion, started, fun entry member => ?_⟩
  have isAccepted := each entry member
  rw [stepAccepted, Bool.and_eq_true] at isAccepted
  exact isAccepted.1

variable {created : List Job}

theorem reported_beside_created
    (built : buildDryRunResponse catalog request steps resolved.pipelineToolchains = .ok response)
    (areJobs : List.Forall₂ (IsStepJob catalog expansion ids) steps.zipIdx created) :
    List.Forall₂ (fun reported job => ∃ entry ∈ steps.zipIdx, job.phase = .ready ∧
        reported.phase = dryRunPhase entry.1 ∧ (reported.phase = .ready → SameJob reported job) ∧
          job.id = ids.jobId entry.2) response.jobs created := by
  obtain ⟨sameRequest, sameToolchains⟩ := startExpansion_request started
  refine (related_both (reported built).1 areJobs).imp ?_
  intro job stored ⟨entry, member, isReported, isStored⟩
  obtain ⟨execution, isPlanned, rfl⟩ := (dryRunJob_planned sameRequest sameToolchains).mp isReported
  obtain ⟨planned, review, alsoPlanned, found, rfl⟩ := isStored
  rw [isPlanned] at alsoPlanned
  cases alsoPlanned
  refine ⟨entry, member, rfl, rfl, fun ready => ?_, rfl⟩
  exact { stepName := rfl, stepIndex := rfl, title := rfl, executionType := rfl, phase := ready.symm }

variable {after : PipelineDb}

omit started in
theorem sameGraph_of_independent (constrained : Constrained db) (unused : ids.Unused db)
    (independent : ∀ step ∈ steps, step.dependsOn.getD [] = [])
    (started : startExpansion catalog resolved request userId = .ok expansion)
    (built : buildDryRunResponse catalog request steps resolved.pipelineToolchains = .ok response)
    (added : after.jobs.jobs = db.jobs.jobs ++ created)
    (areJobs : List.Forall₂ (IsStepJob catalog expansion ids) steps.zipIdx created)
    (relations : ∀ relation, relation ∈ after.jobs.relations ↔
      relation ∈ db.jobs.relations ∨ ∃ entry ∈ steps.zipIdx, StepEdges (createdJobs ids steps.zipIdx) entry relation) :
    SameGraph response db after := by
  have beside := reported_beside_created started built areJobs
  have plain : ∀ entry ∈ steps.zipIdx, entry.1.dependsOn.getD [] = [] := by
    intro ⟨step, index⟩ member
    exact independent step (mem_of_getElem? (mk_mem_zipIdx_iff_getElem?.mp member))
  refine ⟨created, added, ?_, ?_⟩
  · refine beside.imp fun reported job ⟨entry, member, _, isPhase, same, _⟩ => same ?_
    rw [isPhase, dryRunPhase, plain entry member]
    rfl
  · intro first isFirst second _
    obtain ⟨_, _, _, _, _, isId⟩ := forall₂_zip beside isFirst
    rw [relations_of_independent built independent, Blocks, relations]
    constructor
    · intro reported
      cases reported
    · intro related
      rcases related with old | ⟨entry, member, jobId, _, depName, depends, _⟩
      · have found := constrained.referenced _ old
        rw [isId, unused.jobs] at found
        cases found
      · rw [plain entry member] at depends
        cases depends

theorem independent_of_sameGraph
    (built : buildDryRunResponse catalog request steps resolved.pipelineToolchains = .ok response)
    (added : after.jobs.jobs = db.jobs.jobs ++ created)
    (areJobs : List.Forall₂ (IsStepJob catalog expansion ids) steps.zipIdx created)
    (same : SameGraph response db after) :
    ∀ step ∈ steps, step.dependsOn.getD [] = [] := by
  obtain ⟨others, alsoAdded, areSame, _⟩ := same
  have isCreated : others = created := append_cancel_left (alsoAdded.symm.trans added)
  rw [isCreated] at areSame
  obtain ⟨sameRequest, sameToolchains⟩ := startExpansion_request started
  have ready : List.Forall₂ (fun reported _ => reported.phase = .ready) response.jobs created :=
    List.Forall₂.mp (fun reported job ⟨_, _, isReady, _⟩ same => same.phase.symm.trans isReady)
      (reported_beside_created started built areJobs) areSame
  intro step member
  obtain ⟨index, placed⟩ := mem_iff_getElem?.mp member
  obtain ⟨job, isJob, isReported⟩ := related_of_mem (reported built).1 (mk_mem_zipIdx_iff_getElem?.mpr placed)
  obtain ⟨_, _, isReady⟩ := related_of_mem ready isJob
  obtain ⟨execution, _, rfl⟩ := (dryRunJob_planned sameRequest sameToolchains).mp isReported
  rw [dryRunPhase] at isReady
  split at isReady
  · cases isReady
  · next none =>
      exact length_eq_zero_iff.mp (Nat.eq_zero_of_not_pos none)

end

theorem created_iff (constrained : Constrained db) (unused : ids.Unused db) :
    ((createRunWithJobs catalog resolved request userId ids steps).alone (superseded request db)).1.isOk = true ↔
      ¬ EmptyKeyTaken request db ∧ StepsAccepted catalog resolved request userId steps := by
  have admits := @admitsRun_superseded resolved.projectId request resolved.manifest
    (request.envName <|> resolved.pipeline.env) _ db constrained unused
  constructor
  · intro returned
    obtain ⟨value, isOk⟩ := isOk_iff.mp returned
    have whole : (createRunWithJobs catalog resolved request userId ids steps).alone
        (superseded request db) = (.ok (), ((createRunWithJobs catalog resolved request userId ids
          steps).alone (superseded request db)).2) := Prod.ext isOk rfl
    refine ⟨fun taken => ?_, createRunWithJobs_returned whole⟩
    obtain ⟨_, _, inserted, _⟩ := Call.alone_bind_eq_ok whole
    cases admitted : (superseded request db).admitsRun (resolvedRun resolved request ids) with
    | ok admitted => exact admits.mp admitted taken
    | error message =>
      rw [insertRun_alone_refused admitted] at inserted
      cases (Prod.mk.inj inserted).1
  · intro ⟨free, accepted⟩
    have unusedJobs : ∀ index, (superseded request db).jobs.findJob (ids.jobId index) = none := by
      rw [superseded_jobs request db]
      exact unused.jobs
    obtain ⟨_, after, _, returned, _⟩ := createRunWithJobs_wired (admits.mpr free) accepted unusedJobs
    rw [returned]
    rfl

theorem expanded_of_accepted (ids : NewIds) (constrained : Constrained db) (unused : ids.Unused db)
    (isResolved : resolvePipeline catalog projectId request = .ok resolved)
    (planned : planSteps resolved.pipeline request = .ok steps) (idle : ¬ Supersedes request db)
    (free : ¬ EmptyKeyTaken request db) (accepted : StepsAccepted catalog resolved request userId steps) :
    ∃ expansion after, startExpansion catalog resolved request userId = .ok expansion ∧
      (expandPipeline catalog projectId request userId ids).alone db = (.ok (), after) ∧
      (∃ created, after.jobs.jobs = db.jobs.jobs ++ created ∧
        List.Forall₂ (IsStepJob catalog expansion ids) steps.zipIdx created) ∧
      ∀ relation, relation ∈ after.jobs.relations ↔ relation ∈ db.jobs.relations ∨
        ∃ entry ∈ steps.zipIdx, StepEdges (createdJobs ids steps.zipIdx) entry relation := by
  have admits := @admitsRun_superseded resolved.projectId request resolved.manifest
    (request.envName <|> resolved.pipeline.env) _ db constrained unused
  have expanded := @expandPipeline_alone catalog projectId request userId ids db
  rw [isResolved] at expanded
  dsimp only at expanded
  rw [planned] at expanded
  rw [superseded_idle idle] at admits expanded
  rw [expanded]
  exact createRunWithJobs_wired (admits.mpr free) accepted unused.jobs

variable {error : String}

theorem faithful_of_rejected (rejected : resolvePipeline catalog projectId request = .error error) :
    Faithful catalog projectId request userId ids db := by
  have previewed := @expandPipelineDryRun_alone catalog projectId request db
  have expanded := @expandPipeline_alone catalog projectId request userId ids db
  rw [rejected] at previewed expanded
  constructor
  · rw [previewed]
  · rw [previewed, expanded]
    rfl
  · intro response isResponse
    rw [previewed] at isResponse
    cases isResponse

theorem faithful_unplanned_iff (isResolved : resolvePipeline catalog projectId request = .ok resolved)
    (unplanned : planSteps resolved.pipeline request = .error error) :
    Faithful catalog projectId request userId ids db ↔ ¬ Supersedes request db := by
  have previewed := @expandPipelineDryRun_alone catalog projectId request db
  have expanded := @expandPipeline_alone catalog projectId request userId ids db
  rw [isResolved] at previewed expanded
  dsimp only at previewed expanded
  rw [unplanned] at previewed expanded
  constructor
  · intro faithful
    have kept := faithful.keeps
    rw [previewed] at kept
    exact superseded_runs_iff.mp (congrArg PipelineDb.runs kept)
  · intro idle
    constructor
    · rw [previewed]
      exact superseded_idle idle
    · rw [previewed, expanded]
      rfl
    · intro response isResponse
      rw [previewed] at isResponse
      cases isResponse

theorem faithful_planned_iff (constrained : Constrained db) (unused : ids.Unused db)
    (isResolved : resolvePipeline catalog projectId request = .ok resolved)
    (planned : planSteps resolved.pipeline request = .ok steps) :
    Faithful catalog projectId request userId ids db ↔ ¬ Supersedes request db ∧
      (Reportable catalog request steps resolved.pipelineToolchains → (∀ step ∈ steps, step.dependsOn.getD [] = []) ∧
          TokensAndColumnsAccepted catalog resolved request userId steps ∧ ¬ EmptyKeyTaken request db) := by
  have previewed := @expandPipelineDryRun_alone catalog projectId request db
  have expanded := @expandPipeline_alone catalog projectId request userId ids db
  rw [isResolved] at previewed expanded
  dsimp only at previewed expanded
  rw [planned] at previewed expanded
  dsimp only at previewed expanded
  have creates := @created_iff catalog request userId _ db resolved steps constrained unused
  rw [← expanded] at creates
  constructor
  · intro faithful
    have kept := faithful.keeps
    rw [previewed] at kept
    have idle : ¬ Supersedes request db := superseded_runs_iff.mp (congrArg PipelineDb.runs kept)
    refine ⟨idle, fun reportable => ?_⟩
    have built := built_iff.mpr reportable
    have agrees := faithful.agrees
    rw [previewed] at agrees
    obtain ⟨free, accepted⟩ := creates.mp (agrees ▸ built)
    obtain ⟨response, isResponse⟩ := isOk_iff.mp built
    obtain ⟨expansion, after, started, returned, ⟨created, added, areJobs⟩, _⟩ :=
      expanded_of_accepted ids constrained unused isResolved planned idle free accepted
    have same := faithful.reports response (by rw [previewed]; exact isResponse) after returned
    exact ⟨independent_of_sameGraph started isResponse added areJobs same, tokensAccepted_of_accepted accepted, free⟩
  · intro ⟨idle, sound⟩
    constructor
    · rw [previewed]
      exact superseded_idle idle
    · rw [previewed, Bool.eq_iff_iff, creates, built_iff]
      constructor
      · intro reportable
        obtain ⟨independent, accepted, free⟩ := sound reportable
        exact ⟨free, stepsAccepted_of_independent independent accepted⟩
      · intro ⟨_, accepted⟩
        exact reportable_of_accepted accepted
    · intro response isResponse after returned
      rw [previewed] at isResponse
      obtain ⟨independent, accepted, free⟩ := sound (built_iff.mp (isOk_iff.mpr ⟨response, isResponse⟩))
      obtain ⟨expansion, reached, started, alsoReturned, ⟨created, added, areJobs⟩, relations⟩ :=
        expanded_of_accepted ids constrained unused isResolved planned idle free
          (stepsAccepted_of_independent independent accepted)
      have isReached : reached = after := (Prod.mk.inj (alsoReturned.symm.trans returned)).2
      rw [← isReached]
      exact sameGraph_of_independent constrained unused independent started isResponse added areJobs relations

end

/-- A dry run is faithful exactly when it supersedes no run and, where the steps can be reported,
none of them has a dependency and the expansion accepts their tokens and columns. -/
theorem dryRun_faithful_iff (catalog : Catalog) (projectId : String) (request : ExpandPipelineRequest)
    (userId : Option String) (ids : NewIds) (db : PipelineDb) (constrained : Constrained db) (unused : ids.Unused db) :
    Faithful catalog projectId request userId ids db ↔ ReportsSoundly catalog projectId request userId db := by
  rw [ReportsSoundly]
  cases isResolved : resolvePipeline catalog projectId request with
  | error error => exact ⟨fun _ => trivial, fun _ => faithful_of_rejected isResolved⟩
  | ok resolved =>
    dsimp only
    cases planned : planSteps resolved.pipeline request with
    | error error =>
      rw [faithful_unplanned_iff isResolved planned]
      exact ⟨fun idle => ⟨idle, trivial⟩, fun sound => sound.1⟩
    | ok steps => exact faithful_planned_iff constrained unused isResolved planned

def keyedRequest : ExpandPipelineRequest where
  pipelineName := "release"
  dedupeKey := some "pr:demo:1"

def checkSteps : List PipelineStep :=
  [{ name := some "build", run := some "make" }, { name := some "test", run := some "make test" },
    { name := some "lint", run := some "make lint" }]

def liveRun : PipelineRun where
  id := "run_0"
  projectId := "proj_1"
  pipelineName := "release"
  envName := none
  gitSha := none
  manifestHash := some "hash"
  inputs := none
  status := .running
  completedAt := none
  errorMessage := none
  runMode := some "jobs"
  dedupeKey := some "pr:demo:1"
  createdAt := 0

def endedRun : PipelineRun := { liveRun with status := .succeeded, completedAt := some 9 }

theorem constrained_singleton (run : PipelineRun) : Constrained { runs := [run] } := by
  constructor
  · intro first isFirst other isOther _ _ _ _ _
    rw [mem_singleton.mp isFirst, mem_singleton.mp isOther]
  · intro relation member
    cases member

/-- Steps without dependencies are reported as they are expanded. -/
theorem checks_reported :
    Faithful (releaseCatalog checkSteps) "proj_1" keyedRequest none (sampleIds "a") { runs := [endedRun] } := by
  have unused : (sampleIds "a").Unused { runs := [endedRun] } := ⟨by decide +kernel, fun _ => rfl⟩
  refine (dryRun_faithful_iff _ _ _ none _ _ (constrained_singleton _) unused).mpr ⟨?_, fun _ => ⟨?_, ?_, ?_⟩⟩
  · rintro ⟨dedupeKey, _, active⟩
    apply active
    have ended : [endedRun].filter (fun run => run.dedupeKey == some dedupeKey && !run.status.terminal) = [] := by
      simp [endedRun, RunStatus.terminal]
    rw [PipelineDb.findActiveRunByDedupeKey, ended]
    rfl
  · decide
  · exact ⟨_, rfl, by decide +kernel⟩
  · rintro ⟨empty, _⟩
    exact absurd empty (by decide)

/-- A dry run cancels the run in progress that has its key. -/
theorem dry_run_cancels : ¬ ∀ (catalog : Catalog) (projectId : String) (request : ExpandPipelineRequest)
        (userId : Option String) (ids : NewIds) (db : PipelineDb), Constrained db → ids.Unused db →
          Faithful catalog projectId request userId ids db := by
  intro holds
  have unused : (sampleIds "a").Unused { runs := [liveRun] } := ⟨by decide +kernel, fun _ => rfl⟩
  have kept := (holds (releaseCatalog checkSteps) "proj_1" keyedRequest none (sampleIds "a")
    { runs := [liveRun] } (constrained_singleton _) unused).keeps
  have statuses := congrArg (fun db : PipelineDb => db.runs.map PipelineRun.status) kept
  revert statuses
  decide +kernel

end EveHorizon.Pipelines
