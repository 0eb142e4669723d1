import EveHorizon.Pipelines.Runs

/-!
# Superseding by dedupe key

At most one run of a dedupe key is live, and no other run of the key has a live job,
exactly as long as runs and jobs are inserted into tables in which the earlier runs of
the key are finished.
-/

namespace EveHorizon.Pipelines

open Interleaving List Call
open Jobs (JobId Timestamp Job JobsDb JobStatement JobCall JobUpdate JobRelation)
open PipelineStatement (effect)

/-- The live runs of the key, and the runs of the key with live jobs, are this one. -/
structure Only (db : PipelineDb) (dedupeKey : String) (id : RunId) : Prop where
  runs : ∀ run ∈ db.runs, run.dedupeKey = some dedupeKey → run.status.terminal = false → run.id = id
  jobs : ∀ job ∈ db.jobs.jobs, job.phase.terminal = false → ∀ run ∈ db.runs,
    run.dedupeKey = some dedupeKey → job.runId = some run.id → run.id = id

def OneLive (db : PipelineDb) : Prop := ∀ dedupeKey, ∃ id, Only db dedupeKey id

structure Quiet (db : PipelineDb) (dedupeKey : String) : Prop where
  runs : ∀ run ∈ db.runs, run.dedupeKey = some dedupeKey → run.status.terminal = true
  jobs : ∀ job ∈ db.jobs.jobs, ∀ run ∈ db.runs, run.dedupeKey = some dedupeKey →
    job.runId = some run.id → job.phase.terminal = true

/-- A run that the indexes admit is inserted when the earlier runs of its key and their
jobs are finished, and a job when no other run of the key is live or has live jobs. -/
def Guarded (execution : Execution PipelineStatement PipelineDb) : Prop :=
  match execution.statement with
  | .insertRun run => (execution.before.admitsRun run).isOk = true →
      ∀ dedupeKey ∈ run.dedupeKey, Quiet execution.before dedupeKey
  | .insertJob job => execution.before.jobs.findJob job.id = none →
      ∀ run ∈ execution.before.runs, job.runId = some run.id →
        ∀ dedupeKey ∈ run.dedupeKey, Only execution.before dedupeKey run.id
  | _ => True

instance (db : PipelineDb) (dedupeKey : String) (id : RunId) : Decidable (Only db dedupeKey id) :=
  decidable_of_iff (_ ∧ _) ⟨fun both => ⟨both.1, both.2⟩, fun only => ⟨only.runs, only.jobs⟩⟩

instance (db : PipelineDb) (dedupeKey : String) : Decidable (Quiet db dedupeKey) :=
  decidable_of_iff (_ ∧ _) ⟨fun both => ⟨both.1, both.2⟩, fun quiet => ⟨quiet.runs, quiet.jobs⟩⟩

instance : DecidablePred Guarded
  | ⟨_, .insertRun run, before, _⟩ => inferInstanceAs (Decidable
      ((before.admitsRun run).isOk = true → ∀ dedupeKey ∈ run.dedupeKey, Quiet before dedupeKey))
  | ⟨_, .insertJob job, before, _⟩ => inferInstanceAs (Decidable
      (before.jobs.findJob job.id = none → ∀ run ∈ before.runs, job.runId = some run.id →
        ∀ dedupeKey ∈ run.dedupeKey, Only before dedupeKey run.id))
  | ⟨_, .select, _, _⟩ => inferInstanceAs (Decidable True)
  | ⟨_, .findActiveRunByDedupeKey _, _, _⟩ => inferInstanceAs (Decidable True)
  | ⟨_, .closeRun _ _, _, _⟩ => inferInstanceAs (Decidable True)
  | ⟨_, .closeStepRun _, _, _⟩ => inferInstanceAs (Decidable True)
  | ⟨_, .insertRelation _, _, _⟩ => inferInstanceAs (Decidable True)
  | ⟨_, .jobs _, _, _⟩ => inferInstanceAs (Decidable True)

/-- Later tables that have no run, no live run and no live job that the earlier ones
did not have. -/
structure Shrinks (before after : PipelineDb) : Prop where
  runs : ∀ run ∈ after.runs, ∃ old ∈ before.runs, old.id = run.id ∧
    old.dedupeKey = run.dedupeKey ∧ (run.status.terminal = false → old.status.terminal = false)
  jobs : ∀ job ∈ after.jobs.jobs, job.phase.terminal = false →
    ∃ old ∈ before.jobs.jobs, old.phase.terminal = false ∧ old.runId = job.runId

theorem Shrinks.refl (db : PipelineDb) : Shrinks db db where
  runs := fun run member => ⟨run, member, rfl, rfl, id⟩
  jobs := fun job member live => ⟨job, member, live, rfl⟩

theorem Shrinks.oneLive {before after : PipelineDb} (shrinks : Shrinks before after)
    (one : OneLive before) : OneLive after := by
  intro dedupeKey
  obtain ⟨id, only⟩ := one dedupeKey
  refine ⟨id, ?_, ?_⟩
  · intro run member key live
    obtain ⟨old, present, sameId, sameKey, wasLive⟩ := shrinks.runs run member
    rw [← sameId]
    exact only.runs old present (sameKey.trans key) (wasLive live)
  · intro job member live run present key owned
    obtain ⟨oldJob, wasPresent, wasLive, sameRun⟩ := shrinks.jobs job member live
    obtain ⟨old, runPresent, sameId, sameKey, _⟩ := shrinks.runs run present
    rw [← sameId]
    exact only.jobs oldJob wasPresent wasLive old runPresent (sameKey.trans key) (by rw [sameRun, owned, sameId])

variable {db : PipelineDb} {run : PipelineRun}

theorem not_mem_of_findRunById {id : RunId} (missing : db.findRunById id = none)
    (member : run ∈ db.runs) : run.id ≠ id := by
  intro same
  exact find?_eq_none.mp missing run member (by simpa using same)

theorem admitsRun_ok_iff : db.admitsRun run = .ok () ↔ db.findRunById run.id = none ∧ db.keyTaken run = false := by
  unfold PipelineDb.admitsRun
  split
  · next found => simp [Option.isSome_iff_ne_none.mp found]
  · next absent =>
      have missing : db.findRunById run.id = none := by simpa using absent
      split
      · next taken => simp [taken]
      · next free => simpa [missing] using free

theorem insertRun_admitted (admitted : db.admitsRun run = .ok ()) :
    effect (.insertRun run) db = { db with runs := db.runs ++ [db.stampedRun run] } := by
  simp only [effect, admitted]

theorem insertRun_refused {message : String} (refused : db.admitsRun run = .error message) :
    effect (.insertRun run) db = db := by
  simp only [effect, refused]

theorem oneLive_insertRun (run : PipelineRun) (one : OneLive db)
    (missing : db.findRunById run.id = none) (live : run.status.terminal = false) :
    OneLive { db with runs := db.runs ++ [run] } ↔
      ∀ dedupeKey, run.dedupeKey = some dedupeKey → Quiet db dedupeKey := by
  constructor
  · intro after dedupeKey key
    obtain ⟨id, only⟩ := after dedupeKey
    have named : run.id = id := only.runs run (by simp) key live
    refine ⟨?_, ?_⟩
    · intro old member oldKey
      cases isTerminal : old.status.terminal with
      | true => rfl
      | false =>
        have same := only.runs old (mem_append_left _ member) oldKey isTerminal
        exact absurd (same.trans named.symm) (not_mem_of_findRunById missing member)
    · intro job member old present oldKey owned
      cases isTerminal : job.phase.terminal with
      | true => rfl
      | false =>
        have same := only.jobs job member isTerminal old (mem_append_left _ present) oldKey owned
        exact absurd (same.trans named.symm) (not_mem_of_findRunById missing present)
  · intro quiet dedupeKey
    by_cases key : run.dedupeKey = some dedupeKey
    · have finished := quiet dedupeKey key
      refine ⟨run.id, ?_, ?_⟩
      · intro other member otherKey otherLive
        rcases mem_append.mp member with old | new
        · rw [finished.runs other old otherKey] at otherLive
          cases otherLive
        · rw [mem_singleton.mp new]
      · intro job member jobLive other present otherKey owned
        rcases mem_append.mp present with old | new
        · rw [finished.jobs job member other old otherKey owned] at jobLive
          cases jobLive
        · rw [mem_singleton.mp new]
    · obtain ⟨id, only⟩ := one dedupeKey
      refine ⟨id, ?_, ?_⟩
      · intro other member otherKey otherLive
        rcases mem_append.mp member with old | new
        · exact only.runs other old otherKey otherLive
        · rw [mem_singleton.mp new] at otherKey
          exact absurd otherKey key
      · intro job member jobLive other present otherKey owned
        rcases mem_append.mp present with old | new
        · exact only.jobs job member jobLive other old otherKey owned
        · rw [mem_singleton.mp new] at otherKey
          exact absurd otherKey key

theorem oneLive_insertJob (job : Job) (one : OneLive db) (live : job.phase.terminal = false) :
    OneLive { db with jobs := { db.jobs with jobs := db.jobs.jobs ++ [job] } } ↔
      ∀ run ∈ db.runs, job.runId = some run.id →
        ∀ dedupeKey, run.dedupeKey = some dedupeKey → Only db dedupeKey run.id := by
  constructor
  · intro after run present owned dedupeKey key
    obtain ⟨id, only⟩ := after dedupeKey
    have named : run.id = id := only.jobs job (by simp) live run present key owned
    refine ⟨?_, ?_⟩
    · intro other member otherKey otherLive
      exact (only.runs other member otherKey otherLive).trans named.symm
    · intro older member olderLive other otherPresent otherKey otherOwned
      exact (only.jobs older (mem_append_left _ member) olderLive other otherPresent otherKey
        otherOwned).trans named.symm
  · intro guarded dedupeKey
    by_cases owner : ∃ run ∈ db.runs, run.dedupeKey = some dedupeKey ∧ job.runId = some run.id
    · obtain ⟨run, present, key, owned⟩ := owner
      have only := guarded run present owned dedupeKey key
      refine ⟨run.id, only.runs, ?_⟩
      intro other member otherLive otherRun otherPresent otherKey otherOwned
      rcases mem_append.mp member with old | new
      · exact only.jobs other old otherLive otherRun otherPresent otherKey otherOwned
      · rw [mem_singleton.mp new, owned] at otherOwned
        exact (Option.some.inj otherOwned).symm
    · obtain ⟨id, only⟩ := one dedupeKey
      refine ⟨id, only.runs, ?_⟩
      intro other member otherLive otherRun otherPresent otherKey otherOwned
      rcases mem_append.mp member with old | new
      · exact only.jobs other old otherLive otherRun otherPresent otherKey otherOwned
      · rw [mem_singleton.mp new] at otherOwned
        exact absurd ⟨otherRun, otherPresent, otherKey, otherOwned⟩ owner

def Closing : JobStatement → Prop
  | .updateJobs (.closed _ _ _) => True
  | .updateJobs (.gatesCleared _) => True
  | .updateJobs (.backlogChildrenClosed _ _ _) => True
  | .updateJobs _ => False
  | _ => True

variable (catalog : Catalog)

def Inserts : PipelineStatement → Prop
  | .select | .findActiveRunByDedupeKey _ | .insertRelation _ => True
  | .insertRun run => run.status.terminal = false ∧ (catalog.findById run.projectId).isSome = true
  | .insertJob job => job.phase.terminal = false
  | .closeRun _ _ | .closeStepRun _ | .jobs _ => False

def Issued : PipelineStatement → Prop
  | .closeRun _ _ | .closeStepRun _ => True
  | .jobs statement => Closing statement
  | statement => Inserts catalog statement

theorem issued_of_inserts (stmt : PipelineStatement) (inserts : Inserts catalog stmt) :
    Issued catalog stmt := by
  cases stmt with
  | jobs stmt | closeRun id errorMessage | closeStepRun id => cases inserts
  | _ => exact inserts

theorem cancelJob_issues (jobId : JobId) (reason : Option String) : (Jobs.cancelJob jobId reason).Issues Closing := by
  refine (issues_perform trivial).bind fun found => ?_
  cases found with
  | none => trivial
  | some job =>
    dsimp only
    split
    · trivial
    · have closes : (Jobs.closeJobAndAttempt jobId (reason.getD "Job cancelled") .cancelled rfl
          .cancelled).Issues Closing := by
        have rest : (do
            let updatedJob ← Jobs.updateJobs (.closed jobId (reason.getD "Job cancelled")
              .cancelled)
            Jobs.deleteGates [jobId]
            let _ ← Jobs.updateManyJobs (.gatesCleared [jobId])
            return updatedJob).Issues Closing :=
          (issues_perform trivial).bind fun _ => (issues_perform trivial).bind
            fun _ => (issues_perform trivial).bind fun _ => trivial
        refine (issues_perform trivial).bind fun current => ?_
        cases current with
        | none => exact rest
        | some attempt => exact (issues_perform trivial).bind fun _ => rest
      refine closes.bind fun updated => ?_
      cases updated with
      | none => trivial
      | some job => exact (issues_perform trivial).bind fun _ => trivial

def Closes : PipelineStatement → Prop
  | .select | .closeRun _ _ | .closeStepRun _ => True
  | .jobs statement => Closing statement
  | _ => False

theorem issued_of_closes (stmt : PipelineStatement) (closes : Closes stmt) : Issued catalog stmt := by
  cases stmt with
  | findActiveRunByDedupeKey dedupeKey | insertRun run | insertJob job => cases closes
  | insertRelation relation => cases closes
  | _ => exact closes

variable (id : RunId)

theorem closeStepRuns_closes : (closeStepRuns id).Issues Closes := by
  refine (issues_perform trivial).bind fun steps => Issues.forEach fun step _ => ?_
  split
  · trivial
  · exact issues_perform trivial

theorem getRunDetail_closes (projectId pipelineName : String) (id : RunId) :
    (getRunDetail catalog projectId pipelineName id).Issues Closes := by
  refine (issues_perform trivial).bind fun project => ?_
  split
  · trivial
  · refine (issues_perform trivial).bind fun found => ?_
    cases found with
    | none => trivial
    | some run =>
      dsimp only
      split
      · trivial
      · exact (issues_perform trivial).bind fun _ => trivial

theorem cancelRun_closes (reason : Option String) : (cancelRun catalog id reason).Issues Closes := by
  refine (issues_perform trivial).bind fun found => ?_
  cases found with
  | none => trivial
  | some run =>
    refine (issues_perform trivial).bind fun _ => ?_
    refine (closeStepRuns_closes id).bind fun _ => ?_
    split
    · refine (issues_perform trivial).bind fun jobs => ?_
      refine (Issues.forEach fun job _ => ?_).bind fun _ =>
        getRunDetail_closes catalog run.projectId run.pipelineName id
      split
      · trivial
      · refine Issues.bind (Issues.lift ?_) fun _ => trivial
        exact cancelJob_issues job.id _
    · exact getRunDetail_closes catalog run.projectId run.pipelineName id

theorem closeStepRuns_issues : (closeStepRuns id).Issues (Issued catalog) :=
  (closeStepRuns_closes id).imp (issued_of_closes catalog)

theorem cancelRun_issues (reason : Option String) : (cancelRun catalog id reason).Issues (Issued catalog) :=
  (cancelRun_closes catalog id reason).imp (issued_of_closes catalog)

theorem createJobs_issues (expansion : Expansion) (ids : NewIds)
    (steps : List (PipelineStep × Nat)) (created : List (String × JobId)) :
    (createJobs catalog expansion ids steps created).Issues (Inserts catalog) := by
  induction steps generalizing created with
  | nil => trivial
  | cons entry rest ih =>
    refine issues_ofExcept_bind fun execution _ => ?_
    refine (issues_perform trivial).bind fun _ => ?_
    refine issues_ofExcept_bind fun _ _ => ?_
    refine issues_ofExcept_bind fun review _ => ?_
    refine Issues.bind ⟨rfl, fun db => ?_⟩ fun job => ih _
    beta_reduce
    split <;> trivial

theorem relateStep_issues (created : List (String × JobId)) (entry : PipelineStep × Nat) :
    (relateStep created entry).Issues (Inserts catalog) := by
  unfold relateStep
  dsimp only
  split
  · trivial
  · refine Issues.forEach fun depName _ => ?_
    unfold relateDependency
    split
    · trivial
    · refine (issues_perform trivial).bind fun fromJob => ?_
      refine (issues_perform trivial).bind fun toJob => ?_
      split
      · trivial
      · split
        · trivial
        · refine ⟨trivial, fun db => ?_⟩
          split <;> trivial

theorem accepts_bind {α β : Type} {check : Except String α} {rest : α → Except String β}
    {final : β} (accepted : (check >>= rest) = .ok final) : ∃ middle, check = .ok middle ∧ rest middle = .ok final := by
  cases check with
  | ok middle => exact ⟨middle, rfl, accepted⟩
  | error message => cases accepted

theorem findById_of_mem {project : Project} (member : project ∈ catalog.projects) :
    (catalog.findById project.id).isSome = true := by
  rw [Catalog.findById, find?_isSome]
  exact ⟨project, member, by simp⟩

variable {projectId : String}

theorem resolveProject_known {resolved : String} (accepted : resolveProject catalog projectId = .ok resolved) :
    (catalog.findById resolved).isSome = true := by
  unfold resolveProject at accepted
  cases found : catalog.findById projectId with
  | some project =>
    rw [found] at accepted
    cases accepted
    rw [found]
    rfl
  | none =>
    rw [found] at accepted
    cases bySlug : catalog.findBySlug projectId with
    | none => simp [bySlug] at accepted
    | some project =>
      simp only [bySlug, Except.ok.injEq] at accepted
      rw [← accepted]
      exact findById_of_mem catalog (mem_of_find?_eq_some bySlug)

variable {resolved : Resolved}

theorem resolvePipeline_known {request : ExpandPipelineRequest}
    (accepted : resolvePipeline catalog projectId request = .ok resolved) :
    (catalog.findById resolved.projectId).isSome = true := by
  unfold resolvePipeline at accepted
  obtain ⟨project, found, accepted⟩ := accepts_bind accepted
  have known := resolveProject_known catalog found
  split at accepted
  · cases accepted
  · obtain ⟨pipeline, _, accepted⟩ := accepts_bind accepted
    obtain ⟨toolchains, _, accepted⟩ := accepts_bind accepted
    obtain ⟨_, _, accepted⟩ := accepts_bind accepted
    cases accepted
    exact known

theorem createRunWithJobs_issues (known : (catalog.findById resolved.projectId).isSome = true)
    (request : ExpandPipelineRequest) (userId : Option String) (ids : NewIds) (steps : List PipelineStep) :
    (createRunWithJobs catalog resolved request userId ids steps).Issues (Inserts catalog) := by
  refine Issues.bind ⟨⟨rfl, known⟩, fun db => ?_⟩ fun run => ?_
  · beta_reduce
    split <;> trivial
  · refine issues_ofExcept_bind fun expansion _ => ?_
    refine (createJobs_issues catalog expansion ids steps.zipIdx []).bind fun created => ?_
    exact Issues.forEach fun entry _ => relateStep_issues catalog created entry

theorem expandPipeline_issues (projectId : String) (request : ExpandPipelineRequest)
    (userId : Option String) (ids : NewIds) :
    (expandPipeline catalog projectId request userId ids).Issues (Issued catalog) := by
  refine (issues_perform trivial).bind fun _ => ?_
  refine issues_ofExcept_bind fun resolved accepted => ?_
  have known := resolvePipeline_known catalog accepted
  have creates : (do
      let steps ← Call.ofExcept (planSteps resolved.pipeline request)
      createRunWithJobs catalog resolved request userId ids steps).Issues (Issued catalog) :=
    issues_ofExcept_bind fun steps _ =>
      (createRunWithJobs_issues catalog known request userId ids steps).imp
        (issued_of_inserts catalog)
  cases truthy request.dedupeKey with
  | none => exact creates
  | some dedupeKey =>
    refine Issues.bind ?_ fun _ => creates
    refine (issues_perform trivial).bind fun active => ?_
    cases active with
    | none => trivial
    | some existingRun =>
      exact (issues_perform trivial).bind fun _ =>
        closeStepRuns_issues catalog existingRun.id

theorem operation_issues (operation : PipelineOperation) : (operation.call catalog).Issues (Issued catalog) := by
  cases operation with
  | createRun projectId pipelineName request dedupeKey ids =>
    refine (issues_perform trivial).bind fun _ => ?_
    refine issues_ofExcept_bind fun _ _ => ?_
    have expands := expandPipeline_issues catalog projectId (request.expanded pipelineName dedupeKey) none ids
    unfold createRunAsJobs
    cases truthy dedupeKey with
    | none => exact expands
    | some key =>
      refine Issues.bind ?_ fun _ => expands
      refine (issues_perform trivial).bind fun active => ?_
      cases active with
      | none => trivial
      | some existingRun => exact cancelRun_issues catalog existingRun.id _
  | expandPipeline projectId request userId ids =>
    exact expandPipeline_issues catalog projectId request userId ids
  | passTime elapsed => exact issues_perform trivial

theorem closing_jobs {stmt : JobStatement} (closing : Closing stmt) (db : JobsDb) :
    ∀ job ∈ (stmt.effect db).jobs, job.phase.terminal = false →
      ∃ old ∈ db.jobs, old.phase.terminal = false ∧ old.runId = job.runId := by
  have same : ∀ job ∈ db.jobs, job.phase.terminal = false →
      ∃ old ∈ db.jobs, old.phase.terminal = false ∧ old.runId = job.runId :=
    fun job member live => ⟨job, member, live, rfl⟩
  cases stmt with
  | updateJobs update =>
    intro job member live
    obtain ⟨old, present, ⟨_, rfl⟩ | ⟨_, rfl⟩⟩ := Table.mem_updateWhere member
    · cases update with
      | closed jobId reason disposition | backlogChildrenClosed parentId reason disposition => cases live
      | gatesCleared jobIds => exact ⟨old, present, live, rfl⟩
      | _ => cases closing
    · exact ⟨job, present, live, rfl⟩
  | insertAttempt new => rwa [Jobs.insertAttempt_jobs]
  | _ => exact same

theorem shrinks_closeRun (db : PipelineDb) (id : RunId) (errorMessage : Option String) :
    Shrinks db (effect (.closeRun id errorMessage) db) where
  runs := by
    intro run member
    obtain ⟨old, present, ⟨_, rfl⟩ | ⟨_, rfl⟩⟩ := Table.mem_updateWhere member
    · exact ⟨old, present, rfl, rfl, fun live => nomatch live⟩
    · exact ⟨run, present, rfl, rfl, fun live => live⟩
  jobs := fun job member live => ⟨job, member, live, rfl⟩

theorem oneLive_effect {execution : Execution PipelineStatement PipelineDb}
    (issued : Issued catalog execution.statement)
    (executed : execution.after = execution.statement.effect execution.before)
    (one : OneLive execution.before) : OneLive execution.after ↔ Guarded execution := by
  obtain ⟨session, stmt, db, after⟩ := execution
  simp only at issued executed one ⊢
  subst executed
  have unguarded (shrinks : Shrinks db (stmt.effect db))
      (guard : Guarded ⟨session, stmt, db, stmt.effect db⟩) :
      OneLive (stmt.effect db) ↔ Guarded ⟨session, stmt, db, stmt.effect db⟩ :=
    ⟨fun _ => guard, fun _ => shrinks.oneLive one⟩
  cases stmt with
  | select | findActiveRunByDedupeKey dedupeKey => exact unguarded (Shrinks.refl db) trivial
  | insertRun run =>
    cases admits : db.admitsRun run with
    | error message =>
      rw [insertRun_refused admits]
      refine ⟨fun _ admitted => ?_, fun _ => one⟩
      rw [admits] at admitted
      cases admitted
    | ok admitted =>
      have missing := (admitsRun_ok_iff.mp admits).1
      rw [insertRun_admitted admits, oneLive_insertRun (db.stampedRun run) one missing issued.1]
      refine ⟨fun quiet _ => quiet, fun guarded => guarded ?_⟩
      rw [admits]
      rfl
  | closeRun id errorMessage => exact unguarded (shrinks_closeRun db id errorMessage) trivial
  | closeStepRun id => exact unguarded ⟨(Shrinks.refl db).runs, (Shrinks.refl db).jobs⟩ trivial
  | insertJob job =>
    cases missing : db.jobs.findJob job.id with
    | some existing =>
      have kept : effect (.insertJob job) db = db := by
        simp [effect, missing]
      rw [kept]
      exact ⟨fun _ absent => by simp [missing] at absent, fun _ => one⟩
    | none =>
      have added : effect (.insertJob job) db =
          { db with jobs := { db.jobs with jobs := db.jobs.jobs ++ [db.newJob job] } } := by
        simp [effect, missing]
      rw [added, oneLive_insertJob (db.newJob job) one issued]
      exact ⟨fun only _ => only, fun guarded => guarded missing⟩
  | insertRelation relation =>
    refine unguarded ?_ trivial
    unfold effect
    dsimp only
    split
    · exact Shrinks.refl db
    · exact ⟨(Shrinks.refl db).runs, (Shrinks.refl db).jobs⟩
  | jobs stmt =>
    exact unguarded ⟨(Shrinks.refl db).runs, closing_jobs issued db.jobs⟩ trivial

end EveHorizon.Pipelines
