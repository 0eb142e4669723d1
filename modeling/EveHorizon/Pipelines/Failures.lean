import EveHorizon.Library.Recollection
import EveHorizon.Pipelines.Superseding

/-!
# Calls that throw

A call whose request passes every check does not throw: the rows it reads back are
still there, and the ids it generates are unused.
-/

namespace EveHorizon.Pipelines

open Interleaving List Call System
open Jobs (JobId Timestamp Job JobsDb JobStatement JobCall JobUpdate JobRelation)
open PipelineStatement (effect insertJob)

abbrev Steps := List (PipelineStatement × PipelineDb)

/-- Runs and jobs that can be found can still be found later, runs with their project
and their pipeline. -/
structure Persists (before after : PipelineDb) : Prop where
  runs : ∀ id run, before.findRunById id = some run → ∃ later, after.findRunById id = some later ∧
    later.projectId = run.projectId ∧ later.pipelineName = run.pipelineName
  jobs : ∀ id, (before.jobs.findJob id).isSome = true → (after.jobs.findJob id).isSome = true

theorem Persists.refl (db : PipelineDb) : Persists db db where
  runs := fun _ run found => ⟨run, found, rfl, rfl⟩
  jobs := fun _ found => found

open Persists (refl)

theorem Persists.trans {first second third : PipelineDb} (earlier : Persists first second)
    (later : Persists second third) : Persists first third where
  runs := by
    intro id run found
    obtain ⟨middle, foundMiddle, sameProject, samePipeline⟩ := earlier.runs id run found
    obtain ⟨last, foundLast, project, pipeline⟩ := later.runs id middle foundMiddle
    exact ⟨last, foundLast, project.trans sameProject, pipeline.trans samePipeline⟩
  jobs := fun id found => later.jobs id (earlier.jobs id found)

theorem findJob_effect (stmt : JobStatement) (db : JobsDb) (id : JobId) (found : (db.findJob id).isSome = true) :
    ((stmt.effect db).findJob id).isSome = true := by
  cases stmt with
  | updateJobs update =>
    have updated := Table.find?_updateWhere Job.id (update.selects db) (update.changes db.now)
      (fun row _ => JobUpdate.changes_id db.now update row) db.jobs id
    simp only [Jobs.JobStatement.effect, JobsDb.findJob, updated, Option.isSome_map]
    exact found
  | insertAttempt new =>
    rw [JobsDb.findJob, Jobs.insertAttempt_jobs]
    exact found
  | _ => exact found

theorem isSome_find?_append {α : Type} {test : α → Bool} {rows : List α} (added : List α)
    (found : (rows.find? test).isSome = true) : ((rows ++ added).find? test).isSome = true := by
  rw [find?_append]
  cases isFound : rows.find? test with
  | none => simp [isFound] at found
  | some row => rfl

theorem persists_effect (stmt : PipelineStatement) (db : PipelineDb) : Persists db (stmt.effect db) := by
  cases stmt with
  | select | findActiveRunByDedupeKey dedupeKey => exact refl db
  | insertRun run =>
    unfold effect
    dsimp only
    split
    · exact refl db
    · refine ⟨?_, fun _ found => found⟩
      intro id old found
      refine ⟨old, ?_, rfl, rfl⟩
      rw [PipelineDb.findRunById] at found ⊢
      rw [find?_append, found]
      rfl
  | closeRun id errorMessage =>
    refine ⟨?_, fun _ found => found⟩
    intro other run found
    have updated := Table.find?_updateWhere PipelineRun.id (·.id == id)
      (db.closeRun errorMessage) (fun _ _ => rfl) db.runs other
    refine ⟨if run.id == id then db.closeRun errorMessage run else run, ?_, ?_, ?_⟩
    · rw [PipelineDb.findRunById] at found
      simp only [effect, PipelineDb.findRunById, updated, found, Option.map_some]
    · split <;> rfl
    · split <;> rfl
  | closeStepRun id => exact ⟨(refl db).runs, (refl db).jobs⟩
  | insertJob job =>
    unfold effect
    dsimp only
    split
    · exact refl db
    · exact ⟨(refl db).runs, fun _ found => isSome_find?_append _ found⟩
  | insertRelation relation =>
    unfold effect
    dsimp only
    split
    · exact refl db
    · exact ⟨(refl db).runs, (refl db).jobs⟩
  | jobs stmt => exact ⟨(refl db).runs, findJob_effect stmt db.jobs⟩

theorem findJob_insertJob (db : PipelineDb) (job : Job) :
    ((effect (.insertJob job) db).jobs.findJob job.id).isSome = true := by
  unfold effect
  dsimp only
  split
  · next found => exact found
  · rw [JobsDb.findJob, find?_isSome]
    exact ⟨db.newJob job, by simp, by simp [PipelineDb.newJob]⟩

variable (catalog : Catalog)

def Known (db : PipelineDb) : Prop := ∀ run ∈ db.runs, (catalog.findById run.projectId).isSome = true

variable {db : PipelineDb}

theorem known_effect {stmt : PipelineStatement} (issued : Issued catalog stmt)
    (known : Known catalog db) : Known catalog (stmt.effect db) := by
  cases stmt with
  | insertRun run =>
    unfold effect
    dsimp only
    split
    · exact known
    · intro other member
      rcases mem_append.mp member with old | new
      · exact known other old
      · rw [mem_singleton.mp new]
        exact issued.2
  | closeRun id errorMessage =>
    intro run member
    obtain ⟨old, present, ⟨_, rfl⟩ | ⟨_, rfl⟩⟩ := Table.mem_updateWhere member
    · exact known old present
    · exact known run present
  | insertJob job | insertRelation relation =>
    unfold effect
    dsimp only
    split <;> exact known
  | _ => exact known

/-! ## Requests that pass every check -/

def stepNames (steps : List PipelineStep) : List String :=
  steps.zipIdx.map fun entry => stepName entry.2 entry.1

def planJob (expansion : Expansion) (entry : PipelineStep × Nat) :
    Except String (ExecutionType × Jobs.ReviewRequired) := do
  let execution ← planExecution catalog expansion entry.2 entry.1
  planTokens catalog expansion entry.2 entry.1
  let review ← jobColumns expansion (stepName entry.2 entry.1) execution entry.1
  return (execution, review)

def stepAccepted (expansion : Expansion) (names : List String) (entry : PipelineStep × Nat) : Bool :=
  (planJob catalog expansion entry).isOk && (entry.1.dependsOn.getD []).all fun depName =>
    names.contains depName && depName != stepName entry.2 entry.1

def expansionAccepted (projectId : String) (request : ExpandPipelineRequest)
    (userId : Option String) : Bool :=
  match resolvePipeline catalog projectId request with
  | .error _ => false
  | .ok resolved =>
    match planSteps resolved.pipeline request with
    | .error _ => false
    | .ok steps =>
      match startExpansion catalog resolved request userId with
      | .error _ => false
      | .ok expansion => steps.zipIdx.all (stepAccepted catalog expansion (stepNames steps))

def PipelineOperation.accepted : PipelineOperation → Bool
  | .createRun projectId pipelineName request dedupeKey _ =>
    (checkRun catalog projectId pipelineName request).isOk &&
      expansionAccepted catalog projectId (request.expanded pipelineName dedupeKey) none
  | .expandPipeline projectId request userId _ => expansionAccepted catalog projectId request userId
  | .passTime _ => true

def Fresh : PipelineStatement → PipelineDb → Prop
  | .insertRun run, db => db.admitsRun run = .ok ()
  | .insertJob job, db => db.jobs.findJob job.id = none
  | _, _ => True

theorem isOk_iff {α : Type} {outcome : Except String α} : outcome.isOk = true ↔ ∃ value, outcome = .ok value := by
  cases outcome with
  | error message | ok value => simp [Except.isOk, Except.toBool]

variable {catalog} {expansion : Expansion}

theorem planJob_ok {entry : PipelineStep × Nat} {execution : ExecutionType} {review : Jobs.ReviewRequired}
    (planned : planJob catalog expansion entry = .ok (execution, review)) :
    planExecution catalog expansion entry.2 entry.1 = .ok execution ∧
      planTokens catalog expansion entry.2 entry.1 = .ok () ∧
      jobColumns expansion (stepName entry.2 entry.1) execution entry.1 = .ok review := by
  obtain ⟨_, isExecution, rest⟩ := accepts_bind planned
  obtain ⟨_, granted, rest⟩ := accepts_bind rest
  obtain ⟨_, reviewed, rest⟩ := accepts_bind rest
  cases rest
  exact ⟨isExecution, granted, reviewed⟩

variable {ids : NewIds} {steps : List (PipelineStep × Nat)}

theorem createJobs_noRaise {names : List String}
    (accepted : ∀ entry ∈ steps, stepAccepted catalog expansion names entry = true) (created : List (String × JobId)) :
    (createJobs catalog expansion ids steps created).NoRaise Fresh := by
  induction steps generalizing created with
  | nil => trivial
  | cons entry rest ih =>
    have first := accepted entry mem_cons_self
    simp only [stepAccepted, Bool.and_eq_true, isOk_iff] at first
    obtain ⟨⟨⟨execution, review⟩, planned⟩, _⟩ := first
    obtain ⟨isExecution, granted, reviewed⟩ := planJob_ok planned
    unfold createJobs
    rw [isExecution]
    intro db _
    simp only [granted, reviewed, Call.ofExcept, ret_bind]
    intro found fresh
    have missing : (found.jobs.findJob (stepJob expansion ids entry.2
        (stepName entry.2 entry.1) execution review).id).isSome = false := by
      rw [fresh]
      rfl
    simp only [missing, Bool.false_eq_true, ↓reduceIte]
    exact ih (fun other member => accepted other (mem_cons_of_mem entry member)) _

def createdJobs (ids : NewIds) (steps : List (PipelineStep × Nat)) : List (String × JobId) :=
  steps.map fun entry => (stepName entry.2 entry.1, ids.jobId entry.2)

theorem createdJobs_distinct (ids : NewIds) (steps : List PipelineStep) :
    ((createdJobs ids steps.zipIdx).map Prod.snd).Nodup := by
  have same : (createdJobs ids steps.zipIdx).map Prod.snd = (steps.zipIdx.map Prod.snd).map ids.jobId := by
    rw [createdJobs, map_map, map_map]
    rfl
  rw [same, zipIdx_map_snd]
  exact (nodup_range' 1).map ids.distinct

variable {created : List (String × JobId)} {path : Steps}

theorem createJobs_path {final : List (String × JobId)}
    (ended : (createJobs catalog expansion ids steps created).Path path (.ok final)) :
    final = created ++ createdJobs ids steps ∧ ∀ entry ∈ createdJobs ids steps,
      ∃ job db, (PipelineStatement.insertJob job, db) ∈ path ∧ job.id = entry.2 := by
  induction steps generalizing created path with
  | nil =>
    obtain ⟨rfl, same⟩ := path_ret.mp ended
    cases same
    exact ⟨by simp [createdJobs], nofun⟩
  | cons step rest ih =>
    rcases Call.Path.of_ofExcept_bind ended with ⟨execution, _, generated⟩ | ⟨_, _, _, same⟩
    · obtain ⟨_, afterId, rfl, planned⟩ := path_stmt.mp generated
      rcases Call.Path.of_ofExcept_bind planned with ⟨_, _, granted⟩ | ⟨_, _, _, same⟩
      · rcases Call.Path.of_ofExcept_bind granted with ⟨review, _, reviewed⟩ | ⟨_, _, _, same⟩
        · obtain ⟨db, afterInsert, rfl, inserted⟩ := path_stmt.mp reviewed
          beta_reduce at inserted
          split at inserted
          · cases (path_raise.mp inserted).2
          · obtain ⟨isFinal, onTheWay⟩ := ih inserted
            constructor
            · rw [isFinal, append_assoc]
              rfl
            · intro entry member
              rcases mem_cons.mp member with rfl | later
              · exact ⟨stepJob expansion ids step.2 (stepName step.2 step.1) execution review, db, by simp, rfl⟩
              · obtain ⟨job, found, present, same⟩ := onTheWay entry later
                exact ⟨job, found, by simp [present], same⟩
        · cases same
      · cases same
    · cases same

variable {name : String} {jobId : JobId}

theorem mem_of_lookup {entries : List (String × JobId)} (found : entries.lookup name = some jobId) :
    (name, jobId) ∈ entries := by
  induction entries with
  | nil => cases found
  | cons entry rest ih =>
    rw [lookup_cons] at found
    split at found
    · next same =>
        cases found
        have equal : name = entry.1 := by simpa using same
        simp [equal]
    · exact mem_cons_of_mem entry (ih found)

theorem jobNamed_isSome (member : name ∈ created.map Prod.fst) : ∃ jobId, jobNamed created name = some jobId := by
  cases named : jobNamed created name with
  | some jobId => exact ⟨jobId, rfl⟩
  | none =>
    obtain ⟨entry, present, rfl⟩ := mem_map.mp member
    have absent := lookup_eq_none_iff.mp named entry (mem_reverse.mpr present)
    simp at absent

theorem mem_of_jobNamed (named : jobNamed created name = some jobId) : (name, jobId) ∈ created :=
  mem_reverse.mp (mem_of_lookup named)

theorem jobNamed_ne (distinct : (created.map Prod.snd).Nodup) {first second : String}
    {firstId secondId : JobId} (different : first ≠ second) (isFirst : jobNamed created first = some firstId)
    (isSecond : jobNamed created second = some secondId) : firstId ≠ secondId := by
  intro same
  have equal := inj_on_of_nodup_map distinct (mem_of_jobNamed isFirst) (mem_of_jobNamed isSecond) same
  exact different (congrArg Prod.fst equal)

theorem relateStep_noRaise {entry : PipelineStep × Nat} (distinct : (created.map Prod.snd).Nodup)
    (knownDeps : ∀ depName ∈ entry.1.dependsOn.getD [], depName ∈ created.map Prod.fst ∧
      depName ≠ stepName entry.2 entry.1) : (relateStep created entry).NoRaise fun _ db =>
      ∀ row ∈ created, (db.jobs.findJob row.2).isSome = true := by
  unfold relateStep
  dsimp only
  split
  · trivial
  · next jobId named =>
      refine Call.NoRaise.forEach fun depName member => ?_
      obtain ⟨isCreated, different⟩ := knownDeps depName member
      obtain ⟨depJobId, depNamed⟩ := jobNamed_isSome isCreated
      simp only [relateDependency, depNamed]
      intro first findsFirst second findsSecond
      have fromFound := findsFirst _ (mem_of_jobNamed named)
      have toFound := findsSecond _ (mem_of_jobNamed depNamed)
      simp only [bind_eq, ret_bind, Option.isNone_eq_false_iff.mpr fromFound,
        Option.isNone_eq_false_iff.mpr toFound, Bool.false_eq_true, ↓reduceIte]
      intro db _
      rw [if_neg (jobNamed_ne distinct different.symm named depNamed)]
      trivial

variable {error : String}

theorem createRunWithJobs_path {resolved : Resolved} {request : ExpandPipelineRequest}
    {userId : Option String} {steps : List PipelineStep}
    (started : startExpansion catalog resolved request userId = .ok expansion) (accepted : ∀ entry ∈ steps.zipIdx,
      stepAccepted catalog expansion (stepNames steps) entry = true)
    (fresh : ∀ step ∈ path, Fresh step.1 step.2) (lasting : path.Pairwise fun earlier later =>
      Persists (earlier.1.effect earlier.2) later.2) :
    ¬ (createRunWithJobs catalog resolved request userId ids steps).Path path (.error error) := by
  intro failed
  obtain ⟨db, afterRun, rfl, created⟩ := path_stmt.mp failed
  have admitted := fresh _ mem_cons_self
  simp only [Fresh] at admitted
  simp only [admitted, bind_eq, ret_bind, started, Call.ofExcept] at created
  have later := (pairwise_cons.mp lasting).2
  have freshLater : ∀ step ∈ afterRun, Fresh step.1 step.2 := fun step member => fresh step (mem_cons_of_mem _ member)
  rcases Call.Path.of_bind created with ⟨first, rest, final, rfl, finished, related⟩ | ⟨_, thrown, _⟩
  · obtain ⟨isFinal, inserted⟩ := createJobs_path finished
    rw [nil_append] at isFinal
    subst isFinal
    refine (Call.NoRaise.forEach fun entry member =>
      relateStep_noRaise (createdJobs_distinct ids steps) ?_).not_path ?_ related
    · intro depName depends
      have entryAccepted := accepted entry member
      simp only [stepAccepted, Bool.and_eq_true, all_eq_true] at entryAccepted
      have accepts := entryAccepted.2 depName depends
      simpa [stepNames, createdJobs] using accepts
    · intro step member row created
      obtain ⟨job, before, present, same⟩ := inserted row created
      have persists := (pairwise_append.mp later).2.2 _ present step member
      rw [← same]
      exact persists.jobs job.id (findJob_insertJob before job)
  · exact (createJobs_noRaise accepted []).not_path freshLater thrown

/-! ## Superseding does not throw -/

theorem cancelJob_noRaise (jobId : JobId) (reason : Option String) :
    (Jobs.cancelJob jobId reason).NoRaise fun _ _ => True := by
  refine noRaise_perform.bind fun found => ?_
  cases found with
  | none => trivial
  | some job =>
    dsimp only
    split
    · trivial
    · have closes : (Jobs.closeJobAndAttempt jobId (reason.getD "Job cancelled") .cancelled rfl
          .cancelled).NoRaise fun _ _ => True := by
        refine noRaise_perform.bind fun current => ?_
        cases current with
        | none =>
          exact noRaise_perform.bind fun _ => noRaise_perform.bind fun _ =>
            noRaise_perform.bind fun _ => trivial
        | some attempt =>
          exact noRaise_perform.bind fun _ => noRaise_perform.bind fun _ =>
            noRaise_perform.bind fun _ => noRaise_perform.bind fun _ => trivial
      refine closes.bind fun updated => ?_
      cases updated with
      | none => trivial
      | some job => exact noRaise_perform.bind fun _ => trivial

variable {assumed : PipelineStatement → PipelineDb → Prop}

theorem closeStepRuns_noRaise (id : RunId) : (closeStepRuns id).NoRaise assumed := by
  refine noRaise_perform.bind fun steps => Call.NoRaise.forEach fun step _ => ?_
  split
  · trivial
  · exact noRaise_perform

theorem expanderCancelExisting_noRaise (dedupeKey : String) : (expanderCancelExisting dedupeKey).NoRaise assumed := by
  refine noRaise_perform.bind fun active => ?_
  cases active with
  | none => trivial
  | some existingRun =>
    exact noRaise_perform.bind fun _ => closeStepRuns_noRaise existingRun.id

def Present (id : RunId) (projectId pipelineName : String) (db : PipelineDb) : Prop :=
  ∃ run, db.findRunById id = some run ∧ run.projectId = projectId ∧ run.pipelineName = pipelineName

variable {projectId : String}

theorem cancelRun_noRaise {id : RunId} (known : (catalog.findById projectId).isSome = true)
    (pipelineName : String) (reason : Option String) :
    (cancelRun catalog id reason).NoRaise fun _ => Present id projectId pipelineName := by
  have detail : (getRunDetail catalog projectId pipelineName id).NoRaise
      fun _ => Present id projectId pipelineName := by
    intro first _
    simp only [bind_eq, ret_bind, Option.isNone_eq_false_iff.mpr known, Bool.false_eq_true, ↓reduceIte]
    intro second present
    obtain ⟨run, found, rfl, rfl⟩ := present
    simp only [found, bind_eq, ret_bind, ne_eq, not_true_eq_false, or_self, ↓reduceIte]
    exact noRaise_perform.bind fun _ => trivial
  intro db present
  obtain ⟨run, found, rfl, rfl⟩ := present
  simp only [found, bind_eq, ret_bind]
  refine noRaise_perform.bind fun _ => ?_
  refine (closeStepRuns_noRaise id).bind fun _ => ?_
  split
  · refine noRaise_perform.bind fun jobs => ?_
    refine (Call.NoRaise.forEach fun job _ => ?_).bind fun _ => detail
    split
    · trivial
    · exact (cancelJob_noRaise job.id _).lift.bind fun _ => trivial
  · exact detail

variable {dedupeKey : String}

theorem mem_of_active {run : PipelineRun} (active : db.findActiveRunByDedupeKey dedupeKey = some run) : run ∈ db.runs :=
  (mem_filter.mp (Table.latest_mem _ active)).1

theorem serviceCancelExisting_path (known : ∀ step ∈ path, Known catalog step.2)
    (lasting : path.Pairwise fun earlier later => Persists (earlier.1.effect earlier.2) later.2) :
    ¬ (serviceCancelExisting catalog dedupeKey).Path path (.error error) := by
  intro failed
  obtain ⟨db, rest, rfl, onward⟩ := path_stmt.mp failed
  cases active : db.findActiveRunByDedupeKey dedupeKey with
  | none =>
    simp only [active, bind_eq, ret_bind] at onward
    cases (path_ret.mp onward).2
  | some existingRun =>
    simp only [active, bind_eq, ret_bind] at onward
    obtain ⟨run, found⟩ : ∃ run, db.findRunById existingRun.id = some run := by
      rw [← Option.isSome_iff_exists, PipelineDb.findRunById, find?_isSome]
      exact ⟨existingRun, mem_of_active active, by simp⟩
    have inProject := known _ mem_cons_self run (mem_of_find?_eq_some found)
    refine (cancelRun_noRaise inProject run.pipelineName _).not_path ?_ onward
    intro step member
    exact ((pairwise_cons.mp lasting).1 step member).runs existingRun.id run found

section

variable {projectId pipelineName : String} {userId : Option String} {ids : NewIds}
  {path : Steps}

theorem expandPipeline_accepted {request : ExpandPipelineRequest}
    (accepted : expansionAccepted catalog projectId request userId = true) (fresh : ∀ step ∈ path, Fresh step.1 step.2)
    (lasting : path.Pairwise fun earlier later => Persists (earlier.1.effect earlier.2) later.2) {error : String} :
    ¬ (expandPipeline catalog projectId request userId ids).Path path (.error error) := by
  intro failed
  obtain ⟨_, afterRead, rfl, onward⟩ := path_stmt.mp failed
  have freshLater : ∀ step ∈ afterRead, Fresh step.1 step.2 := fun step member => fresh step (mem_cons_of_mem _ member)
  have later := (pairwise_cons.mp lasting).2
  unfold expansionAccepted at accepted
  split at accepted
  · cases accepted
  · next resolved isResolved =>
      split at accepted
      · cases accepted
      · next steps arePlanned =>
          split at accepted
          · cases accepted
          · next expansion started =>
              rw [all_eq_true] at accepted
              simp only [bind_eq, ret_bind, isResolved, Call.ofExcept] at onward
              have creates {part : Steps} (within : part.Sublist afterRead) :
                  ¬ (Call.ofExcept (planSteps resolved.pipeline request) >>= fun steps =>
                    createRunWithJobs catalog resolved request userId ids steps).Path part
                      (.error error) := by
                rw [arePlanned]
                exact createRunWithJobs_path started accepted
                  (fun step member => freshLater step (within.subset member))
                  (later.sublist within)
              cases key : truthy request.dedupeKey with
              | none =>
                rw [key] at onward
                exact creates (List.Sublist.refl _) onward
              | some dedupeKey =>
                rw [key] at onward
                rcases Call.Path.of_bind onward with ⟨first, rest, _, rfl, _, created⟩ | ⟨_, thrown, _⟩
                · exact creates (sublist_append_right first rest) created
                · exact (expanderCancelExisting_noRaise dedupeKey).not_path freshLater thrown

theorem createRun_accepted {request : PipelineRunRequest} {dedupeKey : Option String}
    (accepted : PipelineOperation.accepted catalog (.createRun projectId pipelineName request dedupeKey ids) = true)
    (fresh : ∀ step ∈ path, Fresh step.1 step.2) (known : ∀ step ∈ path, Known catalog step.2)
    (lasting : path.Pairwise fun earlier later => Persists (earlier.1.effect earlier.2) later.2) {error : String} :
    ¬ (createRun catalog projectId pipelineName request dedupeKey ids).Path path (.error error) := by
  intro failed
  simp only [PipelineOperation.accepted, Bool.and_eq_true, isOk_iff] at accepted
  obtain ⟨⟨_, checked⟩, expands⟩ := accepted
  obtain ⟨_, afterRead, rfl, onward⟩ := path_stmt.mp failed
  have later := (pairwise_cons.mp lasting).2
  have freshLater : ∀ step ∈ afterRead, Fresh step.1 step.2 := fun step member => fresh step (mem_cons_of_mem _ member)
  simp only [bind_eq, ret_bind, checked, Call.ofExcept, createRunAsJobs] at onward
  cases key : truthy dedupeKey with
  | none =>
    rw [key] at onward
    exact expandPipeline_accepted expands freshLater later onward
  | some dedupe =>
    rw [key] at onward
    rcases Call.Path.of_bind onward with ⟨first, rest, _, rfl, _, expanded⟩ | ⟨_, thrown, _⟩
    · exact expandPipeline_accepted expands (fun step member => freshLater step (mem_append_right first member))
        (pairwise_append.mp later).2.1 expanded
    · exact serviceCancelExisting_path (fun step member => known step (mem_cons_of_mem _ member)) later thrown

end

/-! ## Calls that find no active run -/

structure OnlyAdds (before after : PipelineDb) : Prop where
  runs : before.runs ⊆ after.runs
  stepRuns : before.stepRuns = after.stepRuns
  jobs : before.jobs.jobs ⊆ after.jobs.jobs
  attempts : before.jobs.attempts = after.jobs.attempts

theorem onlyAdds_refl (db : PipelineDb) : OnlyAdds db db :=
  ⟨fun _ member => member, rfl, fun _ member => member, rfl⟩

theorem inserts_onlyAdds {stmt : PipelineStatement} (inserts : Inserts catalog stmt)
    (db : PipelineDb) : OnlyAdds db (stmt.effect db) := by
  cases stmt with
  | select | findActiveRunByDedupeKey dedupeKey => exact onlyAdds_refl db
  | insertRun run =>
    unfold effect
    dsimp only
    split
    · exact onlyAdds_refl db
    · exact { onlyAdds_refl db with runs := fun _ member => mem_append_left _ member }
  | insertJob job =>
    unfold effect
    dsimp only
    split
    · exact onlyAdds_refl db
    · exact { onlyAdds_refl db with jobs := fun _ member => mem_append_left _ member }
  | insertRelation relation =>
    unfold effect
    dsimp only
    split
    · exact onlyAdds_refl db
    · exact { onlyAdds_refl db with }
  | closeRun id errorMessage | closeStepRun id | jobs stmt => cases inserts

def FindsNone (path : Steps) : Prop :=
  ∀ dedupeKey db, (PipelineStatement.findActiveRunByDedupeKey dedupeKey, db) ∈ path →
    db.findActiveRunByDedupeKey dedupeKey = none

theorem FindsNone.sublist {part : Steps} (none : FindsNone path) (within : part ⊆ path) : FindsNone part :=
  fun dedupeKey db member => none dedupeKey db (within member)

def InsertsOnly {α : Type} (catalog : Catalog) (call : PipelineCall α) : Prop :=
  ∀ (path : Steps) (result : Except String α), call.Path path result → FindsNone path →
    ∀ step ∈ path, Inserts catalog step.1

namespace InsertsOnly

variable {α β : Type} {call : PipelineCall α} {cont : α → PipelineCall β}

theorem of_issues (issues : call.Issues (Inserts catalog)) : InsertsOnly catalog call :=
  fun _ _ ended _ => issues.of_path ended

theorem bind (first : InsertsOnly catalog call) (next : ∀ value, InsertsOnly catalog (cont value)) :
    InsertsOnly catalog (call >>= cont) := by
  intro path result ended none step member
  rcases Call.Path.of_bind ended with ⟨_, _, _, rfl, began, onward⟩ | ⟨_, failed, _⟩
  · rcases mem_append.mp member with inFirst | inRest
    · exact first _ _ began (none.sublist (subset_append_left _ _)) step inFirst
    · exact next _ _ _ onward (none.sublist (subset_append_right _ _)) step inRest
  · exact first _ _ failed none step member

theorem ofExcept_bind {outcome : Except String α}
    (next : ∀ value, outcome = .ok value → InsertsOnly catalog (cont value)) :
    InsertsOnly catalog (Call.ofExcept outcome >>= cont) := by
  cases outcome with
  | ok value => exact next value rfl
  | error error => exact of_issues (show (Call.raise error : PipelineCall α).Issues (Inserts catalog) from trivial)

end InsertsOnly

theorem cancelExisting_insertsOnly (supersede : PipelineRun → PipelineCall Unit) : InsertsOnly catalog (do
      match ← Call.perform (.findActiveRunByDedupeKey dedupeKey) fun db =>
          db.findActiveRunByDedupeKey dedupeKey with
      | none => return ()
      | some existingRun => supersede existingRun : PipelineCall Unit) := by
  intro path result ended none step member
  obtain ⟨db, rest, rfl, onward⟩ := path_stmt.mp ended
  simp only [none dedupeKey db mem_cons_self, bind_eq, ret_bind] at onward
  obtain ⟨rfl, _⟩ := path_ret.mp onward
  rw [mem_singleton.mp member]
  trivial

theorem expandPipeline_insertsOnly (request : ExpandPipelineRequest) (userId : Option String) :
    InsertsOnly catalog (expandPipeline catalog projectId request userId ids) := by
  refine .bind (.of_issues (issues_perform trivial)) fun _ => ?_
  refine .ofExcept_bind fun resolved isResolved => ?_
  have known := resolvePipeline_known catalog isResolved
  have creates : InsertsOnly catalog (Call.ofExcept (planSteps resolved.pipeline request) >>=
      createRunWithJobs catalog resolved request userId ids) :=
    .ofExcept_bind fun steps _ =>
      .of_issues (createRunWithJobs_issues catalog known request userId ids steps)
  cases truthy request.dedupeKey with
  | none => exact creates
  | some dedupeKey => exact (cancelExisting_insertsOnly _).bind fun _ => creates

theorem createRun_insertsOnly (pipelineName : String) (request : PipelineRunRequest) (dedupeKey : Option String) :
    InsertsOnly catalog (createRun catalog projectId pipelineName request dedupeKey ids) := by
  refine .bind (.of_issues (issues_perform trivial)) fun _ => ?_
  refine .ofExcept_bind fun _ _ => ?_
  have expands {expanded : ExpandPipelineRequest} {userId : Option String} :
      InsertsOnly catalog (expandPipeline catalog projectId expanded userId ids) :=
    expandPipeline_insertsOnly expanded userId
  unfold createRunAsJobs
  cases truthy dedupeKey with
  | none => exact expands
  | some dedupe => exact (cancelExisting_insertsOnly _).bind fun _ => expands

/-! ## Runs of the services -/

/-- A call that finds an active run has a request that passes every check, and the
indexes admit what it inserts. -/
def Admitted (catalog : Catalog) (schedule : List (Choice PipelineOperation))
    (trace : List (Execution PipelineStatement PipelineDb))
    (execution : Execution PipelineStatement PipelineDb) : Prop :=
  match execution.statement with
  | .findActiveRunByDedupeKey dedupeKey =>
    execution.before.findActiveRunByDedupeKey dedupeKey ≠ none →
      (∀ operation, (operations schedule)[execution.session]? = some operation → operation.accepted catalog = true) ∧
      ∀ other ∈ trace, other.session = execution.session → Fresh other.statement other.before
  | _ => True

theorem failed_inserts {operation : PipelineOperation} (failed : (operation.call catalog).Path path (.error error))
    (known : ∀ step ∈ path, Known catalog step.2) (lasting : path.Pairwise fun earlier later =>
      Persists (earlier.1.effect earlier.2) later.2) (admitted : FindsNone path ∨
      operation.accepted catalog = true ∧ ∀ step ∈ path, Fresh step.1 step.2) :
    ∀ step ∈ path, Inserts catalog step.1 := by
  rcases admitted with none | ⟨accepted, fresh⟩
  · cases operation with
    | createRun projectId pipelineName request dedupeKey ids =>
      exact createRun_insertsOnly _ _ _ _ _ failed none
    | expandPipeline projectId request userId ids => exact expandPipeline_insertsOnly _ _ _ _ failed none
    | passTime elapsed =>
      have returns : ((PipelineOperation.passTime elapsed).call catalog).NoRaise fun _ _ => True :=
        noRaise_perform
      exact absurd failed (returns.not_path fun _ _ => trivial)
  · cases operation with
    | createRun projectId pipelineName request dedupeKey ids =>
      exact absurd failed (createRun_accepted accepted fresh known lasting)
    | expandPipeline projectId request userId ids =>
      exact absurd failed (expandPipeline_accepted accepted fresh lasting)
    | passTime elapsed => exact absurd failed (noRaise_perform.not_path fresh)

/-- Over every interleaving of the calls: at most one run of a key is live and no other
run of the key has live jobs, exactly if every insert is guarded; and if every call is
admitted, a call that throws has changed no row. -/
theorem one_live_run_iff_guarded (catalog : Catalog) (db : PipelineDb)
    (schedule : List (Choice PipelineOperation)) (one : OneLive db) (known : Known catalog db) :
    ((∀ execution ∈ (runPipelines catalog db schedule).trace, OneLive execution.after) ↔
      ∀ execution ∈ (runPipelines catalog db schedule).trace, Guarded execution) ∧
    ((∀ execution ∈ (runPipelines catalog db schedule).trace,
        Admitted catalog schedule (runPipelines catalog db schedule).trace execution) →
      ∀ ending ∈ (runPipelines catalog db schedule).ended, ∀ error, ending.result = .error error →
        ∀ execution ∈ (runPipelines catalog db schedule).trace,
          execution.session = ending.session → OnlyAdds execution.before execution.after) := by
  have executes := run_executes (fun _ operation => PipelineOperation.call catalog operation)
    db schedule
  have issued := run_issued (fun _ operation => PipelineOperation.call catalog operation)
    (fun _ operation => operation_issues catalog operation) db schedule
  constructor
  · exact run_invariant_iff _ one Guarded schedule fun execution member before =>
      oneLive_effect catalog (issued execution member) (executes execution member).2 before
  · intro admitted ending ended error failed execution member sameSession
    have knownThroughout := (run_invariant _ known schedule fun execution member before => by
      rw [(executes execution member).2]
      exact known_effect catalog (issued execution member) before).2
    have lasting := steps_pairwise (fun _ operation => PipelineOperation.call catalog operation) refl Persists.trans
      persists_effect db schedule ending.session
    obtain ⟨_, _, operation, started, path⟩ := (run_traced
      (fun _ operation => PipelineOperation.call catalog operation) db schedule).finished ending
        ended
    rw [failed] at path
    have inserts := failed_inserts path (forall_steps (fun _ => Known catalog) fun other present _ =>
        (knownThroughout other present).1)
      lasting ?_
    · have inserted := inserts _ (sameSession ▸ step_of_mem_trace member)
      rw [(executes execution member).2]
      exact inserts_onlyAdds inserted execution.before
    · by_cases searched : ∃ execution ∈ (runPipelines catalog db schedule).trace,
          execution.session = ending.session ∧ ∃ dedupeKey, execution.statement = .findActiveRunByDedupeKey dedupeKey ∧
            execution.before.findActiveRunByDedupeKey dedupeKey ≠ none
      · obtain ⟨search, present, ofCall, dedupeKey, isSearch, active⟩ := searched
        have condition := admitted search present
        simp only [Admitted, isSearch] at condition
        obtain ⟨accepted, fresh⟩ := condition active
        exact .inr ⟨accepted operation (ofCall ▸ started), forall_steps Fresh fun other inTrace sameCall =>
            fresh other inTrace (sameCall.trans ofCall.symm)⟩
      · refine .inl fun dedupeKey found inSteps => ?_
        refine forall_steps (fun stmt before => ∀ key,
          stmt = .findActiveRunByDedupeKey key → before.findActiveRunByDedupeKey key = none)
          ?_ _ inSteps dedupeKey rfl
        intro other present sameCall key isSearch
        by_contra active
        exact searched ⟨other, present, sameCall, key, isSearch, active⟩

def sampleManifest : Manifest where
  manifestHash := "hash"
  pipelines := .ok (some [("deploy", { steps := some [{ name := some "build", run := some "make" }] })])

def sampleCatalog : Catalog where
  projects := [⟨"proj_1", "demo"⟩]
  findByProjectAndGitSha := fun _ _ => none
  findLatestByProject := fun _ => some sampleManifest
  validToolchains := []
  isValidPermission := fun _ => false
  can := fun _ _ _ => false

def deployRequest : ExpandPipelineRequest where
  pipelineName := "deploy"
  dedupeKey := some "pr:demo:1"

def sampleIds (name : String) : NewIds where
  runId := "run-" ++ name
  jobId := fun index => "demo-" ++ name ++ String.ofList (List.replicate index '1')
  distinct := by
    intro first second same
    simpa using congrArg String.length same

def expandTwice : System PipelineStatement PipelineDb String Unit :=
  runPipelines sampleCatalog {}
    ([.start (.expandPipeline "proj_1" deployRequest none (sampleIds "a"))] ++ List.replicate 6 (.advance 0) ++
      [.start (.expandPipeline "proj_1" deployRequest none (sampleIds "b"))] ++ List.replicate 8 (.advance 0))

theorem not_oneLive (dedupeKey : String) (clash : ∃ run ∈ db.runs, ∃ other ∈ db.runs, ∃ job ∈ db.jobs.jobs,
      run.dedupeKey = some dedupeKey ∧ other.dedupeKey = some dedupeKey ∧
      run.status.terminal = false ∧ job.phase.terminal = false ∧
      job.runId = some other.id ∧ run.id ≠ other.id) : ¬ OneLive db := by
  intro one
  obtain ⟨run, present, other, otherPresent, job, jobPresent, key, otherKey, live, jobLive, owned, different⟩ := clash
  obtain ⟨id, only⟩ := one dedupeKey
  have first := only.runs run present key live
  have second := only.jobs job jobPresent jobLive other otherPresent otherKey owned
  exact different (first.trans second.symm)

/-- One expansion after the other: both return, and the job of the superseded run is
still waiting to be claimed. -/
theorem expanding_twice_leaves_live_job :
    expandTwice.running.isEmpty = true ∧ expandTwice.ended.map (fun ending => ending.result.isOk) = [true, true] ∧
      ¬ OneLive expandTwice.store := by
  refine ⟨by decide +kernel, by decide +kernel, not_oneLive "pr:demo:1" ?_⟩
  decide +kernel

def createSchedule : List (Choice PipelineOperation) :=
  [.start (.createRun "proj_1" "deploy" {} (some "pr:demo:1") (sampleIds "a"))] ++ List.replicate 8 (.advance 0) ++
    [.start (.createRun "proj_1" "deploy" {} (some "pr:demo:1") (sampleIds "b"))] ++ List.replicate 21 (.advance 0)

theorem creating_twice_leaves_one_run :
    (runPipelines sampleCatalog {} createSchedule).ended.map (fun ending => ending.result.isOk) = [true, true] ∧
      ∀ execution ∈ (runPipelines sampleCatalog {} createSchedule).trace, OneLive execution.after := by
  have start : OneLive {} := fun _ => ⟨"", by simp, by simp⟩
  have known : Known sampleCatalog {} := by simp [Known]
  exact ⟨by decide +kernel, (one_live_run_iff_guarded sampleCatalog {} createSchedule start
    known).1.mpr (by decide +kernel)⟩

end EveHorizon.Pipelines
