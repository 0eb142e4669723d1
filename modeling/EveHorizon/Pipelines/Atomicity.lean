import EveHorizon.Library.Precedence
import EveHorizon.Library.Solo
import EveHorizon.Pipelines.Failures

/-!
# Well-formed and atomic expansions

An expansion that returns should have created one job a selected step, related as the
steps declare and without a cycle; one that throws should have changed nothing.
-/

namespace EveHorizon.Pipelines

open Interleaving List Call Table
open Jobs (JobId Timestamp Job JobsDb JobRelation)
open Precedence (Acyclic)

variable (catalog : Catalog) (projectId : String) (request : ExpandPipelineRequest)

def selectedSteps : Except String (List PipelineStep) := do
  let resolved ← resolvePipeline catalog projectId request
  planSteps resolved.pipeline request

def DependsOn (steps : List PipelineStep) (first second : Nat) : Prop :=
  ∃ step other, steps[first]? = some step ∧ steps[second]? = some other ∧ stepName second other ∈ step.dependsOn.getD []

structure IsJobOf (ids : NewIds) (entry : PipelineStep × Nat) (job : Job) : Prop where
  id : job.id = ids.jobId entry.2
  runId : job.runId = some ids.runId
  stepName : job.stepName = some (stepName entry.2 entry.1)

def Blocks (db : PipelineDb) (jobId relatedJobId : JobId) : Prop :=
  ⟨jobId, relatedJobId, .blocks⟩ ∈ db.jobs.relations

def Declared (ids : NewIds) (steps : List PipelineStep) (relation : JobRelation) : Prop :=
  ∃ first second, DependsOn steps first second ∧ relation = ⟨ids.jobId first, ids.jobId second, .blocks⟩

structure Expanded (ids : NewIds) (steps : List PipelineStep) (before after : PipelineDb) : Prop where
  names : (stepNames steps).Nodup
  jobs : ∃ created, after.jobs.jobs = before.jobs.jobs ++ created ∧ List.Forall₂ (IsJobOf ids) steps.zipIdx created
  relations : ∀ relation, relation ∈ after.jobs.relations ↔
    relation ∈ before.jobs.relations ∨ Declared ids steps relation
  acyclic : ∀ index < steps.length, ¬ Relation.TransGen (Blocks after) (ids.jobId index) (ids.jobId index)

structure Unchanged (before after : PipelineDb) : Prop where
  runs : after.runs = before.runs
  jobs : after.jobs.jobs = before.jobs.jobs
  relations : after.jobs.relations = before.jobs.relations

def Atomic (ids : NewIds) (before : PipelineDb) :
    Except String Unit × PipelineDb → Prop
  | (.ok _, after) => ∃ steps, selectedSteps catalog projectId request = .ok steps ∧ Expanded ids steps before after
  | (.error _, after) => Unchanged before after

variable (request : ExpandPipelineRequest)

def Supersedes (db : PipelineDb) : Prop :=
  ∃ dedupeKey, truthy request.dedupeKey = some dedupeKey ∧ db.findActiveRunByDedupeKey dedupeKey ≠ none

def EmptyKeyTaken (db : PipelineDb) : Prop :=
  request.dedupeKey = some "" ∧ ∃ run ∈ db.runs, run.dedupeKey = some "" ∧ run.status.terminal = false

def StepsAccepted (resolved : Resolved) (request : ExpandPipelineRequest)
    (userId : Option String) (steps : List PipelineStep) : Prop :=
  ∃ expansion, startExpansion catalog resolved request userId = .ok expansion ∧
    ∀ entry ∈ steps.zipIdx, stepAccepted catalog expansion (stepNames steps) entry = true

/-- The request is rejected before anything is written, or it passes every check and its
steps form a graph. -/
def ExpandsSoundly (request : ExpandPipelineRequest) (userId : Option String) (db : PipelineDb) : Prop :=
  match resolvePipeline catalog projectId request with
  | .error _ => True
  | .ok resolved =>
    match planSteps resolved.pipeline request with
    | .error _ => ¬ Supersedes request db
    | .ok steps => EmptyKeyTaken request db ∨
        (StepsAccepted catalog resolved request userId steps ∧ (stepNames steps).Nodup ∧ Acyclic (DependsOn steps))

structure Constrained (db : PipelineDb) : Prop where
  oneActive : ∀ run ∈ db.runs, ∀ other ∈ db.runs, run.status.terminal = false →
    other.status.terminal = false → ∀ dedupeKey, run.dedupeKey = some dedupeKey →
      other.dedupeKey = some dedupeKey → run.id = other.id
  referenced : ∀ relation ∈ db.jobs.relations, (db.jobs.findJob relation.jobId).isSome = true

structure NewIds.Unused (ids : NewIds) (db : PipelineDb) : Prop where
  run : db.findRunById ids.runId = none
  jobs : ∀ index, db.jobs.findJob (ids.jobId index) = none

variable {catalog}

theorem closeStepRuns_alone (id : RunId) (db : PipelineDb) :
    ∃ stepRuns, (closeStepRuns id).alone db = (.ok (), { db with stepRuns := stepRuns }) := by
  suffices closes : ∀ (steps : List PipelineStepRun) (db : PipelineDb), ∃ stepRuns,
      (Call.forEach steps fun step => if isStepTerminal step.status then .ret ()
        else .perform (.closeStepRun step.id) fun _ => () : PipelineCall Unit).alone db =
          (.ok (), { db with stepRuns := stepRuns }) from closes _ db
  intro steps
  induction steps with
  | nil => exact fun db => ⟨db.stepRuns, rfl⟩
  | cons step rest ih =>
    intro db
    obtain ⟨closed, isClosed⟩ : ∃ closed, (if isStepTerminal step.status then .ret ()
        else .perform (.closeStepRun step.id) fun _ => () : PipelineCall Unit).alone db =
          (.ok (), { db with stepRuns := closed }) := by
      cases isStepTerminal step.status with
      | true => exact ⟨db.stepRuns, rfl⟩
      | false => exact ⟨_, rfl⟩
    obtain ⟨stepRuns, later⟩ := ih { db with stepRuns := closed }
    exact ⟨stepRuns, (alone_bind_ok isClosed _).trans later⟩

def superseded (db : PipelineDb) : PipelineDb :=
  match truthy request.dedupeKey with
  | none => db
  | some dedupeKey => ((expanderCancelExisting dedupeKey).alone db).2

variable {dedupeKey : String} {db : PipelineDb}

theorem expanderCancelExisting_none (none : db.findActiveRunByDedupeKey dedupeKey = none) :
    (expanderCancelExisting dedupeKey).alone db = (.ok (), db) := by
  unfold expanderCancelExisting
  rw [alone_perform_bind, none]
  rfl

variable {run : PipelineRun}

theorem expanderCancelExisting_some (active : db.findActiveRunByDedupeKey dedupeKey = some run) :
    ∃ stepRuns, (expanderCancelExisting dedupeKey).alone db = (.ok (), { db with
      runs := updateWhere (·.id == run.id) (db.closeRun (some supersededMessage)) db.runs
      stepRuns := stepRuns }) := by
  unfold expanderCancelExisting
  rw [alone_perform_bind, active]
  exact closeStepRuns_alone run.id _

theorem isActive_iff : db.findActiveRunByDedupeKey dedupeKey ≠ none ↔
      ∃ run ∈ db.runs, run.dedupeKey = some dedupeKey ∧ run.status.terminal = false := by
  constructor
  · intro active
    obtain ⟨run, found⟩ := Option.ne_none_iff_exists'.mp active
    obtain ⟨present, selected⟩ := mem_filter.mp (latest_mem _ found)
    simp only [Bool.and_eq_true, beq_iff_eq, Bool.not_eq_true'] at selected
    exact ⟨run, present, selected⟩
  · intro ⟨run, present, key, live⟩
    have selected : run ∈ db.runs.filter fun run =>
        run.dedupeKey == some dedupeKey && !run.status.terminal :=
      mem_filter.mpr ⟨present, by simp [key, live]⟩
    have found := latest_isSome PipelineRun.createdAt selected
    exact Option.isSome_iff_ne_none.mp found

variable {request : ExpandPipelineRequest}

theorem superseded_idle (idle : ¬ Supersedes request db) : superseded request db = db := by
  unfold superseded
  split
  · rfl
  · next dedupeKey named =>
      have none : db.findActiveRunByDedupeKey dedupeKey = none := by
        by_contra active
        exact idle ⟨dedupeKey, named, active⟩
      rw [expanderCancelExisting_none none]

theorem superseded_busy (named : truthy request.dedupeKey = some dedupeKey)
    (active : db.findActiveRunByDedupeKey dedupeKey = some run) :
    (superseded request db).jobs = db.jobs ∧ (superseded request db).runs =
      updateWhere (·.id == run.id) (db.closeRun (some supersededMessage)) db.runs := by
  obtain ⟨stepRuns, cancelled⟩ := expanderCancelExisting_some active
  unfold superseded
  rw [named]
  dsimp only
  rw [cancelled]
  exact ⟨rfl, rfl⟩

theorem superseded_jobs (request : ExpandPipelineRequest) (db : PipelineDb) :
    (superseded request db).jobs = db.jobs := by
  by_cases busy : Supersedes request db
  · obtain ⟨dedupeKey, named, active⟩ := busy
    obtain ⟨run, found⟩ := Option.ne_none_iff_exists'.mp active
    exact (superseded_busy named found).1
  · rw [superseded_idle busy]

theorem superseded_runs_iff : (superseded request db).runs = db.runs ↔ ¬ Supersedes request db := by
  constructor
  · intro same ⟨dedupeKey, named, active⟩
    obtain ⟨run, found⟩ := Option.ne_none_iff_exists'.mp active
    rw [(superseded_busy named found).2] at same
    obtain ⟨present, selected⟩ := mem_filter.mp (latest_mem _ found)
    rw [← same] at present
    obtain ⟨old, _, ⟨_, closed⟩ | ⟨different, same⟩⟩ := mem_updateWhere present
    · rw [closed] at selected
      simp [PipelineDb.closeRun, RunStatus.terminal] at selected
    · rw [same] at different
      simp at different
  · intro idle
    rw [superseded_idle idle]

theorem superseded_findRunById {id : RunId} (unused : db.findRunById id = none) :
    (superseded request db).findRunById id = none := by
  by_cases busy : Supersedes request db
  · obtain ⟨dedupeKey, named, active⟩ := busy
    obtain ⟨run, found⟩ := Option.ne_none_iff_exists'.mp active
    have updated := find?_updateWhere PipelineRun.id (·.id == run.id)
      (db.closeRun (some supersededMessage)) (fun _ _ => rfl) db.runs id
    rw [PipelineDb.findRunById] at unused ⊢
    rw [(superseded_busy named found).2, updated, unused]
    rfl
  · rwa [superseded_idle busy]

theorem superseded_keyTaken {request : ExpandPipelineRequest} {db : PipelineDb}
    (constrained : Constrained db) {run : PipelineRun} (sameKey : run.dedupeKey = request.dedupeKey)
    (live : run.status.terminal = false) : (superseded request db).keyTaken run = true ↔ EmptyKeyTaken request db := by
  have taken (found : PipelineDb) : found.keyTaken run = true ↔ ∃ dedupeKey,
      request.dedupeKey = some dedupeKey ∧ ∃ other ∈ found.runs,
        other.dedupeKey = some dedupeKey ∧ other.status.terminal = false := by
    cases key : request.dedupeKey with
    | none => simp [PipelineDb.keyTaken, sameKey, key]
    | some dedupeKey => simp [PipelineDb.keyTaken, sameKey, key, live]
  rw [taken]
  constructor
  · intro ⟨dedupeKey, key, other, present, otherKey, otherLive⟩
    by_cases empty : dedupeKey = ""
    · subst empty
      have idle : ¬ Supersedes request db := by
        intro ⟨named, isNamed, _⟩
        simp [truthy, key] at isNamed
      rw [superseded_idle idle] at present
      exact ⟨key, other, present, otherKey, otherLive⟩
    · have named : truthy request.dedupeKey = some dedupeKey := by simp [truthy, key, empty]
      by_cases busy : Supersedes request db
      · obtain ⟨active, isActive, someActive⟩ := busy
        rw [named] at isActive
        cases isActive
        obtain ⟨run, found⟩ := Option.ne_none_iff_exists'.mp someActive
        rw [(superseded_busy named found).2] at present
        obtain ⟨old, wasPresent, ⟨_, rfl⟩ | ⟨different, rfl⟩⟩ := mem_updateWhere present
        · cases otherLive
        · obtain ⟨runPresent, selected⟩ := mem_filter.mp (latest_mem _ found)
          simp only [Bool.and_eq_true, beq_iff_eq, Bool.not_eq_true'] at selected
          have same := constrained.oneActive other wasPresent run runPresent otherLive selected.2
            dedupeKey otherKey selected.1
          simp [same] at different
      · rw [superseded_idle busy] at present
        exact absurd ⟨dedupeKey, named, isActive_iff.mpr ⟨other, present, otherKey, otherLive⟩⟩ busy
  · intro ⟨key, other, present, otherKey, otherLive⟩
    have idle : ¬ Supersedes request db := by
      intro ⟨named, isNamed, _⟩
      simp [truthy, key] at isNamed
    rw [superseded_idle idle]
    exact ⟨"", key, other, present, otherKey, otherLive⟩

variable {job : Job}

theorem insertJob_alone (unused : db.jobs.findJob job.id = none) : (insertJob job).alone db = (.ok (db.newJob job),
      { db with jobs := { db.jobs with jobs := db.jobs.jobs ++ [db.newJob job] } }) := by
  have effect : Statement.effect (PipelineStatement.insertJob job) db =
      { db with jobs := { db.jobs with jobs := db.jobs.jobs ++ [db.newJob job] } } := by
    change PipelineStatement.effect (.insertJob job) db = _
    simp [PipelineStatement.effect, unused]
  rw [insertJob, alone_stmt, effect, unused]
  rfl

def IsStepJob (catalog : Catalog) (expansion : Expansion) (ids : NewIds) (entry : PipelineStep × Nat)
    (job : Job) : Prop :=
  ∃ execution review, planExecution catalog expansion entry.2 entry.1 = .ok execution ∧ ∃ db : PipelineDb,
      job = db.newJob (stepJob expansion ids entry.2 (stepName entry.2 entry.1) execution review)

variable {expansion : Expansion} {ids : NewIds} {entry : PipelineStep × Nat}

theorem IsStepJob.isJobOf (isStepJob : IsStepJob catalog expansion ids entry job) : IsJobOf ids entry job := by
  obtain ⟨execution, review, _, db, rfl⟩ := isStepJob
  exact ⟨rfl, rfl, rfl⟩

variable {steps : List (PipelineStep × Nat)}

theorem createJobs_alone (planned : ∀ entry ∈ steps, (planJob catalog expansion entry).isOk = true)
    (distinct : (steps.map Prod.snd).Nodup) (created : List (String × JobId)) (db : PipelineDb)
    (unused : ∀ entry ∈ steps, db.jobs.findJob (ids.jobId entry.2) = none) :
    ∃ jobs, List.Forall₂ (IsStepJob catalog expansion ids) steps jobs ∧
      (createJobs catalog expansion ids steps created).alone db = (.ok (created ++ createdJobs ids steps),
          { db with jobs := { db.jobs with jobs := db.jobs.jobs ++ jobs } }) := by
  induction steps generalizing created db with
  | nil =>
    refine ⟨[], .nil, ?_⟩
    simp [createJobs, createdJobs]
  | cons entry rest ih =>
    obtain ⟨⟨execution, review⟩, isPlanned⟩ := isOk_iff.mp (planned entry mem_cons_self)
    obtain ⟨isExecution, granted, reviewed⟩ := planJob_ok isPlanned
    let name := stepName entry.2 entry.1
    let job := stepJob expansion ids entry.2 name execution review
    have first : db.jobs.findJob job.id = none := unused entry mem_cons_self
    obtain ⟨new, others⟩ := nodup_cons.mp distinct
    have stillUnused : ∀ other ∈ rest, ({ db.jobs with jobs := db.jobs.jobs ++ [db.newJob job] } : JobsDb).findJob
          (ids.jobId other.2) = none := by
      intro other member
      have absent := unused other (mem_cons_of_mem entry member)
      rw [JobsDb.findJob] at absent ⊢
      rw [find?_append, absent]
      have differs : ids.jobId entry.2 ≠ ids.jobId other.2 := by
        intro same
        exact new (ids.distinct same ▸ mem_map_of_mem member)
      simpa [PipelineDb.newJob, job, stepJob] using differs
    obtain ⟨jobs, areJobs, later⟩ := ih (fun other member => planned other (mem_cons_of_mem entry member)) others
      (created ++ [(name, job.id)]) { db with jobs := { db.jobs with
        jobs := db.jobs.jobs ++ [db.newJob job] } } stillUnused
    refine ⟨db.newJob job :: jobs, .cons ⟨execution, review, isExecution, db, rfl⟩ areJobs, ?_⟩
    rw [createJobs, isExecution]
    change Call.alone (Call.ofExcept (planTokens catalog expansion entry.2 entry.1) >>= _) db = _
    rw [granted]
    change Call.alone (Call.ofExcept (jobColumns expansion name execution entry.1) >>= _) db = _
    rw [reviewed]
    refine (alone_bind_ok (insertJob_alone first) _).trans (later.trans ?_)
    simp [createdJobs, append_assoc, name, job, stepJob]

variable {after : PipelineDb}

theorem insertJob_returned {created : Job}
    (returned : (insertJob job).alone db = (.ok created, after)) : created.id = job.id := by
  rw [insertJob, alone_stmt] at returned
  split at returned
  · cases (Prod.mk.inj returned).1
  · cases (Prod.mk.inj returned).1
    rfl

variable {created : List (String × JobId)}

theorem createJobs_returned {final : List (String × JobId)}
    (returned : (createJobs catalog expansion ids steps created).alone db = (.ok final, after)) :
    final = created ++ createdJobs ids steps ∧ ∀ entry ∈ steps, (planJob catalog expansion entry).isOk = true := by
  induction steps generalizing created db with
  | nil =>
    cases (Prod.mk.inj returned).1
    simp [createdJobs]
  | cons first rest ih =>
    rw [createJobs] at returned
    obtain ⟨execution, _, isExecution, returned⟩ := alone_bind_eq_ok returned
    obtain ⟨_, _, _, returned⟩ := alone_bind_eq_ok returned
    obtain ⟨_, _, granted, returned⟩ := alone_bind_eq_ok returned
    obtain ⟨review, _, reviewed, returned⟩ := alone_bind_eq_ok returned
    obtain ⟨job, _, inserted, later⟩ := alone_bind_eq_ok returned
    rw [alone_ofExcept] at isExecution granted reviewed
    obtain ⟨isFinal, planned⟩ := ih later
    constructor
    · rw [isFinal, insertJob_returned inserted, append_assoc]
      rfl
    intro entry member
    rcases mem_cons.mp member with rfl | inRest
    · refine isOk_iff.mpr ⟨(execution, review), ?_⟩
      rw [planJob, (Prod.mk.inj isExecution).1]
      change (planTokens catalog expansion entry.2 entry.1 >>= _) = _
      rw [(Prod.mk.inj granted).1]
      change (jobColumns expansion (stepName entry.2 entry.1) execution entry.1 >>= _) = _
      rw [(Prod.mk.inj reviewed).1]
      rfl
    · exact planned entry inRest

def Wired (edges : JobRelation → Prop) (before after : PipelineDb) : Prop :=
  ∃ relations, after = { before with jobs := { before.jobs with relations := relations } } ∧
    ∀ relation, relation ∈ relations ↔ relation ∈ before.jobs.relations ∨ edges relation

variable {jobs : List Job}

theorem forEach_wired {β : Type} {items : List β} {body : β → PipelineCall Unit} {edges : β → JobRelation → Prop}
    (each : ∀ item ∈ items, ∀ db : PipelineDb, db.jobs.jobs = jobs →
      ∃ after, (body item).alone db = (.ok (), after) ∧ Wired (edges item) db after)
    (db : PipelineDb) (sameJobs : db.jobs.jobs = jobs) : ∃ after, (Call.forEach items body).alone db = (.ok (), after) ∧
      Wired (fun relation => ∃ item ∈ items, edges item relation) db after := by
  induction items generalizing db with
  | nil => exact ⟨db, rfl, db.jobs.relations, rfl, by simp⟩
  | cons item rest ih =>
    obtain ⟨middle, isFirst, relations, rfl, added⟩ := each item mem_cons_self db sameJobs
    obtain ⟨after, later, final, rfl, others⟩ := ih (fun other member => each other (mem_cons_of_mem item member))
      { db with jobs := { db.jobs with relations := relations } } sameJobs
    refine ⟨_, (alone_bind_ok isFirst _).trans later, final, rfl, ?_⟩
    intro relation
    simp only [others relation, added relation, mem_cons, exists_eq_or_imp, or_assoc]

theorem addDependency_alone {fromId toId : JobId} (fromFound : (db.jobs.findJob fromId).isSome = true)
    (toFound : (db.jobs.findJob toId).isSome = true) (different : fromId ≠ toId) :
    ∃ after, (addDependency fromId toId).alone db = (.ok (), after) ∧ Wired (· = ⟨fromId, toId, .blocks⟩) db after := by
  refine ⟨PipelineStatement.effect (.insertRelation ⟨fromId, toId, .blocks⟩) db, ?_, ?_⟩
  · unfold addDependency select
    rw [alone_perform_bind]
    change Call.alone (Call.perform _ _ >>= _) db = _
    rw [alone_perform_bind, Option.isNone_eq_false_iff.mpr fromFound, Option.isNone_eq_false_iff.mpr toFound]
    simp only [Bool.false_eq_true, ↓reduceIte, if_neg different]
    rfl
  · unfold PipelineStatement.effect
    dsimp only
    by_cases known : (⟨fromId, toId, .blocks⟩ : JobRelation) ∈ db.jobs.relations
    · rw [if_pos (.inr known)]
      refine ⟨db.jobs.relations, rfl, fun relation => ?_⟩
      constructor
      · exact .inl
      · rintro (old | rfl)
        · exact old
        · exact known
    · rw [if_neg (not_or.mpr ⟨different, known⟩)]
      exact ⟨_, rfl, by simp⟩

def DependencyEdge (created : List (String × JobId)) (jobId : JobId) (depName : String)
    (relation : JobRelation) : Prop :=
  ∃ depJobId, jobNamed created depName = some depJobId ∧ relation = ⟨jobId, depJobId, .blocks⟩

def StepEdges (created : List (String × JobId)) (entry : PipelineStep × Nat)
    (relation : JobRelation) : Prop :=
  ∃ jobId, jobNamed created (stepName entry.2 entry.1) = some jobId ∧
    ∃ depName ∈ entry.1.dependsOn.getD [], DependencyEdge created jobId depName relation

variable {name : String} {jobId : JobId}

theorem relateDependency_alone {depName : String} (distinct : (created.map Prod.snd).Nodup)
    (named : jobNamed created name = some jobId) (depCreated : depName ∈ created.map Prod.fst)
    (different : depName ≠ name) (present : ∀ row ∈ created, (db.jobs.findJob row.2).isSome = true) :
    ∃ after, (relateDependency created name jobId depName).alone db = (.ok (), after) ∧
      Wired (DependencyEdge created jobId depName) db after := by
  obtain ⟨depJobId, depNamed⟩ := jobNamed_isSome depCreated
  obtain ⟨after, returned, relations, isAfter, added⟩ := addDependency_alone
    (present _ (mem_of_jobNamed named)) (present _ (mem_of_jobNamed depNamed))
    (jobNamed_ne distinct different.symm named depNamed)
  refine ⟨after, ?_, relations, isAfter, ?_⟩
  · rw [relateDependency, depNamed]
    exact returned
  · intro relation
    rw [added]
    simp [DependencyEdge, depNamed]

theorem relateStep_alone (distinct : (created.map Prod.snd).Nodup)
    (isCreated : stepName entry.2 entry.1 ∈ created.map Prod.fst)
    (knownDeps : ∀ depName ∈ entry.1.dependsOn.getD [], depName ∈ created.map Prod.fst ∧
      depName ≠ stepName entry.2 entry.1) (present : ∀ row ∈ created, (db.jobs.findJob row.2).isSome = true) :
    ∃ after, (relateStep created entry).alone db = (.ok (), after) ∧ Wired (StepEdges created entry) db after := by
  obtain ⟨jobId, named⟩ := jobNamed_isSome isCreated
  obtain ⟨after, returned, relations, rfl, added⟩ := forEach_wired
    (fun depName member (found : PipelineDb) (sameJobs : found.jobs.jobs = db.jobs.jobs) =>
      relateDependency_alone distinct named (knownDeps depName member).1
        (knownDeps depName member).2 fun row inCreated => by
          have was := present row inCreated
          rwa [JobsDb.findJob, ← sameJobs] at was) db rfl
  refine ⟨{ db with jobs := { db.jobs with relations := relations } }, ?_, relations, rfl, ?_⟩
  · rw [relateStep]
    simp only [named]
    exact returned
  · intro relation
    rw [added]
    simp [StepEdges, named]

theorem relateStep_returned (isCreated : stepName entry.2 entry.1 ∈ created.map Prod.fst)
    (returned : (relateStep created entry).alone db = (.ok (), after)) :
    ∀ depName ∈ entry.1.dependsOn.getD [], depName ∈ created.map Prod.fst ∧ depName ≠ stepName entry.2 entry.1 := by
  obtain ⟨jobId, named⟩ := jobNamed_isSome isCreated
  unfold relateStep at returned
  simp only [named] at returned
  intro depName member
  obtain ⟨before, reached, each⟩ := alone_forEach_ok returned depName member
  cases depNamed : jobNamed created depName with
  | none =>
    rw [relateDependency, depNamed] at each
    cases (Prod.mk.inj each).1
  | some depJobId =>
    refine ⟨mem_map.mpr ⟨_, mem_of_jobNamed depNamed, rfl⟩, ?_⟩
    rintro rfl
    rw [named] at depNamed
    cases depNamed
    rw [relateDependency, named] at each
    unfold addDependency select at each
    rw [alone_perform_bind] at each
    change Call.alone (Call.perform _ _ >>= _) before = _ at each
    rw [alone_perform_bind] at each
    split at each
    · cases (Prod.mk.inj each).1
    · simp at each

variable {steps : List PipelineStep}

theorem jobNamed_createdJobs (names : (stepNames steps).Nodup) :
    jobNamed (createdJobs ids steps.zipIdx) name = some jobId ↔
      ∃ index step, steps[index]? = some step ∧ stepName index step = name ∧ ids.jobId index = jobId := by
  have listed (row : String × JobId) : row ∈ createdJobs ids steps.zipIdx ↔
      ∃ index step, steps[index]? = some step ∧ stepName index step = row.1 ∧ ids.jobId index = row.2 := by
    constructor
    · intro member
      obtain ⟨⟨step, index⟩, isStep, rfl⟩ := mem_map.mp member
      exact ⟨index, step, mk_mem_zipIdx_iff_getElem?.mp isStep, rfl, rfl⟩
    · intro ⟨index, step, isStep, isName, isId⟩
      exact mem_map.mpr ⟨(step, index), mk_mem_zipIdx_iff_getElem?.mpr isStep, Prod.ext isName isId⟩
  rw [← listed (name, jobId)]
  constructor
  · exact mem_of_jobNamed
  · intro member
    obtain ⟨found, isFound⟩ := jobNamed_isSome (mem_map_of_mem member)
    have sameNames : (createdJobs ids steps.zipIdx).map Prod.fst = stepNames steps := by
      rw [createdJobs, map_map]
      rfl
    rw [← sameNames] at names
    have same := inj_on_of_nodup_map names (mem_of_jobNamed isFound) member rfl
    rw [isFound, (Prod.mk.inj same).2]

theorem declared_iff (names : (stepNames steps).Nodup) (relation : JobRelation) :
    (∃ entry ∈ steps.zipIdx, StepEdges (createdJobs ids steps.zipIdx) entry relation) ↔
      Declared ids steps relation := by
  constructor
  · intro ⟨⟨step, index⟩, isStep, jobId, named, depName, depends, depJobId, depNamed, isRelation⟩
    obtain ⟨other, otherStep, isOther, otherName, rfl⟩ := (jobNamed_createdJobs names).mp depNamed
    have inSteps := mk_mem_zipIdx_iff_getElem?.mp isStep
    have ofStep : jobNamed (createdJobs ids steps.zipIdx) (stepName index step) = some (ids.jobId index) :=
      (jobNamed_createdJobs names).mpr ⟨index, step, inSteps, rfl, rfl⟩
    rw [ofStep] at named
    cases named
    exact ⟨index, other, ⟨step, otherStep, inSteps, isOther, otherName ▸ depends⟩, isRelation⟩
  · intro ⟨first, second, ⟨step, other, isStep, isOther, depends⟩, isRelation⟩
    exact ⟨(step, first), mk_mem_zipIdx_iff_getElem?.mpr isStep, ids.jobId first,
      (jobNamed_createdJobs names).mpr ⟨first, step, isStep, rfl, rfl⟩, stepName second other,
      depends, ids.jobId second, (jobNamed_createdJobs names).mpr ⟨second, other, isOther, rfl, rfl⟩, isRelation⟩

theorem acyclic_iff {before : PipelineDb} (constrained : Constrained before)
    (unused : ids.Unused before) (relations : ∀ relation, relation ∈ after.jobs.relations ↔
      relation ∈ before.jobs.relations ∨ Declared ids steps relation) :
    (∀ index < steps.length, ¬ Relation.TransGen (Blocks after) (ids.jobId index) (ids.jobId index)) ↔
      Acyclic (DependsOn steps) := by
  have edges (index : Nat) (reached : JobId) : Blocks after (ids.jobId index) reached ↔
      ∃ other, ids.jobId other = reached ∧ DependsOn steps index other := by
    rw [Blocks, relations]
    constructor
    · rintro (old | ⟨first, second, depends, same⟩)
      · have found := constrained.referenced _ old
        rw [unused.jobs] at found
        cases found
      · obtain ⟨sameFirst, sameSecond, _⟩ := JobRelation.mk.inj same
        exact ⟨second, sameSecond.symm, ids.distinct sameFirst ▸ depends⟩
    · intro ⟨other, same, depends⟩
      exact .inr ⟨index, other, depends, by rw [same]⟩
  rw [← Precedence.acyclic_image_iff ids.distinct edges]
  constructor
  · intro bounded index cycle
    obtain ⟨_, first, _⟩ := Relation.TransGen.head'_iff.mp cycle
    obtain ⟨_, _, step, _, isStep, _⟩ := (edges index _).mp first
    exact bounded index (List.getElem?_eq_some_iff.mp isStep).1 cycle
  · exact fun none index _ => none index

theorem insertRun_alone (admitted : db.admitsRun run = .ok ()) :
    (insertRun run).alone db = (.ok (db.stampedRun run), { db with runs := db.runs ++ [db.stampedRun run] }) := by
  rw [insertRun, alone_stmt, admitted]
  exact Prod.ext rfl (insertRun_admitted admitted)

theorem insertRun_alone_refused {message : String} (refused : db.admitsRun run = .error message) :
    (insertRun run).alone db = (.error message, db) := by
  rw [insertRun, alone_stmt, refused]
  exact Prod.ext rfl (insertRun_refused refused)

theorem ids_of_jobs {steps : List (PipelineStep × Nat)} (areJobs : List.Forall₂ (IsJobOf ids) steps jobs) :
    jobs.map Job.id = steps.map fun entry => ids.jobId entry.2 := by
  induction areJobs with
  | nil => rfl
  | cons isJob _ ih => rw [map_cons, map_cons, isJob.id, ih]

abbrev resolvedRun (resolved : Resolved) (request : ExpandPipelineRequest) (ids : NewIds) : PipelineRun :=
  newRun resolved.projectId request resolved.manifest (request.envName <|> resolved.pipeline.env) ids

section

variable {resolved : Resolved} {request : ExpandPipelineRequest} {userId : Option String}
  {ids : NewIds} {steps : List PipelineStep} {db : PipelineDb}

section

variable (admitted : db.admitsRun (resolvedRun resolved request ids) = .ok ())
include admitted

theorem createRunWithJobs_wired (accepted : StepsAccepted catalog resolved request userId steps)
    (unused : ∀ index, db.jobs.findJob (ids.jobId index) = none) :
    ∃ expansion after, startExpansion catalog resolved request userId = .ok expansion ∧
      (createRunWithJobs catalog resolved request userId ids steps).alone db = (.ok (), after) ∧
      (∃ created, after.jobs.jobs = db.jobs.jobs ++ created ∧
        List.Forall₂ (IsStepJob catalog expansion ids) steps.zipIdx created) ∧
      ∀ relation, relation ∈ after.jobs.relations ↔ relation ∈ db.jobs.relations ∨
        ∃ entry ∈ steps.zipIdx, StepEdges (createdJobs ids steps.zipIdx) entry relation := by
  obtain ⟨expansion, started, accepts⟩ := accepted
  have distinctIndexes : (steps.zipIdx.map Prod.snd).Nodup := by
    rw [zipIdx_map_snd]
    exact nodup_range' 1
  have planned : ∀ entry ∈ steps.zipIdx, (planJob catalog expansion entry).isOk = true := by
    intro entry member
    have accepted := accepts entry member
    rw [stepAccepted, Bool.and_eq_true] at accepted
    exact accepted.1
  have knownDeps : ∀ entry ∈ steps.zipIdx, ∀ depName ∈ entry.1.dependsOn.getD [],
      depName ∈ (createdJobs ids steps.zipIdx).map Prod.fst ∧ depName ≠ stepName entry.2 entry.1 := by
    intro entry member depName depends
    have accepted := accepts entry member
    rw [stepAccepted, Bool.and_eq_true, all_eq_true] at accepted
    simpa [stepNames, createdJobs] using accepted.2 depName depends
  let withRun := { db with runs := db.runs ++ [db.stampedRun (resolvedRun resolved request ids)] }
  obtain ⟨created, areJobs, createsJobs⟩ := createJobs_alone planned distinctIndexes [] withRun
    fun entry _ => unused entry.2
  let withJobs := { withRun with jobs := { withRun.jobs with jobs := withRun.jobs.jobs ++ created } }
  have present : ∀ row ∈ createdJobs ids steps.zipIdx, (withJobs.jobs.findJob row.2).isSome = true := by
    intro row member
    obtain ⟨entry, isStep, rfl⟩ := mem_map.mp member
    have isId : ids.jobId entry.2 ∈ created.map Job.id := by
      rw [ids_of_jobs (areJobs.imp fun _ _ isStepJob => isStepJob.isJobOf)]
      exact mem_map_of_mem isStep
    obtain ⟨job, isCreated, same⟩ := mem_map.mp isId
    rw [JobsDb.findJob, find?_isSome]
    exact ⟨job, mem_append_right _ isCreated, by simpa using same⟩
  obtain ⟨after, relates, relations, rfl, added⟩ := forEach_wired
    (fun entry member (found : PipelineDb) (sameJobs : found.jobs.jobs = withJobs.jobs.jobs) =>
      relateStep_alone (createdJobs_distinct ids steps)
        (mem_map.mpr ⟨_, mem_map_of_mem member, rfl⟩) (knownDeps entry member) fun row inCreated => by
          have was := present row inCreated
          rwa [JobsDb.findJob, ← sameJobs] at was) withJobs rfl
  refine ⟨expansion, { withJobs with jobs := { withJobs.jobs with relations := relations } }, started,
    ?_, ⟨created, rfl, areJobs⟩, added⟩
  unfold createRunWithJobs
  refine (alone_bind_ok (insertRun_alone admitted) _).trans ?_
  rw [started]
  exact (alone_bind_ok createsJobs _).trans relates

theorem createRunWithJobs_alone (accepted : StepsAccepted catalog resolved request userId steps)
    (unused : ∀ index, db.jobs.findJob (ids.jobId index) = none) (names : (stepNames steps).Nodup) :
    ∃ after, (createRunWithJobs catalog resolved request userId ids steps).alone db = (.ok (), after) ∧
      (∃ created, after.jobs.jobs = db.jobs.jobs ++ created ∧ List.Forall₂ (IsJobOf ids) steps.zipIdx created) ∧
      ∀ relation, relation ∈ after.jobs.relations ↔ relation ∈ db.jobs.relations ∨ Declared ids steps relation := by
  obtain ⟨expansion, after, _, returned, ⟨created, areCreated, areJobs⟩, added⟩ :=
    createRunWithJobs_wired admitted accepted unused
  refine ⟨after, returned, ⟨created, areCreated, ?_⟩, fun relation => ?_⟩
  · exact areJobs.imp fun _ _ isStepJob => isStepJob.isJobOf
  · exact (added relation).trans (or_congr_right (declared_iff names relation))

end

theorem createRunWithJobs_returned {after : PipelineDb}
    (returned : (createRunWithJobs catalog resolved request userId ids steps).alone db =
      (.ok (), after)) : StepsAccepted catalog resolved request userId steps := by
  unfold createRunWithJobs at returned
  obtain ⟨_, _, _, returned⟩ := alone_bind_eq_ok returned
  obtain ⟨expansion, _, started, returned⟩ := alone_bind_eq_ok returned
  obtain ⟨created, _, createsJobs, relates⟩ := alone_bind_eq_ok returned
  rw [alone_ofExcept] at started
  obtain ⟨isCreated, planned⟩ := createJobs_returned createsJobs
  rw [nil_append] at isCreated
  subst isCreated
  refine ⟨expansion, (Prod.mk.inj started).1, fun entry member => ?_⟩
  obtain ⟨_, _, related⟩ := alone_forEach_ok relates entry member
  have isNamed : stepName entry.2 entry.1 ∈ (createdJobs ids steps.zipIdx).map Prod.fst :=
    mem_map.mpr ⟨_, mem_map_of_mem member, rfl⟩
  have known := relateStep_returned isNamed related
  rw [stepAccepted, Bool.and_eq_true, all_eq_true]
  refine ⟨planned entry member, fun depName depends => ?_⟩
  simpa [stepNames, createdJobs] using known depName depends

theorem createRunWithJobs_run (admitted : db.admitsRun (resolvedRun resolved request ids) = .ok ()) :
    (((createRunWithJobs catalog resolved request userId ids steps).alone db).2.findRunById
      ids.runId).isSome = true := by
  let run := resolvedRun resolved request ids
  have present : (({ db with runs := db.runs ++ [db.stampedRun run] } : PipelineDb).findRunById
      ids.runId).isSome = true := by
    rw [PipelineDb.findRunById, find?_isSome]
    exact ⟨db.stampedRun run, by simp, by simp [PipelineDb.stampedRun, run, newRun]⟩
  have issues : (do
      let expansion ← .ofExcept (startExpansion catalog resolved request userId)
      let created ← createJobs catalog expansion ids steps.zipIdx []
      Call.forEach steps.zipIdx (relateStep created) : PipelineCall Unit).Issues
        (Inserts catalog) := by
    refine issues_ofExcept_bind fun expansion _ => ?_
    refine (createJobs_issues catalog expansion ids steps.zipIdx []).bind fun created => ?_
    exact Issues.forEach fun entry _ => relateStep_issues catalog created entry
  have stays : ∀ stmt, Inserts catalog stmt → ∀ found : PipelineDb,
      (found.findRunById ids.runId).isSome = true →
        ((Statement.effect stmt found : PipelineDb).findRunById ids.runId).isSome = true := by
    intro stmt _ found isFound
    obtain ⟨stored, isStored⟩ := Option.isSome_iff_exists.mp isFound
    obtain ⟨later, isLater, _⟩ := (persists_effect stmt found).runs ids.runId stored isStored
    exact Option.isSome_iff_exists.mpr ⟨later, isLater⟩
  unfold createRunWithJobs
  rw [alone_bind_ok (insertRun_alone admitted)]
  exact issues.alone_keeps stays present

end

variable {projectId : String}

theorem resolving_alone {α : Type} (rest : Resolved → List PipelineStep → PipelineCall α) : (do
      select fun _ => ()
      let resolved ← .ofExcept (resolvePipeline catalog projectId request)
      match truthy request.dedupeKey with
      | none => pure ()
      | some dedupeKey => expanderCancelExisting dedupeKey
      let steps ← .ofExcept (planSteps resolved.pipeline request)
      rest resolved steps : PipelineCall α).alone db =
      match resolvePipeline catalog projectId request with
      | .error error => (.error error, db)
      | .ok resolved =>
        match planSteps resolved.pipeline request with
        | .error error => (.error error, superseded request db)
        | .ok steps => (rest resolved steps).alone (superseded request db) := by
  unfold select
  rw [alone_perform_bind]
  change Call.alone (Call.ofExcept (resolvePipeline catalog projectId request) >>= _) db = _
  rw [alone_bind, alone_ofExcept]
  cases resolvePipeline catalog projectId request with
  | error error => rfl
  | ok resolved =>
    have planned (found : PipelineDb) : (do
        let steps ← Call.ofExcept (planSteps resolved.pipeline request)
        rest resolved steps : PipelineCall α).alone
          found = match planSteps resolved.pipeline request with
          | .error error => (.error error, found)
          | .ok steps => (rest resolved steps).alone found := by
      rw [alone_bind, alone_ofExcept]
      cases planSteps resolved.pipeline request <;> rfl
    rw [superseded]
    cases truthy request.dedupeKey with
    | none => exact planned db
    | some dedupeKey =>
      have cancelled : ∃ reached, (expanderCancelExisting dedupeKey).alone db = (.ok (), reached) := by
        cases active : db.findActiveRunByDedupeKey dedupeKey with
        | none => exact ⟨db, expanderCancelExisting_none active⟩
        | some run =>
          obtain ⟨_, isCancelled⟩ := expanderCancelExisting_some active
          exact ⟨_, isCancelled⟩
      obtain ⟨reached, isReached⟩ := cancelled
      dsimp only
      rw [isReached]
      exact (alone_bind_ok isReached _).trans (planned reached)

theorem expandPipeline_alone {projectId : String} {request : ExpandPipelineRequest}
    {userId : Option String} {ids : NewIds} {db : PipelineDb} :
    (expandPipeline catalog projectId request userId ids).alone db =
      match resolvePipeline catalog projectId request with
      | .error error => (.error error, db)
      | .ok resolved =>
        match planSteps resolved.pipeline request with
        | .error error => (.error error, superseded request db)
        | .ok steps => (createRunWithJobs catalog resolved request userId ids steps).alone
            (superseded request db) :=
  resolving_alone fun resolved steps => createRunWithJobs catalog resolved request userId ids steps

theorem admitsRun_superseded {projectId : String} {request : ExpandPipelineRequest}
    {manifest : Manifest} {envName : Option String} {ids : NewIds} {db : PipelineDb}
    (constrained : Constrained db) (unused : ids.Unused db) :
    (superseded request db).admitsRun (newRun projectId request manifest envName ids) = .ok () ↔
      ¬ EmptyKeyTaken request db := by
  have free := @superseded_keyTaken _ db constrained (newRun projectId request manifest envName ids) rfl rfl
  rw [admitsRun_ok_iff, ← free]
  constructor
  · intro ⟨_, free⟩ taken
    rw [free] at taken
    cases taken
  · intro free
    exact ⟨superseded_findRunById unused.run, by simpa using free⟩

variable {userId : Option String}

theorem createRunWithJobs_atomic_iff {resolved : Resolved} (constrained : Constrained db) (unused : ids.Unused db)
    (selected : selectedSteps catalog projectId request = .ok steps) :
    Atomic catalog projectId request ids db ((createRunWithJobs catalog resolved request userId ids steps).alone
          (superseded request db)) ↔ EmptyKeyTaken request db ∨
        (StepsAccepted catalog resolved request userId steps ∧ (stepNames steps).Nodup ∧
          Acyclic (DependsOn steps)) := by
  have sameJobs := superseded_jobs request db
  have unusedJobs : ∀ index, (superseded request db).jobs.findJob (ids.jobId index) = none := by
    rw [sameJobs]
    exact unused.jobs
  by_cases taken : EmptyKeyTaken request db
  · have idle : ¬ Supersedes request db := by
      intro ⟨named, isNamed, _⟩
      simp [truthy, taken.1] at isNamed
    have refused : ∃ message, (superseded request db).admitsRun (resolvedRun resolved request ids) = .error message :=
      by
      cases admits : (superseded request db).admitsRun (resolvedRun resolved request ids) with
      | error message => exact ⟨message, rfl⟩
      | ok admitted => exact absurd taken ((admitsRun_superseded constrained unused).mp admits)
    obtain ⟨message, isRefused⟩ := refused
    rw [superseded_idle idle] at isRefused ⊢
    refine ⟨fun _ => .inl taken, fun _ => ?_⟩
    unfold createRunWithJobs
    rw [alone_bind, insertRun_alone_refused isRefused]
    exact ⟨rfl, rfl, rfl⟩
  · have admitted : (superseded request db).admitsRun (resolvedRun resolved request ids) = .ok () :=
      (admitsRun_superseded constrained unused).mpr taken
    constructor
    · intro atomic
      have stays := @createRunWithJobs_run catalog _ _ userId _ steps _ admitted
      rcases ended : (createRunWithJobs catalog resolved request userId ids steps).alone
        (superseded request db) with ⟨result, after⟩
      rw [ended] at atomic stays
      cases result with
      | error error =>
        have gone := unused.run
        rw [PipelineDb.findRunById, ← atomic.runs] at gone
        rw [PipelineDb.findRunById, gone] at stays
        cases stays
      | ok value =>
        obtain ⟨expandedSteps, same, expanded⟩ := atomic
        rw [selected] at same
        cases same
        exact .inr ⟨createRunWithJobs_returned ended, expanded.names,
          (acyclic_iff constrained unused expanded.relations).mp expanded.acyclic⟩
    · rintro (isTaken | ⟨accepted, names, acyclic⟩)
      · exact absurd isTaken taken
      · obtain ⟨after, returned, jobs, relations⟩ := createRunWithJobs_alone admitted accepted unusedJobs names
        rw [sameJobs] at jobs relations
        rw [returned]
        exact ⟨steps, selected, names, jobs, relations, (acyclic_iff constrained unused relations).mpr acyclic⟩

/-- An expansion ends with all of it or nothing exactly if the request is rejected before
anything is written, or passes every check with distinct names and acyclic
declarations. -/
theorem expandPipeline_atomic_iff (catalog : Catalog) (projectId : String)
    (request : ExpandPipelineRequest) (userId : Option String) (ids : NewIds) (db : PipelineDb)
    (constrained : Constrained db) (unused : ids.Unused db) :
    Atomic catalog projectId request ids db ((expandPipeline catalog projectId request userId ids).alone db) ↔
      ExpandsSoundly catalog projectId request userId db := by
  rw [expandPipeline_alone]
  unfold ExpandsSoundly
  cases isResolved : resolvePipeline catalog projectId request with
  | error error => exact ⟨fun _ => trivial, fun _ => ⟨rfl, rfl, rfl⟩⟩
  | ok resolved =>
    dsimp only
    cases isPlanned : planSteps resolved.pipeline request with
    | error error =>
      dsimp only
      constructor
      · intro unchanged
        exact superseded_runs_iff.mp unchanged.runs
      · intro idle
        rw [superseded_idle idle]
        exact ⟨rfl, rfl, rfl⟩
    | ok steps =>
      have selected : selectedSteps catalog projectId request = .ok steps := by
        rw [selectedSteps, isResolved]
        exact isPlanned
      exact createRunWithJobs_atomic_iff constrained unused selected

theorem expandsSoundly_of_accepted (db : PipelineDb)
    (accepted : expansionAccepted catalog projectId request userId = true)
    (selected : selectedSteps catalog projectId request = .ok steps) (names : (stepNames steps).Nodup)
    (acyclic : Acyclic (DependsOn steps)) : ExpandsSoundly catalog projectId request userId db := by
  obtain ⟨resolved, isResolved, isPlanned⟩ := accepts_bind selected
  unfold expansionAccepted at accepted
  unfold ExpandsSoundly
  simp only [isResolved, isPlanned] at accepted ⊢
  cases started : startExpansion catalog resolved request userId with
  | error error =>
    rw [started] at accepted
    cases accepted
  | ok expansion =>
    rw [started] at accepted
    exact .inr ⟨⟨expansion, started, all_eq_true.mp accepted⟩, names, acyclic⟩

def releaseCatalog (steps : List PipelineStep) : Catalog where
  projects := [⟨"proj_1", "demo"⟩]
  findByProjectAndGitSha := fun _ _ => none
  findLatestByProject := fun _ => some
    { manifestHash := "hash", pipelines := .ok (some [("release", { steps := some steps })]) }
  validToolchains := []
  isValidPermission := fun _ => false
  can := fun _ _ _ => false

def releaseRequest : ExpandPipelineRequest where
  pipelineName := "release"

def releaseSteps (dependency : String) : List PipelineStep :=
  [{ name := some "build", run := some "make" },
    { name := some "deploy", run := some "make deploy", dependsOn := some [dependency] }]

def expandRelease (dependency : String) : Except String Unit × PipelineDb :=
  (expandPipeline (releaseCatalog (releaseSteps dependency)) "proj_1" releaseRequest none (sampleIds "a")).alone {}

/-- The run and the jobs of a pipeline that names an unknown step stay when the call
throws. -/
theorem unknown_dependency_leaves_run :
    ¬ Atomic (releaseCatalog (releaseSteps "lint")) "proj_1" releaseRequest (sampleIds "a") {}
      (expandRelease "lint") := by
  have throws : (expandRelease "lint").1.isOk = false := by decide +kernel
  have leaves : (expandRelease "lint").2.runs.length = 1 := by decide +kernel
  intro atomic
  rcases ended : expandRelease "lint" with ⟨result, after⟩
  rw [ended] at throws leaves atomic
  cases result with
  | error error =>
    rw [atomic.runs] at leaves
    cases leaves
  | ok value => cases throws

theorem release_expands_atomically :
    Atomic (releaseCatalog (releaseSteps "build")) "proj_1" releaseRequest (sampleIds "a") {}
      (expandRelease "build") := by
  have constrained : Constrained {} := ⟨by simp, by simp⟩
  have unused : (sampleIds "a").Unused {} := ⟨rfl, fun _ => rfl⟩
  have acyclic : Acyclic (DependsOn (releaseSteps "build")) := by
    refine Precedence.acyclic_of_lt id fun first second depends => ?_
    obtain ⟨step, other, isStep, isOther, named⟩ := depends
    match first, second with
    | 0, _ =>
      cases isStep
      cases named
    | 1, 0 => exact Nat.one_pos
    | 1, 1 =>
      cases isStep
      cases isOther
      revert named
      decide +kernel
    | 1, _ + 2 => cases isOther
    | _ + 2, _ => cases isStep
  have accepted : expansionAccepted (releaseCatalog (releaseSteps "build")) "proj_1" releaseRequest
      none = true := by decide +kernel
  have selected : selectedSteps (releaseCatalog (releaseSteps "build")) "proj_1" releaseRequest =
      .ok (releaseSteps "build") := by decide +kernel
  have sound := expandsSoundly_of_accepted {} accepted selected (by decide +kernel) acyclic
  have atomic := expandPipeline_atomic_iff (releaseCatalog (releaseSteps "build")) "proj_1"
    releaseRequest none (sampleIds "a") {} constrained unused
  rw [expandRelease]
  exact atomic.mpr sound

end EveHorizon.Pipelines
