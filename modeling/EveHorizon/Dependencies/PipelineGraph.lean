import EveHorizon.Dependencies.Growth
import EveHorizon.Pipelines.Atomicity

/-!
# The relations of a pipeline

An expansion relates the jobs of the steps as the steps declare, up to the first name that is
unknown or the step's own.
-/

namespace EveHorizon.Dependencies

open Batches (RowsKept)
open Interleaving List Call
open Jobs (JobId Job JobRelation JobsDb RelationType)
open Pipelines (Catalog ExpandPipelineRequest Expansion NewIds PipelineCall PipelineDb
  PipelineStatement PipelineStep Resolved jobNamed createdJobs stepName stepNames)
open Precedence (Acyclic)
open Workflows (WorkflowStatement)

def pipelineActs : PipelineStatement → WorkflowStatement
  | .jobs statement => .jobs statement
  | .insertJob job => .insertJob job
  | .insertRelation relation =>
    if relation.jobId = relation.relatedJobId then .jobs .select else .insertRelation relation
  | _ => .jobs .select

theorem pipelineActs_agrees (stmt : PipelineStatement) (db : PipelineDb) :
    (Statement.effect stmt db).jobs = (pipelineActs stmt).effect db.jobs := by
  change (PipelineStatement.effect stmt db).jobs = _
  cases stmt with
  | insertRun run =>
    rw [PipelineStatement.effect]
    split <;> rfl
  | insertJob job =>
    simp only [PipelineStatement.effect, pipelineActs, WorkflowStatement.effect]
    split <;> rfl
  | insertRelation relation =>
    simp only [PipelineStatement.effect, pipelineActs]
    by_cases itself : relation.jobId = relation.relatedJobId
    · rw [if_pos (Or.inl itself), if_pos itself]
      rfl
    · rw [if_neg itself, WorkflowStatement.effect]
      by_cases known : relation ∈ db.jobs.relations
      · rw [if_pos (Or.inr known), if_pos (contains_iff_mem.mpr known)]
      · rw [if_neg (not_or.mpr ⟨itself, known⟩), if_neg (by simpa using known)]
  | _ => rfl

variable (steps : List PipelineStep)

def declaredDependencies : List (String × String) :=
  steps.zipIdx.flatMap fun entry =>
    (entry.1.dependsOn.getD []).map fun depName => (stepName entry.2 entry.1, depName)

def wires (names : List String) (pair : String × String) : Bool := names.contains pair.2 && pair.2 != pair.1

/-- What is related before the first dependency that cannot be: an unknown step or the step
itself. -/
def wiredDependencies : List (String × String) :=
  (declaredDependencies steps).takeWhile (wires (stepNames steps))

def WiredTo (name depName : String) : Prop :=
  (name, depName) ∈ wiredDependencies steps

section

variable {catalog : Catalog} {resolved : Resolved} {request : ExpandPipelineRequest}
  {userId : Option String} {ids : NewIds} {steps : List PipelineStep} {before : JobsDb}

def CreatesJobs (catalog : Catalog) (resolved : Resolved) (request : ExpandPipelineRequest)
    (userId : Option String) (ids : NewIds) (steps : List PipelineStep) (db : PipelineDb) : Prop :=
  db.admitsRun (Pipelines.resolvedRun resolved request ids) = .ok () ∧
    ∃ expansion, Pipelines.startExpansion catalog resolved request userId = .ok expansion ∧
      ∀ entry ∈ steps.zipIdx, (Pipelines.planJob catalog expansion entry).isOk = true ∧
        db.jobs.findJob (ids.jobId entry.2) = none

/-- The expansion gets to its relations, and they run in a circle. -/
def ExpandsInCircle (catalog : Catalog) (projectId : String) (request : ExpandPipelineRequest)
    (userId : Option String) (ids : NewIds) (db : PipelineDb) : Prop :=
  ∃ resolved steps, Pipelines.resolvePipeline catalog projectId request = .ok resolved ∧
    Pipelines.planSteps resolved.pipeline request = .ok steps ∧
    CreatesJobs catalog resolved request userId ids steps (Pipelines.superseded request db) ∧ ¬ Acyclic (WiredTo steps)

variable {db : PipelineDb}

theorem insertJob_sown {new : List JobId} (sown : Sown before new db.jobs) (job : Job) :
    (Pipelines.insertJob job).Ends (fun result reached =>
      match result with
      | .ok created => created.id = job.id ∧ Sown before (new ++ [job.id]) reached.jobs
      | .error _ => Sown before new reached.jobs) db := by
  unfold Ends Pipelines.insertJob
  rw [alone_stmt]
  cases vacant : db.jobs.findJob job.id with
  | none =>
    refine ⟨rfl, ?_⟩
    change Sown before _ (Statement.effect (PipelineStatement.insertJob job) db).jobs
    rw [pipelineActs_agrees]
    exact sown.insertJob job vacant
  | some row =>
    change Sown before _ (Statement.effect (PipelineStatement.insertJob job) db).jobs
    have same : (pipelineActs (.insertJob job)).effect db.jobs = db.jobs := by
      change WorkflowStatement.effect (.insertJob job) db.jobs = db.jobs
      rw [WorkflowStatement.effect, vacant]
      rfl
    rw [pipelineActs_agrees, same]
    exact sown

variable {α β : Type}

theorem ends_planned {check : Except String α} {next : α → PipelineCall β} {post : Except String β → PipelineDb → Prop}
    (refused : ∀ error, post (.error error) db) (onward : ∀ value, check = .ok value → (next value).Ends post db) :
    (Call.ofExcept check >>= next).Ends post db := by
  cases planned : check with
  | error error => exact refused error
  | ok value => exact onward value planned

theorem ends_select {query : PipelineDb → α} {next : α → PipelineCall β} {post : Except String β → PipelineDb → Prop}
    (onward : (next (query db)).Ends post db) : (Pipelines.select query >>= next).Ends post db := by
  unfold Ends Pipelines.select
  rw [alone_perform_bind]
  exact onward

theorem createJobs_sown {expansion : Expansion} {entries : List (PipelineStep × Nat)}
    {created : List (String × JobId)} {db : PipelineDb}
    (sown : Sown before (created.map Prod.snd) db.jobs) :
    (Pipelines.createJobs catalog expansion ids entries created).Ends (fun result reached =>
      match result with
      | .ok final => Sown before (final.map Prod.snd) reached.jobs
      | .error _ => Sown before [] reached.jobs) db := by
  induction entries generalizing created db with
  | nil => exact sown
  | cons entry rest ih =>
    have kept : Sown before [] db.jobs := sown.fewer (nil_sublist _)
    rw [Pipelines.createJobs]
    apply ends_planned
    · exact fun error => kept
    intro execution _
    apply ends_select
    apply ends_planned
    · exact fun error => kept
    intro _ _
    apply ends_planned
    · exact fun error => kept
    intro review _
    apply (insertJob_sown sown _).bind
    · intro job reached isCreated
      apply ih
      rw [map_append, map_cons, isCreated.1]
      exact isCreated.2
    · intro error reached stays
      exact stays.fewer (nil_sublist _)

variable (created : List (String × JobId))

def wirePair (pair : String × String) : PipelineCall Unit :=
  match jobNamed created pair.1 with
  | none => .ret ()
  | some jobId => Pipelines.relateDependency created pair.1 jobId pair.2

theorem relateSteps_eq : Call.forEach steps.zipIdx (Pipelines.relateStep created) =
      Call.forEach (declaredDependencies steps) (wirePair created) := by
  unfold declaredDependencies
  rw [forEach_flatMap]
  congr 1
  funext entry
  rw [forEach_map]
  unfold Pipelines.relateStep wirePair
  cases named : jobNamed created (stepName entry.2 entry.1) with
  | some jobId => simp only [named]
  | none =>
    simp only [named]
    induction entry.1.dependsOn.getD [] with
    | nil => rfl
    | cons depName rest ih => exact ih

def PairEdge (pair : String × String) (relation : JobRelation) : Prop :=
  ∃ jobId depJobId, jobNamed created pair.1 = some jobId ∧ jobNamed created pair.2 = some depJobId ∧
    relation = ⟨jobId, depJobId, .blocks⟩

structure Related (created : List (String × JobId)) (pairs : List (String × String))
    (before after : JobsDb) : Prop where
  jobs : after.jobs = before.jobs
  relations : ∀ relation, relation ∈ after.relations ↔
    relation ∈ before.relations ∨ ∃ pair ∈ pairs, PairEdge created pair relation

theorem addDependency_reaches {fromId toId : JobId} (fromFound : (db.jobs.findJob fromId).isSome = true)
    (toFound : (db.jobs.findJob toId).isSome = true) :
    (Pipelines.addDependency fromId toId).alone db =
      (if fromId = toId then .error ("new row for relation \"job_relations\" violates check " ++
          "constraint \"no_self_reference\"") else .ok (),
        PipelineStatement.effect (.insertRelation ⟨fromId, toId, .blocks⟩) db) := by
  unfold Pipelines.addDependency Pipelines.select
  rw [alone_perform_bind]
  change Call.alone (Call.perform _ _ >>= _) db = _
  rw [alone_perform_bind, Option.isNone_eq_false_iff.mpr fromFound, Option.isNone_eq_false_iff.mpr toFound]
  simp only [Bool.false_eq_true, ↓reduceIte]
  rw [alone_stmt]
  split <;> rfl

variable {pair : String × String}

section

variable {created : List (String × JobId)} {db : PipelineDb}

theorem related_insertRelation {jobId depJobId : JobId} (isJob : jobNamed created pair.1 = some jobId)
    (isDep : jobNamed created pair.2 = some depJobId) (different : jobId ≠ depJobId) :
    Related created [pair] db.jobs (PipelineStatement.effect (.insertRelation ⟨jobId, depJobId, .blocks⟩) db).jobs := by
  have acts := pipelineActs_agrees (.insertRelation ⟨jobId, depJobId, .blocks⟩) db
  change (PipelineStatement.effect (.insertRelation ⟨jobId, depJobId, .blocks⟩) db).jobs = _ at acts
  rw [acts, pipelineActs, if_neg different]
  constructor
  · rw [Batches.insertRelation_rest]
  · intro relation
    rw [Batches.mem_insertRelation]
    simp [PairEdge, isJob, isDep]

theorem wirePair_reaches (distinct : (created.map Prod.snd).Nodup) (isStep : pair.1 ∈ created.map Prod.fst)
    (present : ∀ row ∈ created, (db.jobs.findJob row.2).isSome = true) :
    if wires (created.map Prod.fst) pair then ∃ after, (wirePair created pair).alone db = (.ok (), after) ∧
        Related created [pair] db.jobs after.jobs
    else ∃ error, (wirePair created pair).alone db = (.error error, db) := by
  obtain ⟨jobId, isJob⟩ := Pipelines.jobNamed_isSome isStep
  have found := present _ (Pipelines.mem_of_jobNamed isJob)
  unfold wirePair Pipelines.relateDependency
  rw [isJob]
  dsimp only
  cases isDep : jobNamed created pair.2 with
  | none =>
    have unknown : wires (created.map Prod.fst) pair = false := by
      rw [wires, Bool.and_eq_false_iff]
      refine Or.inl (Bool.eq_false_iff.mpr fun listed => ?_)
      obtain ⟨depJobId, named⟩ := Pipelines.jobNamed_isSome (contains_iff_mem.mp listed)
      rw [isDep] at named
      cases named
    rw [unknown]
    exact ⟨_, rfl⟩
  | some depJobId =>
    have depFound := present _ (Pipelines.mem_of_jobNamed isDep)
    have listed : pair.2 ∈ created.map Prod.fst := mem_map_of_mem (Pipelines.mem_of_jobNamed isDep)
    dsimp only
    rw [addDependency_reaches found depFound]
    by_cases itself : pair.2 = pair.1
    · have same : jobId = depJobId := by
        rw [itself, isJob] at isDep
        exact Option.some.inj isDep
      have refused : wires (created.map Prod.fst) pair = false := by simp [wires, itself]
      have kept : PipelineStatement.effect (.insertRelation ⟨jobId, depJobId, .blocks⟩) db = db := by
        rw [PipelineStatement.effect, if_pos (Or.inl same)]
      rw [refused, kept, if_pos same]
      exact ⟨_, rfl⟩
    · have different := Pipelines.jobNamed_ne distinct (Ne.symm itself) isJob isDep
      have allowed : wires (created.map Prod.fst) pair = true := by
        simp only [wires, contains_iff_mem.mpr listed, Bool.true_and, bne_iff_ne]
        exact itself
      rw [allowed, if_neg different]
      exact ⟨_, rfl, related_insertRelation isJob isDep different⟩

theorem wirePairs_reaches (distinct : (created.map Prod.snd).Nodup) {pairs : List (String × String)}
    (areSteps : ∀ pair ∈ pairs, pair.1 ∈ created.map Prod.fst)
    (present : ∀ row ∈ created, (db.jobs.findJob row.2).isSome = true) : (Call.forEach pairs (wirePair created)).Ends
      (fun _ reached => Related created (pairs.takeWhile (wires (created.map Prod.fst))) db.jobs reached.jobs) db := by
  induction pairs generalizing db with
  | nil =>
    refine ⟨rfl, fun relation => ?_⟩
    rw [alone_forEach_nil]
    simp
  | cons pair rest ih =>
    have first := wirePair_reaches distinct (areSteps pair mem_cons_self) present
    change (wirePair created pair >>= fun _ => Call.forEach rest (wirePair created)).Ends _ db
    rw [takeWhile_cons]
    split at first
    · next allowed =>
        obtain ⟨after, returned, related⟩ := first
        unfold Ends
        rw [alone_bind_ok returned, if_pos allowed]
        have stillPresent : ∀ row ∈ created, (after.jobs.findJob row.2).isSome = true := by
          intro row member
          have was := present row member
          rwa [JobsDb.findJob, ← related.jobs] at was
        have later := ih (fun other member => areSteps other (mem_cons_of_mem pair member))
          stillPresent
        refine ⟨later.jobs.trans related.jobs, fun relation => ?_⟩
        rw [later.relations, related.relations]
        simp only [mem_cons, not_mem_nil, or_false, exists_eq_or_imp, exists_eq_left, or_assoc]
    · next refused =>
        obtain ⟨error, raised⟩ := first
        unfold Ends
        rw [alone_bind, raised, if_neg refused]
        exact ⟨rfl, fun relation => by simp⟩

end

/-- What a call leaves that closes a cycle exactly in a certain case. -/
structure Spreads (counts : RelationType → Bool) (closes : Prop) (before after : JobsDb) : Prop where
  extension : Extends before after
  acyclic : Acyclic (Added counts before after) ↔ ¬ closes

variable {after : JobsDb}

theorem Grows.spreads {counts : RelationType → Bool} {closes : Prop} (grows : Grows counts before after)
    (harmless : ¬ closes) : Spreads counts closes before after :=
  ⟨grows.extension, iff_of_true grows.acyclic harmless⟩

theorem Related.spreads (counts : RelationType → Bool) {created : List (String × JobId)}
    {pairs : List (String × String)} {middle : JobsDb} (referenced : Referenced before)
    (sown : Sown before (created.map Prod.snd) middle) (kept : RowsKept middle after)
    (related : Related created pairs middle after)
    (named : ∀ pair ∈ pairs, pair.1 ∈ created.map Prod.fst ∧ pair.2 ∈ created.map Prod.fst) :
    Spreads counts (counts .blocks = true ∧ ¬ Acyclic fun name depName => (name, depName) ∈ pairs) before after := by
  have isNew : ∀ {pair : String × String} {relation : JobRelation}, PairEdge created pair relation →
      before.findJob relation.jobId = none ∧ (middle.findJob relation.jobId).isSome = true ∧
        (middle.findJob relation.relatedJobId).isSome = true := by
    intro pair relation edge
    obtain ⟨jobId, depJobId, isJob, isDep, rfl⟩ := edge
    have first := sown.fresh jobId (mem_map_of_mem (Pipelines.mem_of_jobNamed isJob))
    have second := sown.fresh depJobId (mem_map_of_mem (Pipelines.mem_of_jobNamed isDep))
    exact ⟨first.1, first.2, second.2⟩
  have same : ∀ id, after.findJob id = middle.findJob id := by
    intro id
    rw [JobsDb.findJob, related.jobs, JobsDb.findJob]
  have added : ∀ jobId relatedJobId, Added counts before after jobId relatedJobId ↔
      counts .blocks = true ∧ ∃ name depName, jobNamed created name = some jobId ∧
        jobNamed created depName = some relatedJobId ∧ (name, depName) ∈ pairs := by
    intro jobId relatedJobId
    constructor
    · rintro ⟨relation, member, new, source, target, kind⟩
      cases (related.relations relation).mp member with
      | inl old => exact absurd (sown.relations ▸ old) new
      | inr edge =>
        obtain ⟨pair, isPair, first, second, isJob, isDep, rfl⟩ := edge
        exact ⟨kind, pair.1, pair.2, source ▸ isJob, target ▸ isDep, isPair⟩
    · rintro ⟨kind, name, depName, isJob, isDep, isPair⟩
      have edge : PairEdge created (name, depName) ⟨jobId, relatedJobId, .blocks⟩ :=
        ⟨jobId, relatedJobId, isJob, isDep, rfl⟩
      refine ⟨_, (related.relations _).mpr (Or.inr ⟨_, isPair, edge⟩), fun old => ?_, rfl, rfl, kind⟩
      have found := (referenced _ old).1
      rw [(isNew edge).1] at found
      cases found
  constructor
  · constructor
    · exact sown.kept.trans kept
    · intro relation member
      cases (related.relations relation).mp member with
      | inl old => exact Or.inl (sown.relations ▸ old)
      | inr edge =>
        obtain ⟨pair, _, isEdge⟩ := edge
        have new := isNew isEdge
        rw [same, same]
        exact Or.inr new
  · by_cases kind : counts .blocks = true
    · have placed : Acyclic (Added counts before after) ↔ Acyclic fun name depName => (name, depName) ∈ pairs := by
        refine @Precedence.acyclic_placed_iff _ _ _ _
          (fun name jobId => jobNamed created name = some jobId) ?_ ?_ ?_ ?_
        · intro first second jobId isFirst isSecond
          by_contra different
          exact Pipelines.jobNamed_ne sown.distinct different isFirst isSecond rfl
        · intro name first second isFirst isSecond
          rw [isFirst] at isSecond
          exact Option.some.inj isSecond
        · intro jobId relatedJobId
          rw [added]
          exact and_iff_right kind
        · intro name depName isPair
          exact ⟨Pipelines.jobNamed_isSome (named _ isPair).1, Pipelines.jobNamed_isSome (named _ isPair).2⟩
      rw [placed, not_and, not_not]
      exact ⟨fun acyclic _ => acyclic, fun acyclic => acyclic kind⟩
    · refine iff_of_true (fun jobId cycle => ?_) fun both => kind both.1
      obtain ⟨_, first, _⟩ := Relation.TransGen.head'_iff.mp cycle
      exact kind ((added _ _).mp first).1

theorem stepNames_eq (ids : NewIds) (steps : List PipelineStep) :
    (createdJobs ids steps.zipIdx).map Prod.fst = stepNames steps := by
  rw [createdJobs, map_map]
  rfl

theorem wiredDependencies_named (isWired : pair ∈ wiredDependencies steps) :
    pair.1 ∈ stepNames steps ∧ pair.2 ∈ stepNames steps := by
  have wired := mem_takeWhile_imp isWired
  have declared := (List.takeWhile_prefix _).subset isWired
  obtain ⟨entry, listed, inPairs⟩ := mem_flatMap.mp declared
  obtain ⟨depName, _, rfl⟩ := mem_map.mp inPairs
  rw [wires, Bool.and_eq_true] at wired
  exact ⟨mem_map_of_mem listed, contains_iff_mem.mp wired.1⟩

theorem createJobs_spreads (counts : RelationType → Bool) {expansion : Expansion} {db : PipelineDb}
    (referenced : Referenced db.jobs) :
    (do
        let created ← Pipelines.createJobs catalog expansion ids steps.zipIdx []
        Call.forEach steps.zipIdx (Pipelines.relateStep created) : PipelineCall Unit).Ends
      (fun _ reached => Spreads counts
        ((∀ entry ∈ steps.zipIdx, (Pipelines.planJob catalog expansion entry).isOk = true ∧
            db.jobs.findJob (ids.jobId entry.2) = none) ∧
          counts .blocks = true ∧ ¬ Acyclic (WiredTo steps)) db.jobs reached.jobs) db := by
  have sown := @createJobs_sown catalog ids _ expansion steps.zipIdx [] db (.start db.jobs)
  rcases ended : (Pipelines.createJobs catalog expansion ids steps.zipIdx []).alone db with
    ⟨result, filed⟩
  unfold Ends at sown ⊢
  rw [ended] at sown
  cases result with
  | error error =>
    rw [alone_bind, ended]
    refine (Sown.grows sown).spreads fun both => ?_
    obtain ⟨jobs, _, returned⟩ := Pipelines.createJobs_alone (fun entry member =>
        (both.1 entry member).1) (by rw [zipIdx_map_snd]; exact nodup_range' 1) [] db
      fun entry member => (both.1 entry member).2
    rw [ended] at returned
    cases (Prod.mk.inj returned).1
  | ok created =>
    rw [alone_bind_ok ended]
    obtain ⟨isCreated, planned⟩ := Pipelines.createJobs_returned ended
    rw [nil_append] at isCreated
    subst isCreated
    have isSown : Sown db.jobs ((createdJobs ids steps.zipIdx).map Prod.snd) filed.jobs := sown
    have related := @wirePairs_reaches _ filed isSown.distinct
      (declaredDependencies steps) ?_ ?_
    · rw [← relateSteps_eq, stepNames_eq] at related
      have spreads := related.spreads counts referenced isSown (alone_rowsKept pipelineActs_agrees _ filed) ?_
      · refine ⟨spreads.extension, spreads.acyclic.trans (not_congr ?_)⟩
        refine (and_iff_right ?_).symm
        intro entry member
        refine ⟨planned entry member, (isSown.fresh _ ?_).1⟩
        exact mem_map_of_mem (mem_map_of_mem member)
      · intro pair isWired
        rw [stepNames_eq]
        exact wiredDependencies_named isWired
    · intro pair isDeclared
      obtain ⟨entry, listed, inPairs⟩ := mem_flatMap.mp isDeclared
      obtain ⟨depName, _, rfl⟩ := mem_map.mp inPairs
      rw [stepNames_eq]
      exact mem_map_of_mem listed
    · intro row member
      exact (isSown.fresh _ (mem_map_of_mem member)).2

theorem createRunWithJobs_spreads (counts : RelationType → Bool) {db : PipelineDb} (referenced : Referenced db.jobs) :
    (Pipelines.createRunWithJobs catalog resolved request userId ids steps).Ends
      (fun _ reached => Spreads counts (CreatesJobs catalog resolved request userId ids steps db ∧
        counts .blocks = true ∧ ¬ Acyclic (WiredTo steps)) db.jobs reached.jobs) db := by
  have unchanged : Grows counts db.jobs db.jobs := (Sown.start db.jobs).grows
  unfold Pipelines.createRunWithJobs CreatesJobs Ends
  dsimp only
  cases admitted : db.admitsRun (Pipelines.resolvedRun resolved request ids) with
  | error message =>
    rw [alone_bind, Pipelines.insertRun_alone_refused admitted]
    exact unchanged.spreads fun both => by cases both.1.1
  | ok _ =>
    rw [alone_bind_ok (Pipelines.insertRun_alone admitted)]
    cases started : Pipelines.startExpansion catalog resolved request userId with
    | error error =>
      refine unchanged.spreads fun both => ?_
      obtain ⟨_, _, isExpansion, _⟩ := both.1
      cases isExpansion
    | ok expansion =>
      have spreads := @createJobs_spreads catalog ids steps counts expansion
        { db with runs := db.runs ++ [db.stampedRun (Pipelines.resolvedRun resolved request ids)] } referenced
      refine ⟨spreads.extension, spreads.acyclic.trans (not_congr ?_)⟩
      refine and_congr_left fun _ => ?_
      simp only [true_and, Except.ok.injEq, exists_eq_left']

theorem expandPipeline_spreads (counts : RelationType → Bool) (projectId : String) {db : PipelineDb}
    (referenced : Referenced db.jobs) : (Pipelines.expandPipeline catalog projectId request userId ids).Ends
      (fun _ reached => Spreads counts (counts .blocks = true ∧
        ExpandsInCircle catalog projectId request userId ids db) db.jobs reached.jobs) db := by
  have sameJobs := Pipelines.superseded_jobs request db
  have unchanged : Grows counts db.jobs db.jobs := (Sown.start db.jobs).grows
  unfold Ends ExpandsInCircle
  rw [Pipelines.expandPipeline_alone]
  cases resolution : Pipelines.resolvePipeline catalog projectId request with
  | error error => exact unchanged.spreads (by simp)
  | ok resolved =>
    dsimp only
    cases planned : Pipelines.planSteps resolved.pipeline request with
    | error error =>
      dsimp only
      rw [sameJobs]
      exact unchanged.spreads (by simp [planned])
    | ok steps =>
      have spreads := @createRunWithJobs_spreads catalog resolved request userId ids steps counts
        _ (sameJobs.symm ▸ referenced)
      unfold Ends at spreads
      rw [sameJobs] at spreads
      refine ⟨spreads.extension, spreads.acyclic.trans (not_congr ?_)⟩
      simp [planned, and_left_comm]

end

end EveHorizon.Dependencies
