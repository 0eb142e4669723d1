import EveHorizon.Batches.Interruption

/-!
# Repeated batches

A batch that is submitted again under its key.
-/

namespace EveHorizon.Batches

open Interleaving List
open Jobs (JobId Job JobRelation JobsDb)
open Workflows (Project WorkflowStatement)

def BatchJobResult.blockers (job : BatchJobResult) : List String := job.blockedBy.getD []

structure SameJob (first again : BatchJobResult) : Prop where
  jobId : first.jobId = again.jobId
  phase : first.phase = again.phase
  blockedBy : ∀ key, key ∈ first.blockers ↔ key ∈ again.blockers

/-- The same jobs in the same phases, each with the same blockers. -/
structure SameResult (first again : CreateBatchResponse) : Prop where
  batchId : first.batchId = again.batchId
  idempotencyKey : first.idempotencyKey = again.idempotencyKey
  jobs : ∀ key, Option.Rel SameJob (first.jobs.lookup key) (again.jobs.lookup key)

/-- Every node of the request has a job, every dependency a relation. -/
structure Complete (request : CreateBatchRequest) (db : JobsDb) (response : CreateBatchResponse) : Prop where
  jobs : ∀ node ∈ request.nodes, ∃ row ∈ db.jobs, response.jobOf node.key = some row.id
  relations : ∀ pair ∈ dependencyPairs request.dependencies, ∃ relation ∈ db.relations,
    response.jobOf pair.1 = some relation.jobId ∧
      response.jobOf pair.2 = some relation.relatedJobId ∧ relation.relationType = .blocks

section

variable (projects : ProjectTable) (rootIds : TreeIds) (batchIds : BatchIds)
  (request : CreateBatchRequest) (projectId : String) (correlationId userId : Option String)
  (error : BatchFailure)

def resubmission (store : BatchDb) : Except BatchFailure CreateBatchResponse × BatchDb :=
  submission projects rootIds batchIds.draw request projectId correlationId userId error none store

def resubmitted (store : BatchDb) : BatchDb :=
  (resubmission projects rootIds batchIds request projectId correlationId userId error store).2

/-- After a success, every repetition returns the first response and changes nothing. After a
failure, no repetition reports a batch of which a part is missing. -/
structure Replays (recording : Recording) (first : Except BatchFailure CreateBatchResponse × BatchDb)
    (later : BatchDb) : Prop where
  repeated : ∀ response, first.1 = .ok response → ∀ times, ∃ again,
    resubmission projects rootIds batchIds request projectId correlationId userId error
        ((resubmitted projects rootIds batchIds request projectId correlationId userId error)^[times]
          later) = (.ok again, later) ∧
      SameResult response again
  parents : ∀ response, first.1 = .ok response → ∀ row ∈ first.2.jobs.jobs,
    ∃ other ∈ later.jobs.jobs, other.id = row.id ∧ other.parentId = row.parentId
  honest : ∀ failure, first.1 = .error failure → ∀ store, Meanwhile recording first.2 store →
    ∀ again reached, resubmission projects rootIds batchIds request projectId correlationId userId
      error store = (.ok again, reached) → Complete request reached.jobs again

structure Succeeds (failing : Option Nat) : Prop where
  levels : ThreeLevels request
  ended : ∀ number, failing = some number → creationStatements request ≤ number

def LastListsAll : Prop :=
  ∀ key ∈ request.keys, ∀ other ∈ blockedBy request key, other ∈ lastDependsOn request key

def Untouched (batchId : String) (later : BatchDb) : Prop :=
  ∀ tag ∈ later.tags, tag.batchId = batchId → ∀ row ∈ later.jobs.jobs, row.id = tag.jobId →
    row.phase = initialPhase request tag.batchKey

def Unrecorded (failing : Option Nat) : Prop :=
  ∃ number, failing = some number ∧ number ≤ submissionLookups request + 1

def RelatedBefore (failing : Option Nat) : Prop :=
  ThreeLevels request ∧ ∃ number, failing = some number ∧ submissionLookups request + nodeStatements request ≤ number ∧
      ∀ pair ∈ dependencyPairs request.dependencies, pair ∈ (dependencyPairs request.dependencies).take
          ((number - submissionLookups request - nodeStatements request) / 3)

structure ReplaysWhen (batchId : String) (failing : Option Nat) (later : BatchDb) : Prop where
  succeeded : Succeeds request failing →
    request.idempotencyKey ≠ some "" ∧ LastListsAll request ∧ Untouched request batchId later
  failed : ¬ Succeeds request failing →
    request.idempotencyKey = some "" ∨ Unrecorded request failing ∨ RelatedBefore request failing

end

section

variable {projects : ProjectTable} {rootIds : TreeIds} {batchIds : BatchIds}
  {request : CreateBatchRequest} {projectId : String} {correlationId userId : Option String}
  {error : BatchFailure} {before reached store : BatchDb} {project : Project}

def replayResponse (request : CreateBatchRequest) (record : BatchRecord) (store : BatchDb) : CreateBatchResponse where
  batchId := record.id
  idempotencyKey := record.idempotencyKey
  jobs := reconstructedJobs request (store.batchJobs record.id)

variable {key : String} {record : BatchRecord}

theorem resubmission_recorded (valid : (validateBatch request).valid = true)
    (resolved : resolveProject projects.rows projectId = .ok project)
    (given : request.idempotencyKey = some key) (named : key.isEmpty = false)
    (submitted : store.submitted project.id request.idempotencyKey = some record)
    (found : store.batches.find? (·.id == record.id) = some record) :
    resubmission projects rootIds batchIds request projectId correlationId userId error store =
      (.ok (replayResponse request record store), store) := by
  unfold resubmission
  rw [submission_replayed error none valid resolved given named submitted, if_neg (by simp)]
  have asked : (select fun db : BatchDb => db.batches.find? (·.id == record.id)).alone store =
      (.ok (some record), store) := by
    rw [← found]
    rfl
  change (reconstructBatchResult request record.id).alone store = _
  unfold reconstructBatchResult
  rw [Call.alone_bind]
  change ((select fun db : BatchDb => db.batches.find? (·.id == record.id)) >>= _).alone store = _
  rw [Call.alone_bind, asked]
  rfl

theorem record_found (batchIds : BatchIds) {correlationId : Option String}
    (submits : Submits projects.rows request projectId before project)
    (given : request.idempotencyKey = some key) (batches : reached.batches =
      before.batches ++ [batchRecord batchIds.draw request project correlationId before])
    (kept : Kept ⟨project.id, request.idempotencyKey, batchIds.draw before⟩ reached store) :
    store.submitted project.id request.idempotencyKey =
        some (batchRecord batchIds.draw request project correlationId before) ∧
      store.batches.find? (·.id == batchIds.draw before) =
        some (batchRecord batchIds.draw request project correlationId before) := by
  constructor
  · have unsubmitted := submits.unsubmitted
    rw [kept.submitted, BatchDb.submitted, batches, find?_append]
    rw [BatchDb.submitted] at unsubmitted
    rw [unsubmitted]
    simp [sameSubmission, batchRecord, given]
  · apply kept.found
    have fresh : before.batches.find? (·.id == batchIds.draw before) = none := by
      rw [find?_eq_none]
      intro batch member
      simpa using batchIds.unrecorded before batch member
    rw [batches, find?_append, fresh]
    simp [batchRecord]

theorem mem_blockers (blockers : List String) (key : String) :
    key ∈ (blockedByEntry blockers).getD [] ↔ key ∈ blockers := by
  unfold blockedByEntry
  split
  · next empty => simp [isEmpty_iff.mp empty]
  · rfl

theorem lastDependsOn_subset (key : String) {other : String}
    (listed : other ∈ lastDependsOn request key) : other ∈ blockedBy request key := by
  unfold lastDependsOn at listed
  cases last : (dependenciesOf request key).getLast? with
  | none => simp [last] at listed
  | some dependency =>
    rw [last] at listed
    exact mem_flatMap.mpr ⟨dependency, mem_of_getLast? last, listed⟩

variable {rows : List Job}

theorem filter_of_distinct (distinct : (rows.map (·.id)).Nodup) {row : Job} (member : row ∈ rows) :
    rows.filter (·.id == row.id) = [row] := by
  induction rows with
  | nil => cases member
  | cons first rows ih =>
    rw [map_cons, nodup_cons] at distinct
    rcases mem_cons.mp member with rfl | later
    · have others : rows.filter (·.id == row.id) = [] := by
        rw [filter_eq_nil_iff]
        intro other listed
        rw [beq_iff_eq]
        intro same
        exact distinct.1 (same ▸ mem_map_of_mem (f := (·.id)) listed)
      rw [filter_cons, beq_self_eq_true, others]
      rfl
    · have other : first.id ≠ row.id := by
        intro same
        exact distinct.1 (same ▸ mem_map_of_mem (f := (·.id)) later)
      rw [filter_cons, beq_eq_false_iff_ne.mpr other]
      exact ih distinct.2 later

variable {batchId : String} {ids : KeyToJobId}

theorem Planted.stored (planted : Planted request projectId batchId userId before ids rows reached)
    (distinct : (ids.map Prod.fst).Nodup) (fresh : ∀ tag ∈ before.tags, tag.batchId ≠ batchId) :
    Stored batchId ids reached := by
  constructor
  · exact distinct
  · exact planted.rowIds ▸ planted.grove.distinct
  · exact fun tag isOwn => planted.tagged fresh isOwn
  · intro entry member
    have listed : entry.2 ∈ rows.map (·.id) := by
      rw [planted.rowIds]
      exact mem_map_of_mem member
    obtain ⟨row, isRow, same⟩ := mem_map.mp listed
    have older : before.jobs.jobs.filter (·.id == entry.2) = [] := by
      rw [filter_eq_nil_iff]
      intro old isOld
      rw [beq_iff_eq]
      intro equal
      exact (planted.grove.apart row isRow old isOld).1 (congrArg rootPart (equal.trans same.symm))
    refine ⟨row, ?_⟩
    rw [rowsOf, planted.jobs, filter_append, older, nil_append, ← same]
    exact filter_of_distinct planted.grove.distinct isRow

theorem Stored.wired {planted : BatchDb} {pairs : List (String × String)}
    (stored : Stored batchId ids planted) (wired : Wired ids planted pairs reached) : Stored batchId ids reached := by
  rw [wired.rest]
  exact ⟨stored.keys, stored.jobIds, stored.tags, stored.rows⟩

structure KeyStored (request : CreateBatchRequest) (batchId : String) (ids : KeyToJobId)
    (store : BatchDb) (key : String) (id : JobId) (row : Job) : Prop where
  known : KeyToJobId.get ids key = some id
  rows : rowsOf store.jobs id = [row]
  named : row.id = id
  tagged : ⟨id, batchId, key⟩ ∈ store.tags
  reported : (reconstructedJobs request (store.batchJobs batchId)).lookup key = some (reportOf request key row)

variable {sorted : List String}

theorem key_stored (conforming : request.Conforming) (order : CreationOrder request sorted)
    (keys : ids.map Prod.fst = sorted) (stored : Stored batchId ids store) (member : key ∈ request.keys) :
    ∃ id row, KeyStored request batchId ids store key id row := by
  have listed : key ∈ ids.map Prod.fst := by
    rw [keys]
    exact (order.same key).mpr member
  obtain ⟨id, found⟩ := Option.isSome_iff_exists.mp (get_isSome.mpr listed)
  obtain ⟨row, rows⟩ := stored.rows _ (get_mem found)
  obtain ⟨-, named⟩ := mem_filter.mp (rows ▸ mem_singleton_self row)
  obtain ⟨node, isNode, same⟩ := mem_map.mp member
  have nonempty : key ≠ "" := same ▸ conforming.keys node isNode
  refine ⟨id, row, found, rows, beq_iff_eq.mp named, ?_, stored.lookup nonempty found rows⟩
  exact (stored.tags _ rfl).mpr ⟨(key, id), get_mem found, rfl⟩

theorem lookup_response (closed : Closed request) (member : key ∈ request.keys) :
    (batchResponse request batchId ids).jobs.lookup key =
      some { jobId := (KeyToJobId.get ids key).getD ""
             phase := initialPhase request key
             blockedBy := blockedByEntry (blockedBy request key) } := by
  obtain ⟨node, isNode, rfl⟩ := mem_map.mp member
  rw [batchResponse, lookup_nodes, closed.find isNode]
  rfl

theorem same_result_iff {batchId : String} {ids : KeyToJobId} (record : BatchRecord) (conforming : request.Conforming)
    (closed : Closed request) (order : CreationOrder request sorted) (keys : ids.map Prod.fst = sorted)
    (stored : Stored batchId ids store) (sameId : record.id = batchId)
    (sameKey : record.idempotencyKey = request.idempotencyKey) :
    SameResult (batchResponse request batchId ids) (replayResponse request record store) ↔
      LastListsAll request ∧ Untouched request batchId store := by
  have known := fun key (member : key ∈ request.keys) =>
    key_stored conforming order keys stored member
  subst sameId
  constructor
  · intro same
    have jobs : ∀ key ∈ request.keys, ∀ id row, KeyStored request record.id ids store key id row →
        SameJob { jobId := (KeyToJobId.get ids key).getD ""
                  phase := initialPhase request key
                  blockedBy := blockedByEntry (blockedBy request key) } (reportOf request key row) := by
      intro key member id row isStored
      have rel := same.jobs key
      rw [lookup_response closed member, replayResponse, isStored.reported] at rel
      cases rel with
      | some job => exact job
    constructor
    · intro key member other blocks
      obtain ⟨id, row, isStored⟩ := known key member
      have sets := (jobs key member id row isStored).blockedBy other
      exact (mem_blockers _ _).mp (sets.mp ((mem_blockers _ _).mpr blocks))
    · intro tag tagged isOwn row isRow named
      obtain ⟨entry, isEntry, rfl⟩ := (stored.tags tag isOwn).mp tagged
      have member : entry.1 ∈ request.keys := by
        rw [← order.same, ← keys]
        exact mem_map_of_mem isEntry
      obtain ⟨id, other, isStored⟩ := known entry.1 member
      have equal := inj_on_of_nodup_map stored.keys isEntry (get_mem isStored.known) rfl
      have own : row ∈ rowsOf store.jobs id := mem_filter.mpr ⟨isRow, by rw [named, equal, beq_self_eq_true]⟩
      rw [isStored.rows, mem_singleton] at own
      rw [own]
      exact (jobs entry.1 member id other isStored).phase.symm
  · rintro ⟨lists, untouched⟩
    refine ⟨rfl, sameKey.symm, ?_⟩
    intro key
    by_cases member : key ∈ request.keys
    · obtain ⟨id, row, isStored⟩ := known key member
      obtain ⟨isRow, -⟩ := mem_filter.mp (isStored.rows ▸ mem_singleton_self row)
      rw [lookup_response closed member, replayResponse, isStored.reported]
      apply Option.Rel.some
      constructor
      · rw [isStored.known]
        exact isStored.named.symm
      · exact (untouched _ isStored.tagged rfl row isRow isStored.named).symm
      · intro other
        refine (mem_blockers _ _).trans (Iff.trans ?_ (mem_blockers _ _).symm)
        exact ⟨lists key member other, lastDependsOn_subset key⟩
    · have unlisted : request.nodes.find? (·.key == key) = none := by
        rw [find?_eq_none]
        intro node isNode
        rw [beq_iff_eq]
        rintro rfl
        exact member (mem_map_of_mem isNode)
      have untagged : ∀ tag ∈ store.tags, tag.batchId = record.id → tag.batchKey ≠ key := by
        intro tag tagged isOwn isKey
        obtain ⟨entry, isEntry, rfl⟩ := (stored.tags tag isOwn).mp tagged
        apply member
        rw [← order.same, ← keys, ← isKey]
        exact mem_map_of_mem isEntry
      rw [batchResponse, lookup_nodes, unlisted, replayResponse, lookup_untagged untagged]
      exact .none

def Referenced (db : JobsDb) : Prop := ∀ relation ∈ db.relations, (db.findJob relation.jobId).isSome

theorem Created.complete {start after : JobsDb} {response : CreateBatchResponse}
    (closed : Closed request) (created : Created request start after response) : Complete request after response := by
  have jobOf : ∀ key ∈ request.keys, ∃ row ∈ after.jobs, response.jobOf key = some row.id := by
    intro key member
    obtain ⟨node, isNode, rfl⟩ := mem_map.mp member
    obtain ⟨row, isRow, named, -⟩ := created.parents node isNode
    exact ⟨row, isRow, named⟩
  constructor
  · intro node isNode
    exact jobOf node.key (mem_map_of_mem isNode)
  · intro pair member
    obtain ⟨isJob, isKey⟩ := closed.pairs pair member
    obtain ⟨dependency, isDependency, inPairs⟩ := mem_flatMap.mp member
    obtain ⟨key, depends, rfl⟩ := mem_map.mp inPairs
    obtain ⟨fromRow, -, fromJob⟩ := jobOf _ isJob
    obtain ⟨toRow, -, toJob⟩ := jobOf _ isKey
    refine ⟨⟨fromRow.id, toRow.id, .blocks⟩, ?_, fromJob, toJob, rfl⟩
    exact (created.relations _).mpr (.inr ⟨dependency, isDependency, key, depends, fromJob, toJob, rfl⟩)

theorem honest_unrecorded (submits : Submits projects.rows request projectId before project)
    (kept : Kept ⟨project.id, request.idempotencyKey, batchIds.draw before⟩ before store) {again : CreateBatchResponse}
    (ended : resubmission projects rootIds batchIds request projectId correlationId userId error store =
      (.ok again, reached)) : Complete request reached.jobs again := by
  have closed := (validateBatch_valid submits.valid).1
  have later : Submits projects.rows request projectId store project :=
    ⟨submits.valid, submits.resolved, kept.submitted.trans submits.unsubmitted⟩
  rw [resubmission, submission_new error none later] at ended
  by_cases levels : ThreeLevels request
  · obtain ⟨ids, after, runs, filled⟩ := createJobs_runs later levels
    cases runs.ended.symm.trans ended
    exact (filled.created closed).complete closed
  · have thrown := createJobs_deep rootIds batchIds.draw correlationId userId later levels
    cases thrown.symm.trans (congrArg Prod.fst ended)

theorem not_complete_missing (member : key ∈ request.keys)
    (untagged : ∀ tag ∈ store.tags, tag.batchId = record.id → tag.batchKey ≠ key) :
    ¬ Complete request reached.jobs (replayResponse request record store) := by
  intro complete
  obtain ⟨node, isNode, rfl⟩ := mem_map.mp member
  obtain ⟨row, -, named⟩ := complete.jobs node isNode
  rw [CreateBatchResponse.jobOf, replayResponse, lookup_untagged untagged] at named
  cases named

theorem jobOf_replay (sameId : record.id = batchId) {id : JobId} {row : Job}
    (isStored : KeyStored request batchId ids store key id row) :
    (replayResponse request record store).jobOf key = some id := by
  subst sameId
  rw [CreateBatchResponse.jobOf, replayResponse, isStored.reported, ← isStored.named]
  rfl

section

variable {batchId : String} {ids : KeyToJobId} {sorted : List String} {planted : BatchDb}
  {pairs : List (String × String)} {record : BatchRecord}

theorem complete_wired (conforming : request.Conforming) (closed : Closed request)
    (order : CreationOrder request sorted) (keys : ids.map Prod.fst = sorted)
    (sameId : record.id = batchId) (stored : Stored batchId ids store) (wired : Wired ids planted pairs reached)
    (all : ∀ pair ∈ dependencyPairs request.dependencies, pair ∈ pairs) (kept : RowsKept reached.jobs store.jobs) :
    Complete request store.jobs (replayResponse request record store) := by
  have known := fun key (member : key ∈ request.keys) =>
    key_stored conforming order keys stored member
  constructor
  · intro node isNode
    obtain ⟨id, row, isStored⟩ := known node.key (mem_map_of_mem isNode)
    obtain ⟨isRow, -⟩ := mem_filter.mp (isStored.rows ▸ mem_singleton_self row)
    exact ⟨row, isRow, isStored.named ▸ jobOf_replay sameId isStored⟩
  · intro pair member
    obtain ⟨isJob, isKey⟩ := closed.pairs pair member
    obtain ⟨fromId, fromRow, fromStored⟩ := known pair.1 isJob
    obtain ⟨toId, toRow, toStored⟩ := known pair.2 isKey
    have added := (wired.relations (pairRelation ids pair)).mpr (.inr ⟨pair, all pair member, rfl⟩)
    refine ⟨pairRelation ids pair, kept.relations _ added, ?_, ?_, rfl⟩
    · rw [jobOf_replay sameId fromStored, pairRelation, fromStored.known]
      rfl
    · rw [jobOf_replay sameId toStored, pairRelation, toStored.known]
      rfl

theorem wired_of_complete (conforming : request.Conforming) (closed : Closed request)
    (order : CreationOrder request sorted) (keys : ids.map Prod.fst = sorted)
    (sameId : record.id = batchId) (stored : Stored batchId ids reached)
    (wired : Wired ids planted pairs reached) (within : pairs ⊆ dependencyPairs request.dependencies)
    (apart : ∀ relation ∈ planted.jobs.relations, relation.jobId ∉ ids.map Prod.snd)
    (complete : Complete request reached.jobs (replayResponse request record reached)) :
    ∀ pair ∈ dependencyPairs request.dependencies, pair ∈ pairs := by
  have known := fun key (member : key ∈ request.keys) =>
    key_stored conforming order keys stored member
  intro pair member
  obtain ⟨isJob, isKey⟩ := closed.pairs pair member
  obtain ⟨fromId, fromRow, fromStored⟩ := known pair.1 isJob
  obtain ⟨toId, toRow, toStored⟩ := known pair.2 isKey
  obtain ⟨relation, listed, fromJob, toJob, -⟩ := complete.relations pair member
  rw [jobOf_replay sameId fromStored, Option.some.injEq] at fromJob
  rw [jobOf_replay sameId toStored, Option.some.injEq] at toJob
  rcases (wired.relations relation).mp listed with old | ⟨other, isOther, rfl⟩
  · have own : fromId ∈ ids.map Prod.snd := mem_map_of_mem (f := Prod.snd) (get_mem fromStored.known)
    exact absurd (fromJob ▸ own) (apart relation old)
  · obtain ⟨isOtherJob, isOtherKey⟩ := closed.pairs other (within isOther)
    obtain ⟨otherFrom, otherFromRow, otherFromStored⟩ := known other.1 isOtherJob
    obtain ⟨otherTo, otherToRow, otherToStored⟩ := known other.2 isOtherKey
    rw [pairRelation, otherFromStored.known] at fromJob
    rw [pairRelation, otherToStored.known] at toJob
    have firsts := inj_on_of_nodup_map stored.jobIds (get_mem fromStored.known) (get_mem otherFromStored.known) fromJob
    have seconds := inj_on_of_nodup_map stored.jobIds (get_mem toStored.known) (get_mem otherToStored.known) toJob
    have same : pair = other := Prod.ext (Prod.mk.inj firsts).1 (Prod.mk.inj seconds).1
    exact same ▸ isOther

end

theorem submission_ends (submits : Submits projects.rows request projectId before project) (failing : Option Nat) :
    (∃ number, failing = some number ∧ number < submissionLookups request ∧
      submission projects rootIds batchIds.draw request projectId correlationId userId error failing
        before = (.error error, before)) ∨ ((∀ number, failing = some number → submissionLookups request ≤ number) ∧
      CreationEnd batchIds.draw request project correlationId userId before error
        (failing.map (· - submissionLookups request))
        (submission projects rootIds batchIds.draw request projectId correlationId userId error failing before)) := by
  rw [submission_new error failing submits]
  have fresh := batchIds.untagged before
  cases failing with
  | none => exact .inr ⟨nofun, createJobs_ends submits fresh none⟩
  | some number =>
    by_cases short : number < submissionLookups request
    · exact .inl ⟨number, rfl, short, if_pos short⟩
    · right
      constructor
      · rintro other same
        cases same
        exact Nat.not_lt.mp short
      · dsimp only
        rw [if_neg short]
        exact createJobs_ends submits fresh (some _)

section

variable {later : BatchDb} {failing : Option Nat} {key : String}

theorem refused_forever (submits : Submits projects.rows request projectId before project)
    (given : request.idempotencyKey = some "") (batches : reached.batches =
      before.batches ++ [batchRecord batchIds.draw request project correlationId before])
    (kept : Kept ⟨project.id, request.idempotencyKey, batchIds.draw before⟩ reached store) :
    ∃ failure, resubmission projects rootIds batchIds request projectId correlationId userId error store =
      (.error failure, store) := by
  obtain ⟨submitted, -⟩ := record_found batchIds submits given batches kept
  exact submission_refused error none submits.valid submits.resolved given rfl (by rw [submitted]; rfl)

variable (rootIds userId error) in
theorem answered_from_rows (submits : Submits projects.rows request projectId before project)
    (given : request.idempotencyKey = some key) (named : key ≠ "") (batches : reached.batches =
      before.batches ++ [batchRecord batchIds.draw request project correlationId before])
    (kept : Kept ⟨project.id, request.idempotencyKey, batchIds.draw before⟩ reached store) :
    resubmission projects rootIds batchIds request projectId correlationId userId error store =
      (.ok (replayResponse request (batchRecord batchIds.draw request project correlationId before) store), store) := by
  obtain ⟨submitted, found⟩ := record_found batchIds submits given batches kept
  have nonempty : key.isEmpty = false := by simpa using named
  exact resubmission_recorded submits.valid submits.resolved given nonempty submitted found

section

variable (submits : Submits projects.rows request projectId before project)
include submits

theorem replays_unrecorded (unrecorded : Unrecorded request failing) :
    Replays projects rootIds batchIds request projectId correlationId userId error
        ⟨project.id, request.idempotencyKey, batchIds.draw before⟩ (.error error, before) later ↔
      ReplaysWhen request (batchIds.draw before) failing later := by
  constructor
  · intro _
    constructor
    · intro succeeds
      obtain ⟨number, rfl, early⟩ := unrecorded
      have ended := succeeds.ended number rfl
      unfold creationStatements at ended
      omega
    · intro _
      exact .inr (.inl unrecorded)
  · intro _
    constructor
    · intro response impossible
      cases impossible
    · intro response impossible
      cases impossible
    · intro failure _ store meanwhile again reached ended
      exact honest_unrecorded submits meanwhile.kept ended

variable {failure : BatchFailure}

section

variable (given : request.idempotencyKey = some key) (recorded : ¬ Unrecorded request failing)
    (short : ¬ Succeeds request failing)
include given recorded short

/-- A failed creation that left its record: an empty key has every repetition refused, any
other has it answered from the rows. -/
theorem replays_recorded
    (batches : reached.batches = before.batches ++ [batchRecord batchIds.draw request project correlationId before])
    (related : Complete request reached.jobs
        (replayResponse request (batchRecord batchIds.draw request project correlationId before) reached) →
      RelatedBefore request failing)
    (complete : RelatedBefore request failing →
      ∀ store, Kept ⟨project.id, request.idempotencyKey, batchIds.draw before⟩ reached store →
        Complete request store.jobs
        (replayResponse request (batchRecord batchIds.draw request project correlationId before) store)) :
    Replays projects rootIds batchIds request projectId correlationId userId error
        ⟨project.id, request.idempotencyKey, batchIds.draw before⟩ (.error failure, reached) later ↔
      ReplaysWhen request (batchIds.draw before) failing later := by
  constructor
  · intro replays
    refine ⟨fun succeeds => absurd succeeds short, fun _ => ?_⟩
    by_cases empty : key = ""
    · exact .inl (empty ▸ given)
    · have ended := answered_from_rows rootIds userId error submits given empty batches Meanwhile.now.kept
      exact .inr (.inr (related (replays.honest failure rfl reached .now _ _ ended)))
  · intro replaysWhen
    constructor
    · intro response impossible
      cases impossible
    · intro response impossible
      cases impossible
    · intro _ _ store meanwhile again final ended
      by_cases empty : key = ""
      · obtain ⟨refusal, refused⟩ := refused_forever submits (empty ▸ given) batches meanwhile.kept
        cases refused.symm.trans ended
      · have answered := answered_from_rows rootIds userId error submits given empty batches meanwhile.kept
        cases answered.symm.trans ended
        rcases replaysWhen.failed short with isEmpty | early | relatedBefore
        · rw [given, Option.some.injEq] at isEmpty
          exact absurd isEmpty empty
        · exact absurd early recorded
        · exact complete relatedBefore store meanwhile.kept

theorem replays_missing (unrelated : ¬ RelatedBefore request failing)
    (batches : reached.batches = before.batches ++ [batchRecord batchIds.draw request project correlationId before])
    {absent : String} (member : absent ∈ request.keys)
    (untagged : ∀ tag ∈ reached.tags, tag.batchId = batchIds.draw before → tag.batchKey ≠ absent) :
    Replays projects rootIds batchIds request projectId correlationId userId error
        ⟨project.id, request.idempotencyKey, batchIds.draw before⟩ (.error failure, reached) later ↔
      ReplaysWhen request (batchIds.draw before) failing later := by
  apply replays_recorded submits given recorded short batches
  · intro complete
    exact absurd complete (not_complete_missing member untagged)
  · intro related
    exact absurd related unrelated

structure Related (batchIds : BatchIds) (request : CreateBatchRequest) (project : Project)
    (correlationId userId : Option String) (before : BatchDb) (pairs : List (String × String))
    (ids : KeyToJobId) (reached : BatchDb) : Prop where
  planted : ∃ sorted planted, CreationOrder request sorted ∧
    PlantedKeys request project.id (batchIds.draw before) userId
      (opened before (batchRecord batchIds.draw request project correlationId before)) sorted ids planted ∧
    Wired ids planted pairs reached

variable {pairs : List (String × String)} {ids : KeyToJobId}

omit submits given recorded short in
theorem Related.batches (related : Related batchIds request project correlationId userId before pairs ids reached) :
    reached.batches = before.batches ++ [batchRecord batchIds.draw request project correlationId before] := by
  obtain ⟨sorted, planted, -, ⟨-, rows, filled⟩, wired⟩ := related.planted
  rw [wired.rest]
  exact filled.batches

omit submits given recorded short in
theorem Related.stored (related : Related batchIds request project correlationId userId before pairs ids reached) :
    ∃ sorted, CreationOrder request sorted ∧ ids.map Prod.fst = sorted ∧ Stored (batchIds.draw before) ids reached := by
  obtain ⟨sorted, planted, order, ⟨keys, rows, filled⟩, wired⟩ := related.planted
  have stored := filled.stored (keys ▸ order.distinct) (batchIds.untagged before)
  exact ⟨sorted, order, keys, stored.wired wired⟩

theorem replays_unrelated (conforming : request.Conforming) (referenced : Referenced before.jobs)
    (before_iff : RelatedBefore request failing ↔ ∀ pair ∈ dependencyPairs request.dependencies, pair ∈ pairs)
    (within : pairs ⊆ dependencyPairs request.dependencies)
    (related : Related batchIds request project correlationId userId before pairs ids reached) :
    Replays projects rootIds batchIds request projectId correlationId userId error
        ⟨project.id, request.idempotencyKey, batchIds.draw before⟩ (.error failure, reached) later ↔
      ReplaysWhen request (batchIds.draw before) failing later := by
  have closed := (validateBatch_valid submits.valid).1
  obtain ⟨sorted, order, keys, stored⟩ := related.stored
  apply replays_recorded submits given recorded short related.batches
  · intro complete
    obtain ⟨sorted, planted, order, ⟨keys, rows, filled⟩, wired⟩ := related.planted
    have apart : ∀ relation ∈ planted.jobs.relations, relation.jobId ∉ ids.map Prod.snd := by
      intro relation old own
      rw [filled.jobs] at old
      obtain ⟨row, found⟩ := Option.isSome_iff_exists.mp (referenced relation old)
      rw [JobsDb.findJob] at found
      rw [← filled.rowIds] at own
      obtain ⟨newRow, isNew, same⟩ := mem_map.mp own
      have named := find?_some found
      rw [beq_iff_eq] at named
      exact (filled.grove.apart newRow isNew row (mem_of_find?_eq_some found)).1
        (congrArg rootPart (named.trans same.symm))
    exact before_iff.mpr (wired_of_complete conforming closed order keys rfl stored wired within apart complete)
  · intro relatedBefore store kept
    obtain ⟨_, planted, _, _, wired⟩ := related.planted
    exact complete_wired conforming closed order keys rfl (stored.later kept) wired
      (before_iff.mp relatedBefore) kept.jobs

end

theorem replays_filled (conforming : request.Conforming) (given : request.idempotencyKey = some key)
    (succeeds : Succeeds request failing)
    (related : Related batchIds request project correlationId userId before pairs ids reached)
    (meanwhile : Meanwhile ⟨project.id, request.idempotencyKey, batchIds.draw before⟩ reached later) :
    Replays projects rootIds batchIds request projectId correlationId userId error
        ⟨project.id, request.idempotencyKey, batchIds.draw before⟩
        (.ok (batchResponse request (batchIds.draw before) ids), reached) later ↔
      ReplaysWhen request (batchIds.draw before) failing later := by
  have closed := (validateBatch_valid submits.valid).1
  have batches := related.batches
  obtain ⟨sorted, order, keys, stored⟩ := related.stored
  have same := same_result_iff (batchRecord batchIds.draw request project correlationId before) conforming closed order
    keys (stored.later meanwhile.kept) rfl rfl
  constructor
  · intro replays
    refine ⟨fun _ => ?_, fun fails => absurd succeeds fails⟩
    obtain ⟨again, ended, equal⟩ := replays.repeated _ rfl 0
    change resubmission projects rootIds batchIds request projectId correlationId userId error later = _ at ended
    by_cases empty : key = ""
    · obtain ⟨refusal, refused⟩ := refused_forever submits (empty ▸ given) batches meanwhile.kept
      cases refused.symm.trans ended
    · have answered := answered_from_rows rootIds userId error submits given empty batches meanwhile.kept
      cases answered.symm.trans ended
      refine ⟨?_, same.mp equal⟩
      rw [given]
      simpa using empty
  · intro replaysWhen
    obtain ⟨named, unchanged⟩ := replaysWhen.succeeded succeeds
    have nonempty : key ≠ "" := by
      rintro rfl
      exact named given
    have answered := answered_from_rows rootIds userId error submits given nonempty batches meanwhile.kept
    constructor
    · intro response isResponse times
      cases isResponse
      have fixed : resubmitted projects rootIds batchIds request projectId correlationId userId error
          later = later := congrArg Prod.snd answered
      rw [Function.iterate_fixed fixed]
      exact ⟨_, answered, same.mpr unchanged⟩
    · intro response _ row member
      have some : rowsOf reached.jobs row.id ≠ [] := ne_nil_of_mem (mem_filter.mpr ⟨member, beq_self_eq_true row.id⟩)
      obtain ⟨change, keeps, rows⟩ := meanwhile.kept.jobs.rows row.id some
      have changed : change row ∈ rowsOf later.jobs row.id := by
        rw [rows]
        exact mem_map_of_mem (mem_filter.mpr ⟨member, beq_self_eq_true row.id⟩)
      exact ⟨change row, mem_of_mem_filter changed, keeps row⟩
    · intro failure impossible
      cases impossible

end

end

end

/-- A batch is replayed as promised exactly under `ReplaysWhen`. -/
theorem batch_replay_iff (projects : ProjectTable) (rootIds : TreeIds) (batchIds : BatchIds)
    (request : BatchRequest) (projectId : String) (correlationId userId : Option String)
    (error : BatchFailure) (failing : Option Nat) (before later : BatchDb) {project : Project}
    {key : String} (keyed : request.val.idempotencyKey = some key)
    (submits : Submits projects.rows request.val projectId before project) (referenced : Referenced before.jobs)
    (meanwhile : Meanwhile ⟨project.id, request.val.idempotencyKey, batchIds.draw before⟩
      (submission projects rootIds batchIds.draw request.val projectId correlationId userId error failing
        before).2 later) : Replays projects rootIds batchIds request.val projectId correlationId userId error
        ⟨project.id, request.val.idempotencyKey, batchIds.draw before⟩
        (submission projects rootIds batchIds.draw request.val projectId correlationId userId error
          failing before) later ↔ ReplaysWhen request.val (batchIds.draw before) failing later := by
  obtain ⟨request, conforming⟩ := request
  simp only at keyed submits meanwhile ⊢
  rcases submission_ends submits failing with ⟨number, rfl, short, ended⟩ | ⟨past, ends⟩
  · rw [ended]
    exact replays_unrecorded submits ⟨number, rfl, by omega⟩
  · have source : ∀ number, failing.map (· - submissionLookups request) = some number →
        ∃ original, failing = some original ∧ submissionLookups request ≤ original ∧
          number = original - submissionLookups request := by
      intro number isNumber
      obtain ⟨original, isOriginal, same⟩ := Option.map_eq_some_iff.mp isNumber
      exact ⟨original, isOriginal, past original isOriginal, same.symm⟩
    revert meanwhile
    generalize submission projects rootIds batchIds.draw request projectId correlationId userId error
      failing before = first at ends
    generalize shift : failing.map (· - submissionLookups request) = shifted at ends source
    intro meanwhile
    cases ends with
    | unrecorded early =>
      obtain ⟨original, rfl, above, rfl⟩ := source _ rfl
      exact replays_unrecorded submits ⟨original, rfl, by omega⟩
    | missing recorded short batches member untagged =>
      refine replays_missing submits keyed ?_ ?_ ?_ batches member untagged
      · rintro ⟨number, rfl, early⟩
        have late : 2 ≤ number - submissionLookups request := recorded _ shift.symm
        omega
      · intro succeeds
        apply short
        refine ⟨succeeds.levels, ?_⟩
        intro number isNumber
        obtain ⟨original, rfl, above, rfl⟩ := source number isNumber
        have all := succeeds.ended original rfl
        unfold creationStatements at all
        unfold nodeStatements
        omega
      · rintro ⟨levels, number, rfl, late, -⟩
        apply short
        refine ⟨levels, ?_⟩
        intro other isOther
        obtain ⟨original, same, above, rfl⟩ := source other isOther
        cases same
        omega
    | unrelated levels late short order filled wired =>
      obtain ⟨original, rfl, above, rfl⟩ := source _ rfl
      refine replays_unrelated submits keyed ?_ ?_ conforming referenced ?_
        (take_subset _ _) ⟨_, _, order, filled, wired⟩
      · rintro ⟨number, same, early⟩
        cases same
        unfold nodeStatements at late
        omega
      · intro succeeds
        have all := succeeds.ended original rfl
        unfold creationStatements at all
        unfold nodeStatements at short
        omega
      · constructor
        · rintro ⟨-, number, same, -, all⟩
          cases same
          exact all
        · intro all
          exact ⟨levels, original, rfl, by omega, all⟩
    | filled levels ended filled =>
      refine replays_filled submits conforming keyed ⟨levels, ?_⟩ ⟨filled.planted⟩ meanwhile
      intro number same
      subst same
      have all : nodeStatements request + 3 * (dependencyPairs request.dependencies).length ≤
          number - submissionLookups request := ended _ shift.symm
      have above := past number rfl
      unfold nodeStatements at all
      unfold creationStatements
      omega

def longBatchId (db : BatchDb) : String :=
  String.ofList (List.replicate (((db.batches.map fun batch => batch.id.length) ++
      db.tags.map fun tag => tag.batchId.length).foldr max 0 + 1) 'b')

theorem length_lt_longBatchId {db : BatchDb} {id : String}
    (member : id.length ∈ (db.batches.map fun batch => batch.id.length) ++
      db.tags.map fun tag => tag.batchId.length) : id ≠ longBatchId db := by
  intro same
  have size := congrArg String.length same
  rw [longBatchId, String.length_ofList, length_replicate] at size
  exact (Nat.lt_succ_of_le (le_max_of_le member le_rfl)).ne size

def longBatchIds : BatchIds where
  draw := longBatchId
  unrecorded db batch member := by
    apply length_lt_longBatchId
    exact mem_append_left _ (mem_map.mpr ⟨batch, member, rfl⟩)
  untagged db tag member := by
    apply length_lt_longBatchId
    exact mem_append_right _ (mem_map.mpr ⟨tag, member, rfl⟩)

def taskTree : BatchRequest where
  val :=
    { idempotencyKey := some "deploy"
      nodes := [{ key := "a", title := "A" }, { key := "b", title := "B", parent := some "a" },
        { key := "c", title := "C" }]
      dependencies := [⟨"c", ["a", "b"]⟩] }
  property := by
    constructor
    · decide
    · decide

def taskTreeCreated : Except BatchFailure CreateBatchResponse × BatchDb :=
  submission shop longTreeIds longBatchIds.draw taskTree.val "proj_1" none none
    (.failure (.error "connection lost")) none {}

theorem task_tree_replays : Replays shop longTreeIds longBatchIds taskTree.val "proj_1" none none
      (.failure (.error "connection lost")) ⟨"proj_1", some "deploy", "b"⟩ taskTreeCreated taskTreeCreated.2 := by
  have submits : Submits shop.rows taskTree.val "proj_1" {} ⟨"proj_1", "shop", "org_1"⟩ :=
    ⟨by decide +kernel, by decide +kernel, by decide +kernel⟩
  have untouched : ∀ tag ∈ taskTreeCreated.2.tags, ∀ row ∈ taskTreeCreated.2.jobs.jobs, row.id = tag.jobId →
      row.phase = initialPhase taskTree.val tag.batchKey := by
    decide +kernel
  have listed : ∀ key ∈ taskTree.val.keys, ∀ other ∈ blockedBy taskTree.val key,
      other ∈ lastDependsOn taskTree.val key := by
    decide
  have levels : ∀ node ∈ taskTree.val.nodes, exceedsDepth taskTree.val 2 node.parentKey = false := by
    decide +kernel
  refine (batch_replay_iff shop longTreeIds longBatchIds taskTree "proj_1" none none
    (.failure (.error "connection lost")) none {} taskTreeCreated.2 rfl submits
    (fun _ nowhere => absurd nowhere not_mem_nil) .now).mpr ⟨fun _ => ?_, fun fails => ?_⟩
  · exact ⟨by decide, listed, fun tag member _ => untouched tag member⟩
  · refine absurd ⟨levels, ?_⟩ fails
    rintro number ⟨⟩

def listedTwice : BatchRequest where
  val :=
    { idempotencyKey := some "deploy"
      nodes := [{ key := "a", title := "A" }, { key := "b", title := "B" }, { key := "c", title := "C" }]
      dependencies := [⟨"c", ["a"]⟩, ⟨"c", ["b"]⟩] }
  property := by
    constructor
    · decide
    · decide

def listedTwiceCreated : Except BatchFailure CreateBatchResponse × BatchDb :=
  submission shop longTreeIds longBatchIds.draw listedTwice.val "proj_1" none none
    (.failure (.error "connection lost")) none {}

/-- The repetition reports the last entry alone. -/
theorem first_entry_forgotten : ¬ Replays shop longTreeIds longBatchIds listedTwice.val "proj_1" none none
      (.failure (.error "connection lost")) ⟨"proj_1", some "deploy", "b"⟩ listedTwiceCreated listedTwiceCreated.2 := by
  have created : listedTwiceCreated.1 = .ok
      { batchId := "b"
        idempotencyKey := some "deploy"
        jobs := [("a", ⟨"r", .ready, none⟩), ("b", ⟨"rr", .ready, none⟩),
          ("c", ⟨"rrr", .backlog, some ["a", "b"]⟩)] } := by
    decide +kernel
  have repeated : (resubmission shop longTreeIds longBatchIds listedTwice.val "proj_1" none none
      (.failure (.error "connection lost")) listedTwiceCreated.2).1 = .ok
      { batchId := "b"
        idempotencyKey := some "deploy"
        jobs := [("a", ⟨"r", .ready, none⟩), ("b", ⟨"rr", .ready, none⟩),
          ("c", ⟨"rrr", .backlog, some ["b"]⟩)] } := by
    decide +kernel
  intro replays
  obtain ⟨again, ended, same⟩ := replays.repeated _ created 0
  cases repeated.symm.trans (congrArg Prod.fst ended)
  have listed := same.jobs "c"
  cases listed with
  | some job =>
    have blocks := (job.blockedBy "a").mp (by decide)
    exact absurd blocks (by decide)

end EveHorizon.Batches
