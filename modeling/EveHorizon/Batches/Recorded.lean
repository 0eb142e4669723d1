import EveHorizon.Batches.Planting
import EveHorizon.Jobs.Cascade

/-!
# Recorded batches

The rows from which a repeated request is answered.
-/

namespace EveHorizon.Batches

open Interleaving List
open Jobs (JobId Job JobRelation JobsDb JobStatement)
open Workflows (WorkflowStatement)

def rowsOf (db : JobsDb) (id : JobId) : List Job := db.jobs.filter (·.id == id)

/-- Rows keep their ids and parents, and no relation is lost. -/
structure RowsKept (start later : JobsDb) : Prop where
  rows : ∀ id, rowsOf start id ≠ [] → ∃ change : Job → Job,
    (∀ row, (change row).id = row.id ∧ (change row).parentId = row.parentId) ∧
      rowsOf later id = (rowsOf start id).map change
  relations : ∀ relation ∈ start.relations, relation ∈ later.relations

theorem RowsKept.refl (db : JobsDb) : RowsKept db db := by
  constructor
  · intro id _
    exact ⟨fun row => row, fun _ => ⟨rfl, rfl⟩, (map_id' _).symm⟩
  · exact fun _ member => member

theorem RowsKept.trans {start middle later : JobsDb} (first : RowsKept start middle)
    (second : RowsKept middle later) : RowsKept start later := by
  constructor
  · intro id some
    obtain ⟨change, keeps, rows⟩ := first.rows id some
    have still : rowsOf middle id ≠ [] := by
      rw [rows]
      simpa using some
    obtain ⟨next, keepsNext, later⟩ := second.rows id still
    refine ⟨next ∘ change, ?_, ?_⟩
    · intro row
      obtain ⟨sameId, sameParent⟩ := keepsNext (change row)
      exact ⟨sameId.trans (keeps row).1, sameParent.trans (keeps row).2⟩
    · rw [later, rows, map_map]
  · intro relation member
    exact second.relations relation (first.relations relation member)

variable {change : Job → Job}

theorem rowsKept_update {start later : JobsDb}
    (keeps : ∀ row, (change row).id = row.id ∧ (change row).parentId = row.parentId)
    (rows : later.jobs = start.jobs.map change) (relations : later.relations = start.relations) :
    RowsKept start later := by
  constructor
  · intro id _
    refine ⟨change, keeps, ?_⟩
    have same : ((fun row : Job => row.id == id) ∘ change) = fun row => row.id == id := by
      funext row
      rw [Function.comp_apply, (keeps row).1]
    rw [rowsOf, rows, filter_map, same]
    rfl
  · intro relation member
    rw [relations]
    exact member

theorem rowsKept_same {start later : JobsDb} (rows : later.jobs = start.jobs)
    (relations : later.relations = start.relations) : RowsKept start later :=
  rowsKept_update (fun _ => ⟨rfl, rfl⟩) (rows.trans (map_id' _).symm) relations

theorem rowsKept_updateWhere {db : JobsDb} {selected : Job → Bool}
    (keeps : ∀ row, (change row).id = row.id ∧ (change row).parentId = row.parentId) :
    RowsKept db { db with jobs := Table.updateWhere selected change db.jobs } := by
  have keepsEach : ∀ row, (if selected row then change row else row).id = row.id ∧
      (if selected row then change row else row).parentId = row.parentId := by
    intro row
    split
    · exact keeps row
    · exact ⟨rfl, rfl⟩
  exact rowsKept_update keepsEach rfl rfl

theorem rowsKept_insertJob (job : Job) (db : JobsDb) : RowsKept db (WorkflowStatement.effect (.insertJob job) db) := by
  rw [WorkflowStatement.effect]
  split
  · exact .refl db
  · next vacant =>
      constructor
      · intro id some
        refine ⟨fun row => row, fun _ => ⟨rfl, rfl⟩, ?_⟩
        have other : ¬ (Workflows.newJob db.now job).id = id := by
          intro same
          obtain ⟨row, member⟩ := exists_mem_of_ne_nil _ some
          obtain ⟨listed, named⟩ := mem_filter.mp member
          apply vacant
          rw [JobsDb.findJob, find?_isSome]
          exact ⟨row, listed, same.symm ▸ named⟩
        rw [map_id', rowsOf, rowsOf, filter_append, filter_singleton, beq_eq_false_iff_ne.mpr other]
        simp
      · exact fun _ member => member

theorem rowsKept_jobs (stmt : JobStatement) (db : JobsDb) : RowsKept db (stmt.effect db) := by
  cases stmt with
  | select => exact .refl db
  | updateJobs update =>
    exact rowsKept_updateWhere fun row =>
      ⟨update.changes_id db.now row, update.changes_parentId db.now row⟩
  | updateAttempts update => exact rowsKept_same rfl rfl
  | insertAttempt new =>
    rw [JobStatement.effect]
    split
    · exact .refl db
    · exact rowsKept_same rfl rfl
  | insertAudit entry | deleteGates jobIds | passTime elapsed => exact rowsKept_same rfl rfl

theorem rowsKept_effect (stmt : WorkflowStatement) (db : JobsDb) :
    RowsKept db (WorkflowStatement.effect stmt db) := by
  cases stmt with
  | jobs stmt => exact rowsKept_jobs stmt db
  | insertJob job => exact rowsKept_insertJob job db
  | insertRelation relation =>
    constructor
    · rw [insertRelation_rest]
      exact (RowsKept.refl db).rows
    · intro old member
      exact mem_insertRelation.mpr (.inl member)
  | supersede jobId retryJobId generation => exact rowsKept_updateWhere fun _ => ⟨rfl, rfl⟩
  | reopenRoot rootId generation => exact rowsKept_updateWhere fun _ => ⟨rfl, rfl⟩

structure Recording where
  projectId : String
  idempotencyKey : Option String
  batchId : String

/-- Other calls tag the jobs of other batches, and record batches under other keys. -/
def Foreign (recording : Recording) (db : BatchDb) : BatchStatement → Prop
  | .jobs _ => True
  | .insertBatch batch => sameSubmission recording.projectId recording.idempotencyKey batch = false
  | .tagJob tag => tag.batchId ≠ recording.batchId ∧
      ∀ old ∈ db.tags, old.batchId = recording.batchId → old.jobId ≠ tag.jobId

/-- The stores that the statements of other calls can lead to. -/
inductive Meanwhile (recording : Recording) (start : BatchDb) : BatchDb → Prop where
  | now : Meanwhile recording start start
  | step {later : BatchDb} {stmt : BatchStatement} (earlier : Meanwhile recording start later)
      (foreign : Foreign recording later stmt) :
      Meanwhile recording start (Statement.effect stmt later)

structure Kept (recording : Recording) (start later : BatchDb) : Prop where
  jobs : RowsKept start.jobs later.jobs
  batches : ∃ more, later.batches = start.batches ++ more ∧ ∀ batch ∈ more,
    sameSubmission recording.projectId recording.idempotencyKey batch = false
  tags : ∀ tag, tag.batchId = recording.batchId → (tag ∈ later.tags ↔ tag ∈ start.tags)

section

variable {recording : Recording} {start later : BatchDb}

theorem Kept.step {stmt : BatchStatement} (kept : Kept recording start later)
    (foreign : Foreign recording later stmt) : Kept recording start (Statement.effect stmt later) := by
  obtain ⟨jobs, ⟨more, batches, others⟩, tags⟩ := kept
  change Kept recording start (BatchStatement.effect stmt later)
  cases stmt with
  | jobs stmt =>
    exact ⟨jobs.trans (rowsKept_effect stmt later.jobs), ⟨more, batches, others⟩, tags⟩
  | insertBatch batch =>
    rw [BatchStatement.effect]
    split
    · exact ⟨jobs, ⟨more, batches, others⟩, tags⟩
    · refine ⟨jobs, ⟨more ++ [batch], ?_, ?_⟩, tags⟩
      · rw [batches, append_assoc]
      · intro other member
        rcases mem_append.mp member with earlier | last
        · exact others other earlier
        · exact mem_singleton.mp last ▸ foreign
  | tagJob tag =>
    rw [BatchStatement.effect]
    split
    · refine ⟨jobs, ⟨more, batches, others⟩, ?_⟩
      intro own isOwn
      rw [← tags own isOwn, mem_append, mem_filter, mem_singleton]
      constructor
      · rintro (⟨listed, _⟩ | rfl)
        · exact listed
        · exact absurd isOwn foreign.1
      · intro listed
        exact .inl ⟨listed, bne_iff_ne.mpr (foreign.2 own listed isOwn)⟩
    · exact ⟨jobs, ⟨more, batches, others⟩, tags⟩

theorem Meanwhile.kept (meanwhile : Meanwhile recording start later) : Kept recording start later := by
  induction meanwhile with
  | now => exact ⟨.refl _, ⟨[], (append_nil _).symm, by simp⟩, fun _ _ => Iff.rfl⟩
  | step _ foreign ih => exact ih.step foreign

theorem Kept.submitted (kept : Kept recording start later) :
    later.submitted recording.projectId recording.idempotencyKey =
      start.submitted recording.projectId recording.idempotencyKey := by
  obtain ⟨more, batches, others⟩ := kept.batches
  have none : more.find? (sameSubmission recording.projectId recording.idempotencyKey) = none := by
    rw [find?_eq_none]
    intro batch member
    simp [others batch member]
  rw [BatchDb.submitted, BatchDb.submitted, batches, find?_append, none, Option.or_none]

theorem Kept.found (kept : Kept recording start later) {batchId : String} {batch : BatchRecord}
    (found : start.batches.find? (·.id == batchId) = some batch) :
    later.batches.find? (·.id == batchId) = some batch := by
  obtain ⟨more, batches, -⟩ := kept.batches
  rw [batches, find?_append, found, Option.some_or]

end

/-- Each key has one job, and a tag that says so. -/
structure Stored (batchId : String) (ids : KeyToJobId) (db : BatchDb) : Prop where
  keys : (ids.map Prod.fst).Nodup
  jobIds : (ids.map Prod.snd).Nodup
  tags : ∀ tag, tag.batchId = batchId → (tag ∈ db.tags ↔ ∃ entry ∈ ids, tag = ⟨entry.2, batchId, entry.1⟩)
  rows : ∀ entry ∈ ids, ∃ row, rowsOf db.jobs entry.2 = [row]

theorem Stored.later {recording : Recording} {ids : KeyToJobId} {start later : BatchDb}
    (stored : Stored recording.batchId ids start) (kept : Kept recording start later) :
    Stored recording.batchId ids later := by
  refine ⟨stored.keys, stored.jobIds, ?_, ?_⟩
  · intro tag isOwn
    rw [kept.tags tag isOwn, stored.tags tag isOwn]
  · intro entry member
    obtain ⟨row, rows⟩ := stored.rows entry member
    obtain ⟨change, _, rewritten⟩ := kept.jobs.rows entry.2 (by simp [rows])
    exact ⟨change row, by rw [rewritten, rows]; rfl⟩

section

variable {request : CreateBatchRequest} {db : BatchDb} {batchId key : String} {α : Type}

theorem lookup_of_unique {entries : List (String × α)} {value : α} (member : (key, value) ∈ entries)
    (unique : ∀ other, (key, other) ∈ entries → other = value) : entries.lookup key = some value := by
  induction entries with
  | nil => cases member
  | cons entry entries ih =>
    obtain ⟨first, other⟩ := entry
    rw [lookup_cons]
    by_cases same : key = first
    · subst same
      rw [beq_self_eq_true, unique other mem_cons_self]
    · rw [beq_eq_false_iff_ne.mpr same]
      apply ih
      · rcases mem_cons.mp member with isFirst | later
        · cases isFirst
          exact absurd rfl same
        · exact later
      · exact fun other later => unique other (mem_cons_of_mem _ later)

theorem lookup_of_absent {entries : List (String × α)} (absent : ∀ value, (key, value) ∉ entries) :
    entries.lookup key = none := by
  rw [lookup_eq_none_iff]
  intro entry member
  rw [bne_iff_ne]
  rintro rfl
  exact absent entry.2 member

variable {row : Job}

theorem mem_batchJobs (member : (row, key) ∈ db.batchJobs batchId) :
    row ∈ db.jobs.jobs ∧ ⟨row.id, batchId, key⟩ ∈ db.tags := by
  obtain ⟨listed, _⟩ := mem_filter.mp member
  obtain ⟨other, isRow, tagged⟩ := mem_filterMap.mp listed
  obtain ⟨tag, found, same⟩ := Option.map_eq_some_iff.mp tagged
  cases same
  have matched := find?_some found
  rw [Bool.and_eq_true, beq_iff_eq, beq_iff_eq] at matched
  refine ⟨(mem_insertionSort _).mp isRow, ?_⟩
  rw [← matched.1, ← matched.2]
  exact mem_of_find?_eq_some found

def reportOf (request : CreateBatchRequest) (key : String) (row : Job) : BatchJobResult where
  jobId := row.id
  phase := row.phase
  blockedBy := blockedByEntry (lastDependsOn request key)

theorem Stored.lookup {ids : KeyToJobId} (stored : Stored batchId ids db) (named : key ≠ "") {id : JobId}
    (found : KeyToJobId.get ids key = some id) (rows : rowsOf db.jobs id = [row]) :
    (reconstructedJobs request (db.batchJobs batchId)).lookup key = some (reportOf request key row) := by
  obtain ⟨isRow, isId⟩ := mem_filter.mp (rows ▸ mem_singleton_self row)
  rw [beq_iff_eq] at isId
  have tag := (stored.tags ⟨id, batchId, key⟩ rfl).mpr ⟨(key, id), get_mem found, rfl⟩
  have first : db.tags.find? (fun tag => tag.jobId == row.id && tag.batchId == batchId) = some ⟨id, batchId, key⟩ := by
    have some : (db.tags.find? fun tag => tag.jobId == row.id && tag.batchId == batchId).isSome := by
      rw [find?_isSome]
      exact ⟨_, tag, by simp [isId]⟩
    obtain ⟨other, isFirst⟩ := Option.isSome_iff_exists.mp some
    have matched := find?_some isFirst
    rw [Bool.and_eq_true, beq_iff_eq, beq_iff_eq] at matched
    obtain ⟨entry, listed, rfl⟩ := (stored.tags other matched.2).mp (mem_of_find?_eq_some isFirst)
    have same := inj_on_of_nodup_map stored.jobIds listed (get_mem found) (matched.1.trans isId)
    rw [isFirst, same]
  have reported : (row, key) ∈ db.batchJobs batchId := by
    apply mem_filter.mpr
    refine ⟨mem_filterMap.mpr ⟨row, (mem_insertionSort _).mpr isRow, ?_⟩, by simpa using named⟩
    rw [first]
    rfl
  apply lookup_of_unique
  · exact mem_map.mpr ⟨(row, key), reported, rfl⟩
  · intro other member
    obtain ⟨⟨otherRow, otherKey⟩, listed, same⟩ := mem_map.mp member
    obtain ⟨rfl, rfl⟩ := Prod.mk.inj same.symm
    obtain ⟨isOther, tagged⟩ := mem_batchJobs listed
    obtain ⟨entry, isEntry, equal⟩ := (stored.tags _ rfl).mp tagged
    have sameKey : entry.1 = key := (congrArg BatchTag.batchKey equal).symm
    have sameEntry := inj_on_of_nodup_map stored.keys isEntry (get_mem found) sameKey
    have sameId : otherRow.id = id := (congrArg BatchTag.jobId equal).trans (congrArg Prod.snd sameEntry)
    have own : otherRow ∈ rowsOf db.jobs id := mem_filter.mpr ⟨isOther, by rw [sameId, beq_self_eq_true]⟩
    rw [rows, mem_singleton] at own
    rw [own]
    rfl

theorem lookup_untagged (untagged : ∀ tag ∈ db.tags, tag.batchId = batchId → tag.batchKey ≠ key) :
    (reconstructedJobs request (db.batchJobs batchId)).lookup key = none := by
  apply lookup_of_absent
  intro value member
  obtain ⟨⟨row, other⟩, listed, same⟩ := mem_map.mp member
  cases same
  exact untagged _ (mem_batchJobs listed).2 rfl rfl

end

end EveHorizon.Batches
