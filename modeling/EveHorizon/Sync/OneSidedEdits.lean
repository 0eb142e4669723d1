import EveHorizon.Sync.MappedJobs
import EveHorizon.Workflows.Rejection

/-!
# One-sided edits

What becomes of an edit of the external item when the mapped jobs are synced.
-/

namespace EveHorizon.Sync

open Interleaving
open Jobs (JobId Timestamp Phase Job JobsDb)

variable (params : JobUpdateParams)

def JobUpdateParams.merged (job : Job) : Job :=
  { job with
    title := params.title.getD job.title
    phase := params.phase.getD job.phase
    priority := params.priority.getD job.priority
    labels := params.labels.getD job.labels
    assignee := params.assignee <|> job.assignee }

def JobUpdateParams.mergedColumns (columns : JobColumns) : JobColumns :=
  { columns with
    description := params.description <|> columns.description
    issueType := params.issueType.getD columns.issueType }

def JobUpdateParams.fields : JobUpdateParams :=
  { params with contentHash := none }

abbrev Carries (params : JobUpdateParams) (job : Job) (columns : JobColumns) : Prop :=
  params.merged job = job ∧ params.mergedColumns columns = columns

section

variable {params other : JobUpdateParams} {job : Job} {columns : JobColumns}

theorem Carries.of_fields (carries : Carries params job columns) (same : params.fields = other.fields) :
    Carries other job columns := by
  have equal : ∀ params : JobUpdateParams, params.merged job = params.fields.merged job ∧
      params.mergedColumns columns = params.fields.mergedColumns columns :=
    fun _ => ⟨rfl, rfl⟩
  unfold Carries at *
  rw [(equal other).1, (equal other).2, ← same]
  exact carries

theorem Carries.of_written (carries : Carries params job columns) (updatedAt : Timestamp)
    (contentHash : Option String) :
    Carries params { job with updatedAt } { columns with contentHash } := by
  constructor
  · exact congrArg (fun written : Job => { written with updatedAt }) carries.1
  · exact congrArg (fun written : JobColumns => { written with contentHash }) carries.2

theorem row_eq_merged_iff (now : Timestamp) : params.row now job = { params.merged job with updatedAt := now } ↔
      (params.assignee = none → job.assignee = none) := by
  constructor
  · intro same absent
    have assignee : params.assignee = (params.assignee <|> job.assignee) := congrArg Job.assignee same
    rw [absent] at assignee
    exact assignee.symm
  · intro unassigned
    have assignee : params.assignee = (params.assignee <|> job.assignee) := by
      cases given : params.assignee with
      | none => rw [unassigned given]; rfl
      | some name => rfl
    unfold JobUpdateParams.row JobUpdateParams.merged
    rw [← assignee]

theorem columns_eq_merged : params.columns columns = { params.mergedColumns columns with
      contentHash := params.contentHash <|> columns.contentHash } :=
  rfl

end

namespace SyncEngine

variable {Item ItemParams : Type} (engine : SyncEngine Item ItemParams)

/-- What is pushed can be pulled, what is pulled can be pushed, and the hash tells edits apart. -/
structure Lawful : Prop where
  pulled_pushed : ∀ job columns item,
    Carries (engine.toJobUpdateParams (engine.updated (engine.fromJobParams job columns) item))
      job columns
  pushed_pulled : ∀ job columns item, Carries (engine.toJobUpdateParams item) job columns →
    engine.updated (engine.fromJobParams job columns) item = item
  hash_injective : ∀ left right hash, (engine.toJobUpdateParams left).contentHash = some hash →
      (engine.toJobUpdateParams right).contentHash = some hash →
        (engine.toJobUpdateParams left).fields = (engine.toJobUpdateParams right).fields

/-- The job is as the mapping was last synced: it carries the item of that time. -/
def OnlyItemChanged (held : Linked Item) : Prop :=
  ∃ item, Carries (engine.toJobUpdateParams item) held.job held.columns ∧
    held.mapping.contentHash = (engine.toJobUpdateParams item).contentHash

/-- The edit is in the job, and still in the item. -/
structure Edited (edit : JobUpdateParams) (held kept : Linked Item) : Prop where
  job : kept.job = { edit.merged held.job with updatedAt := kept.job.updatedAt }
  columns : kept.columns = { edit.mergedColumns held.columns with
    contentHash := kept.columns.contentHash }
  contentHash : edit.contentHash = none → kept.columns.contentHash = held.columns.contentHash
  item : (engine.toJobUpdateParams kept.item).fields = edit.fields
  phase : kept.job.phase = held.job.phase ∨ Jobs.canTransition held.job.phase kept.job.phase = true

structure Settled (kept again : Linked Item) : Prop where
  job : again.job = { kept.job with updatedAt := again.job.updatedAt }
  columns : again.columns = kept.columns
  item : again.item = kept.item

/-- The first pass takes the edit over, and the second changes neither side. -/
def KeepsEdit (projectId : String) (options : SyncOptions) (held : Linked Item)
    (db : SyncDb Item) : Prop :=
  let first := ((engine.syncMappedJobs projectId options).alone db).2
  let second := ((engine.syncMappedJobs projectId options).alone first).2
  ∃ kept again, first.linked held.mapping = some kept ∧ second.linked held.mapping = some again ∧
    engine.Edited (engine.toJobUpdateParams held.item) held kept ∧ Settled kept again

abbrev Writes (options : SyncOptions) (held : Linked Item) : Prop :=
  (options.force || !noDrift (some held.mapping) (engine.toJobUpdateParams held.item)) = true ∧
    (engine.toJobUpdateParams held.item).isEmpty = false

/-- The item says what the job has, and the write does not unassign the job. -/
def EditHarmless (options : SyncOptions) (held : Linked Item) (db : SyncDb Item) : Prop :=
  Carries (engine.toJobUpdateParams held.item) held.job held.columns ∧
    (held.mapping ∈ db.listMappingsForProvider engine.name options.limit →
      engine.Writes options held → (engine.toJobUpdateParams held.item).assignee = none → held.job.assignee = none)

section

variable {engine} {options : SyncOptions} {held kept : Linked Item}

theorem pulled_of_writes (writing : options.dryRun = false) (writes : engine.Writes options held)
    (now : Timestamp) :
    engine.pulled options now held.item held = {
      job := (engine.toJobUpdateParams held.item).row now held.job
      columns := (engine.toJobUpdateParams held.item).columns held.columns
      mapping := marked now (engine.toJobUpdateParams held.item).contentHash held.mapping
      item := held.item } := by
  unfold pulled
  dsimp only
  rw [writes.1, writes.2, writing]
  rfl

theorem pulled_of_not_writes (writing : options.dryRun = false)
    (keeps : ¬ engine.Writes options held) (now : Timestamp) :
    ∃ mapping, engine.pulled options now held.item held = { held with mapping } ∧
      ((options.force || !noDrift (some held.mapping) (engine.toJobUpdateParams held.item)) = false →
        mapping = held.mapping) := by
  unfold pulled
  dsimp only
  rw [writing]
  cases drifted : options.force || !noDrift (some held.mapping) (engine.toJobUpdateParams held.item) with
  | false => exact ⟨held.mapping, rfl, fun _ => rfl⟩
  | true =>
    have empty : (engine.toJobUpdateParams held.item).isEmpty = true := by
      simpa [Writes, drifted] using keeps
    rw [empty]
    exact ⟨_, rfl, nofun⟩

theorem carries_of_edited {now : Timestamp} (lawful : engine.Lawful)
    (edited : engine.Edited (engine.toJobUpdateParams held.item) held (engine.synced options now held)) :
    Carries (engine.toJobUpdateParams held.item) held.job held.columns :=
  (lawful.pulled_pushed held.job held.columns _).of_fields edited.item

theorem writes_of_synced {now : Timestamp} (writing : options.dryRun = false)
    (sameItem : (engine.synced options now held).item = held.item)
    (again : engine.Writes options (engine.synced options now held)) : engine.Writes options held := by
  by_contra keeps
  obtain ⟨mapping, pulls, unmoved⟩ := pulled_of_not_writes writing keeps now
  have given := again.2
  rw [sameItem] at given
  have still : (options.force || !noDrift (some held.mapping) (engine.toJobUpdateParams held.item)) = false := by
    simpa [Writes, given] using keeps
  have hash : (engine.synced options now held).mapping.contentHash = held.mapping.contentHash := by
    unfold synced pushed
    rw [pulls, unmoved still]
    rfl
  have drifts := again.1
  rw [sameItem] at drifts
  unfold noDrift at drifts still
  rw [Option.bind_some, hash] at drifts
  rw [Option.bind_some] at still
  rw [still] at drifts
  cases drifts

theorem edited_self (carries : Carries (engine.toJobUpdateParams held.item) held.job held.columns) :
    engine.Edited (engine.toJobUpdateParams held.item) held held where
  job := by rw [carries.1]
  columns := by rw [carries.2]
  contentHash := fun _ => rfl
  item := rfl
  phase := Or.inl rfl

theorem settled_self (held : Linked Item) : Settled held held := ⟨rfl, rfl, rfl⟩

variable (lawful : engine.Lawful) (writing : options.dryRun = false) (now later : Timestamp)
  (carries : Carries (engine.toJobUpdateParams held.item) held.job held.columns)
  (unassigned : engine.Writes options held →
    (engine.toJobUpdateParams held.item).assignee = none → held.job.assignee = none)

include lawful carries in
theorem synced_item : (engine.synced options now held).item = held.item := by
  have pulls : (engine.pulled options now held.item held).item = held.item := by
    unfold pulled
    dsimp only
    split
    · split <;> rfl
    · rfl
  change engine.updated _ (engine.pulled options now held.item held).item = held.item
  rw [pulls]
  exact lawful.pushed_pulled held.job held.columns held.item carries

include writing carries unassigned in
theorem synced_harmless :
    ∃ updatedAt, (engine.synced options now held).job = { held.job with updatedAt } ∧
      (engine.Writes options held ∧ (engine.synced options now held).columns = { held.columns with
          contentHash := (engine.toJobUpdateParams held.item).contentHash <|> held.columns.contentHash } ∨
        ¬ engine.Writes options held ∧ (engine.synced options now held).columns = held.columns) := by
  change ∃ updatedAt, (engine.pulled options now held.item held).job = _ ∧
    (_ ∧ (engine.pulled options now held.item held).columns = _ ∨
      _ ∧ (engine.pulled options now held.item held).columns = _)
  by_cases writes : engine.Writes options held
  · rw [pulled_of_writes writing writes now]
    refine ⟨now, ?_, Or.inl ⟨writes, ?_⟩⟩
    · have row := (row_eq_merged_iff now).mpr (unassigned writes)
      rw [carries.1] at row
      exact row
    · rw [columns_eq_merged, carries.2]
  · obtain ⟨mapping, pulls, _⟩ := pulled_of_not_writes writing writes now
    rw [pulls]
    exact ⟨held.job.updatedAt, rfl, Or.inr ⟨writes, rfl⟩⟩

include lawful writing carries unassigned in
theorem edited_synced :
    engine.Edited (engine.toJobUpdateParams held.item) held (engine.synced options now held) := by
  obtain ⟨updatedAt, job, columns⟩ := synced_harmless writing now carries unassigned
  constructor
  · rw [job, carries.1]
  · rw [carries.2]
    cases columns with
    | inl written => rw [written.2]
    | inr same => rw [same.2]
  · intro absent
    cases columns with
    | inl written => rw [written.2, absent]; rfl
    | inr same => rw [same.2]
  · rw [synced_item lawful now carries]
  · rw [job]
    exact Or.inl rfl

include lawful writing carries unassigned in
theorem settled_synced :
    Settled (engine.synced options now held) (engine.synced options later (engine.synced options now held)) := by
  have sameItem : (engine.synced options now held).item = held.item := synced_item lawful now carries
  obtain ⟨updatedAt, job, columns⟩ := synced_harmless writing now carries unassigned
  obtain ⟨contentHash, hashed⟩ : ∃ contentHash, (engine.synced options now held).columns =
      { held.columns with contentHash } := by
    cases columns with
    | inl written => exact ⟨_, written.2⟩
    | inr same => exact ⟨held.columns.contentHash, same.2⟩
  have still : Carries (engine.toJobUpdateParams (engine.synced options now held).item)
      (engine.synced options now held).job (engine.synced options now held).columns := by
    rw [sameItem, job, hashed]
    exact carries.of_written updatedAt contentHash
  have unassignedStill : engine.Writes options (engine.synced options now held) →
      (engine.toJobUpdateParams (engine.synced options now held).item).assignee = none →
        (engine.synced options now held).job.assignee = none := by
    intro again absent
    rw [sameItem] at absent
    rw [job]
    exact unassigned (writes_of_synced writing sameItem again) absent
  obtain ⟨writtenAt, jobAgain, columnsAgain⟩ := synced_harmless writing later still unassignedStill
  constructor
  · rw [jobAgain]
  · cases columnsAgain with
    | inr same => exact same.2
    | inl written =>
      have wrote := writes_of_synced writing sameItem written.1
      have first := columns.resolve_right fun same => same.1 wrote
      rw [written.2, sameItem, first.2]
      cases (engine.toJobUpdateParams held.item).contentHash <;> rfl
  · exact synced_item lawful later still

end

theorem syncMappedJobs_leaves (projectId : String) (options : SyncOptions) (db : SyncDb Item) :
    ((engine.syncMappedJobs projectId options).alone db).2 = engine.afterPass projectId options db := by
  obtain ⟨result, passes⟩ := engine.syncMappedJobs_alone projectId options db
  rw [passes]

theorem synced_keys (options : SyncOptions) (now : Timestamp) (held : Linked Item) :
    ((engine.synced options now held).mapping.jobId = held.mapping.jobId ∧
      (engine.synced options now held).mapping.provider = held.mapping.provider) ∧
      (engine.synced options now held).mapping.externalId = held.mapping.externalId ∧
      (engine.synced options now held).mapping.syncDirection = held.mapping.syncDirection ∧
      (engine.synced options now held).job.projectId = held.job.projectId := by
  unfold synced pulled pushed
  dsimp only
  split
  · split <;> exact ⟨⟨rfl, rfl⟩, rfl, rfl, rfl⟩
  · exact ⟨⟨rfl, rfl⟩, rfl, rfl, rfl⟩

/-- The edit is kept if and only if it is none. -/
theorem keepsEdit_iff (lawful : engine.Lawful) (projectId : String) (options : SyncOptions)
    (db : SyncDb Item) (held : Linked Item) (wellformed : Wellformed db)
    (holds : db.linked held.mapping = some held) (ours : held.mapping.provider = engine.name)
    (both : held.mapping.syncDirection = .bidirectional) (ourProject : held.job.projectId = projectId)
    (writing : options.dryRun = false) :
    engine.KeepsEdit projectId options held db ↔ engine.EditHarmless options held db := by
  have first := engine.afterPass_linked wellformed holds ours both ourProject writing
  have advances := engine.advanced_afterPass projectId options db
  unfold KeepsEdit EditHarmless
  dsimp only
  rw [engine.syncMappedJobs_leaves, engine.syncMappedJobs_leaves]
  constructor
  · intro ⟨kept, again, isKept, _, edited, _⟩
    rw [first, Option.some_inj] at isKept
    by_cases listed : held.mapping ∈ db.listMappingsForProvider engine.name options.limit
    · rw [if_pos listed] at isKept
      subst isKept
      have carries := carries_of_edited lawful edited
      refine ⟨carries, fun _ writes => ?_⟩
      have job := edited.job
      unfold synced pushed at job
      rw [pulled_of_writes writing writes] at job
      exact (row_eq_merged_iff db.jobs.now).mp job
    · rw [if_neg listed] at isKept
      subst isKept
      refine ⟨⟨edited.job.symm, ?_⟩, fun isListed => absurd isListed listed⟩
      exact edited.columns.symm
  · intro ⟨carries, harmless⟩
    by_cases listed : held.mapping ∈ db.listMappingsForProvider engine.name options.limit
    · rw [if_pos listed] at first
      obtain ⟨keys, externalId, direction, project⟩ := engine.synced_keys options db.jobs.now held
      have sameKeys : ∀ reached : SyncDb Item, reached.linked (engine.synced options db.jobs.now held).mapping =
            reached.linked held.mapping := by
        intro reached
        unfold SyncDb.linked
        rw [keys.1, keys.2, externalId]
      have second := engine.afterPass_linked (wellformed.advanced advances)
        ((sameKeys _).trans first) (keys.2.trans ours) (direction.trans both)
        (project.trans ourProject) writing
      rw [sameKeys] at second
      refine ⟨_, _, first, second, edited_synced lawful writing _ carries (harmless listed), ?_⟩
      split
      · exact settled_synced lawful writing _ _ carries (harmless listed)
      · exact settled_self _
    · rw [if_neg listed] at first
      have still := mem_of_linked first
      have unlisted := engine.unlisted_afterPass wellformed (mem_of_linked holds) still listed
      have second := engine.afterPass_linked (wellformed.advanced advances) first ours both ourProject writing
      rw [if_neg unlisted] at second
      exact ⟨held, held, first, second, edited_self carries, settled_self held⟩

end SyncEngine

def titleEngine : SyncEngine String String where
  name := "tracker"
  fetchItems _ items := items
  toJobParams title := { title, phase := .ready, priority := 2 }
  toJobUpdateParams title := { title := some title, contentHash := some title }
  fromJobParams job _ := job.title
  updated title _ := title
  created := id
  newItemId _ _ := "item_new"
  computeHash _ job _ _ := some job.title
  projects := []
  rootIds := Workflows.longIds
  json _ := "{}"

theorem titleEngine_lawful : titleEngine.Lawful where
  pulled_pushed := fun _ _ _ => ⟨rfl, rfl⟩
  pushed_pulled := fun _ _ _ carries => (congrArg Job.title carries.1).symm
  hash_injective := by
    intro left right hash isLeft isRight
    have same : left = right := Option.some_inj.mp (isLeft.trans isRight.symm)
    rw [same]

variable (title : String)

def titledJob : Linked String where
  job := { id := "job_1", projectId := "proj_1", title := "Old", phase := .active, assignee := some "ada" }
  columns := {}
  mapping := {
    jobId := "job_1", provider := "tracker", externalId := "item_1", lastSyncedAt := some 0
    contentHash := some "Old" }
  item := title

def titledDb : SyncDb String where
  base := { loop := { jobs := { projects := ["proj_1"], jobs := [(titledJob title).job] } } }
  mappings := [(titledJob title).mapping]
  items := [("item_1", title)]

theorem titledDb_wellformed : Wellformed (titledDb title) where
  itemsOnce := List.nodup_singleton _
  jobsOnce := List.nodup_singleton _
  past := by
    intro row isRow time isTime
    rw [List.mem_singleton.mp isRow] at isTime
    rw [← Option.some_inj.mp isTime]
    exact Nat.zero_le _

theorem unedited_item_kept : titleEngine.KeepsEdit "proj_1" {} (titledJob "Old") (titledDb "Old") :=
  (titleEngine.keepsEdit_iff titleEngine_lawful "proj_1" {} (titledDb "Old") (titledJob "Old")
    (titledDb_wellformed "Old") rfl rfl rfl rfl rfl).mpr
      ⟨⟨rfl, rfl⟩, fun _ writes => absurd writes (by decide +kernel)⟩

/-- The item is given the old title again, and the job loses its assignee. -/
theorem edited_title_lost : titleEngine.Lawful ∧ Wellformed (titledDb "New") ∧
      (titledDb "New").linked (titledJob "New").mapping = some (titledJob "New") ∧
      titleEngine.OnlyItemChanged (titledJob "New") ∧
      ¬ titleEngine.KeepsEdit "proj_1" {} (titledJob "New") (titledDb "New") := by
  refine ⟨titleEngine_lawful, titledDb_wellformed "New", rfl, ⟨"Old", ⟨rfl, rfl⟩, rfl⟩, ?_⟩
  intro ⟨kept, _, isKept, _, edited, _⟩
  have left : ((((titleEngine.syncMappedJobs "proj_1" {}).alone (titledDb "New")).2.linked
      (titledJob "New").mapping).map fun kept => (kept.item, kept.job.assignee)) = some ("Old", none) := by
    decide +kernel
  rw [isKept, Option.map_some, Option.some_inj] at left
  have title := congrArg JobUpdateParams.title edited.item
  have old : kept.item = "Old" := congrArg Prod.fst left
  rw [old] at title
  exact absurd title (by decide)

end EveHorizon.Sync
