import EveHorizon.Library.Paging
import EveHorizon.Sync.Engine

/-!
# A pass over the mapped jobs

What `syncMappedJobs` leaves when nothing interleaves with it: the passes over the mappings of a
page, one after another.
-/

namespace EveHorizon.Sync

open Interleaving List Call
open Jobs (JobId Timestamp Phase Job JobsDb)
open SyncStatement (effect)

namespace SyncEngine

variable {Item ItemParams : Type} (engine : SyncEngine Item ItemParams)

/-! ## What the calls leave -/

def logged (jobId action : String) (context : List (String × Option String)) (db : SyncDb Item) : SyncDb Item :=
  ((auditLog jobId action context : SyncCall Item Unit).alone db).2

def updated? (jobId : JobId) (params : JobUpdateParams) (db : SyncDb Item) : SyncDb Item :=
  if params.isEmpty then db else effect (.updateJob jobId params) db

def pulls (options : SyncOptions) (jobId : JobId) (params : JobUpdateParams) (db : SyncDb Item) : Bool :=
  (options.force || !noDrift (db.getMapping jobId engine.name) params) && !options.dryRun

def afterPull (jobId : JobId) (externalId : String) (item : Item) (options : SyncOptions)
    (db : SyncDb Item) : SyncDb Item :=
  let params := engine.toJobUpdateParams item
  if engine.pulls options jobId params db then
    logged jobId "updated" (engine.source externalId ++ [("changes", some (engine.json params))])
      (effect (.markSynced jobId engine.name params.contentHash) (updated? jobId params db))
  else db

def afterPush (mapping : ExternalMapping) (job : Job) (columns : JobColumns) (db : SyncDb Item) : SyncDb Item :=
  effect (.markSynced mapping.jobId engine.name none)
    (effect (.updateItem mapping.externalId (engine.updated (engine.fromJobParams job columns))) db)

abbrev inward (mapping : ExternalMapping) : Prop :=
  mapping.syncDirection = .inbound ∨ mapping.syncDirection = .bidirectional

abbrev outward (mapping : ExternalMapping) : Prop :=
  mapping.syncDirection = .outbound ∨ mapping.syncDirection = .bidirectional

variable (projectId : String)

def afterMapping (options : SyncOptions) (mapping : ExternalMapping) (db : SyncDb Item) : SyncDb Item :=
  match (db.jobs.findJob mapping.jobId).filter (·.projectId == projectId) with
  | none => db
  | some job =>
    match db.item mapping.externalId with
    | none =>
      effect (.recordSyncError mapping.jobId engine.name "External item not found") db
    | some item =>
      let pulled :=
        if inward mapping then engine.afterPull mapping.jobId mapping.externalId item options db
        else db
      if outward mapping ∧ options.dryRun = false then
        engine.afterPush mapping job (db.columnsOf mapping.jobId) pulled
      else pulled

/-- What `syncMappedJobs` leaves. -/
def afterPass (options : SyncOptions) (db : SyncDb Item) : SyncDb Item :=
  (db.listMappingsForProvider engine.name options.limit).foldl
    (fun reached mapping => engine.afterMapping projectId options mapping reached) db

theorem handlePullUpdate_alone (jobId : JobId) (externalId : String) (item : Item)
    (options : SyncOptions) (db : SyncDb Item) :
    ∃ operation, (engine.handlePullUpdate jobId externalId item options).alone db =
      (.ok operation, engine.afterPull jobId externalId item options db) := by
  unfold handlePullUpdate afterPull pulls select
  rw [alone_perform_bind]
  change ∃ operation, Call.alone _ db = _
  dsimp only
  by_cases kept : options.force = false ∧ noDrift (db.getMapping jobId engine.name)
      (engine.toJobUpdateParams item) = true
  · rw [if_pos kept]
    exact ⟨_, by rw [if_neg (by simp [kept.1, kept.2])]; rfl⟩
  · have drifted : (options.force || !noDrift (db.getMapping jobId engine.name)
        (engine.toJobUpdateParams item)) = true := by
      cases force : options.force with
      | true => rfl
      | false => simpa [force] using kept
    rw [if_neg kept, drifted]
    cases dry : options.dryRun with
    | true => exact ⟨_, by rw [if_pos rfl, if_neg (by decide)]; rfl⟩
    | false =>
      have updates : (updateJob jobId (engine.toJobUpdateParams item) : SyncCall Item Unit).alone db =
          (.ok (), updated? jobId (engine.toJobUpdateParams item) db) := by
        unfold updateJob updated?
        split <;> rfl
      rw [if_neg (by decide), alone_bind_ok updates]
      exact ⟨_, rfl⟩

theorem pullMapped_alone (mapping : ExternalMapping) (item : Item) (options : SyncOptions)
    (result : SyncResult) (db : SyncDb Item) :
    ∃ next, (engine.pullMapped mapping item options result).alone db = (.ok next, if inward mapping then
        engine.afterPull mapping.jobId mapping.externalId item options db else db) := by
  unfold pullMapped
  by_cases isInward : inward mapping
  · obtain ⟨operation, alone⟩ := engine.handlePullUpdate_alone mapping.jobId mapping.externalId item options db
    rw [if_pos isInward, if_pos isInward, alone_bind_ok alone]
    exact ⟨_, rfl⟩
  · rw [if_neg isInward, if_neg isInward]
    exact ⟨_, rfl⟩

theorem pushMapped_alone (mapping : ExternalMapping) (job : Job) (columns : JobColumns)
    (options : SyncOptions) (db : SyncDb Item) :
    (engine.pushMapped mapping job columns options).alone db = (.ok (), if outward mapping ∧ options.dryRun = false then
        engine.afterPush mapping job columns db else db) := by
  unfold pushMapped
  by_cases writes : outward mapping ∧ options.dryRun = false
  · rw [if_pos writes, if_pos writes.1, writes.2]
    rfl
  · rw [if_neg writes]
    split
    · next isOutward =>
        cases dry : options.dryRun with
        | true => rfl
        | false => exact absurd ⟨isOutward, dry⟩ writes
    · rfl

theorem syncMapping_alone (options : SyncOptions) (mapping : ExternalMapping) (result : SyncResult) (db : SyncDb Item) :
    ∃ next, (engine.syncMapping projectId options mapping result).alone db =
      (.ok next, engine.afterMapping projectId options mapping db) := by
  unfold syncMapping afterMapping select
  rw [alone_perform_bind]
  change ∃ next, Call.alone _ db = _
  cases found : db.jobs.findJob mapping.jobId with
  | none => exact ⟨_, rfl⟩
  | some job =>
    by_cases ours : (job.projectId == projectId) = true
    · simp only [Option.map_some, Option.filter, ours, if_true]
      rw [alone_perform_bind]
      change ∃ next, Call.alone _ db = _
      cases present : db.item mapping.externalId with
      | none => exact ⟨_, rfl⟩
      | some item =>
        obtain ⟨pulled, alone⟩ := engine.pullMapped_alone mapping item options result db
        dsimp only
        rw [alone_bind_ok alone, alone_bind_ok (engine.pushMapped_alone _ _ _ _ _)]
        exact ⟨pulled, rfl⟩
    · simp only [Option.map_some, Option.filter, ours]
      exact ⟨_, rfl⟩

theorem collect_alone {β : Type} (operation : String) (idOf : β → String)
    {body : β → SyncResult → SyncCall Item SyncResult} {after : β → SyncDb Item → SyncDb Item}
    (alone : ∀ entry result db, ∃ next, (body entry result).alone db = (.ok next, after entry db))
    (entries : List β) (result : SyncResult) (db : SyncDb Item) :
    ∃ last, (collect operation idOf body entries result).alone db =
      (.ok last, entries.foldl (fun reached entry => after entry reached) db) := by
  induction entries generalizing result db with
  | nil => exact ⟨result, rfl⟩
  | cons entry rest ih =>
    obtain ⟨next, first⟩ := alone entry { result with processed := result.processed + 1 } db
    obtain ⟨last, later⟩ := ih next (after entry db)
    refine ⟨last, ?_⟩
    rw [collect, alone_bind, alone_handle, first]
    exact later

theorem syncMappedJobs_alone (options : SyncOptions) (db : SyncDb Item) :
    ∃ result, (engine.syncMappedJobs projectId options).alone db =
      (.ok result, engine.afterPass projectId options db) := by
  unfold syncMappedJobs select
  rw [alone_perform_bind]
  exact collect_alone "mapping" ExternalMapping.jobId
    (engine.syncMapping_alone projectId options) _ {} db

end SyncEngine

/-! ## A job, its item and the mapping between them -/

/-- A job, its item and the mapping between them. -/
structure Linked (Item : Type) where
  job : Job
  columns : JobColumns
  mapping : ExternalMapping
  item : Item

def Linked.join {Item : Type} (columns : JobColumns) :
    Option Job → Option ExternalMapping → Option Item → Option (Linked Item)
  | some job, some mapping, some item => some { job, columns, mapping, item }
  | _, _, _ => none

open Linked (join)

variable {change : ExternalMapping → ExternalMapping}

namespace SyncDb

variable {Item : Type}

def linked (db : SyncDb Item) (mapping : ExternalMapping) : Option (Linked Item) :=
  join (db.columnsOf mapping.jobId) (db.jobs.findJob mapping.jobId)
    (db.getMapping mapping.jobId mapping.provider) (db.item mapping.externalId)

variable (jobId wanted : JobId) (params : JobUpdateParams)

theorem findJob_updateJob (db : SyncDb Item) :
    (effect (.updateJob jobId params) db).jobs.findJob wanted = (db.jobs.findJob wanted).map fun row =>
        if row.id == jobId then params.row db.jobs.now row else row := by
  simp only [effect]
  split
  · next missing =>
      cases found : db.jobs.findJob wanted with
      | none => rfl
      | some row =>
        have isWanted := Jobs.findJob_id found
        have other : row.id ≠ jobId := by
          intro same
          rw [← same, isWanted, found] at missing
          cases missing
        rw [Option.map_some, if_neg (by simpa using other)]
  · exact Table.find?_updateWhere Job.id (·.id == jobId) (params.row db.jobs.now) (fun row _ => rfl) db.jobs.jobs wanted

theorem lookup_setColumns (columns : JobColumns) (rows : List (JobId × JobColumns)) :
    (setColumns jobId columns rows).lookup wanted = if wanted = jobId then some columns else rows.lookup wanted := by
  unfold setColumns
  by_cases same : wanted = jobId
  · subst same
    rw [if_pos rfl, lookup_cons_self]
  · have apart : (wanted == jobId) = false := by simpa using same
    rw [if_neg same, lookup_cons, apart]
    induction rows with
    | nil => rfl
    | cons row rest ih =>
      obtain ⟨rowId, rowColumns⟩ := row
      by_cases hidden : rowId = jobId
      · have skipped : (wanted == rowId) = false := hidden ▸ apart
        rw [filter_cons_of_neg (by simpa using hidden), lookup_cons, skipped]
        exact ih
      · rw [filter_cons_of_pos (by simpa using hidden), lookup_cons, lookup_cons]
        cases wanted == rowId with
        | true => rfl
        | false => exact ih

theorem columnsOf_updateJob (db : SyncDb Item) (present : (db.jobs.findJob wanted).isSome = true) :
    (effect (.updateJob jobId params) db).columnsOf wanted =
      if wanted = jobId then params.columns (db.columnsOf wanted) else db.columnsOf wanted := by
  simp only [effect]
  split
  · next missing =>
      have other : wanted ≠ jobId := by
        intro same
        rw [← same, Option.isNone_iff_eq_none] at missing
        rw [missing] at present
        exact absurd present (by decide)
      rw [if_neg other]
  · unfold columnsOf
    rw [lookup_setColumns]
    split
    · next same => rw [same]; rfl
    · rfl

theorem item_updateItem (externalId wanted : String) (change : Item → Item) (db : SyncDb Item) :
    (effect (.updateItem externalId change) db).item wanted =
      (db.item wanted).map fun item => if wanted = externalId then change item else item := by
  change List.lookup wanted (db.items.map _) = (List.lookup wanted db.items).map _
  induction db.items with
  | nil => rfl
  | cons entry rest ih =>
    obtain ⟨entryId, item⟩ := entry
    rw [map_cons]
    by_cases isEntry : wanted = entryId
    · subst isEntry
      by_cases changed : wanted = externalId
      · simp [changed]
      · simp [changed]
    · have skipped : (wanted == entryId) = false := by simpa using isEntry
      by_cases changed : entryId = externalId
      · rw [if_pos (by simpa using changed), lookup_cons, lookup_cons, skipped]
        exact ih
      · rw [if_neg (by simpa using changed), lookup_cons, lookup_cons, skipped]
        exact ih

theorem getMapping_updateWhere (wantedId : JobId) (provider wanted : String)
    (keeps : ∀ row, (change row).jobId = row.jobId ∧ (change row).provider = row.provider)
    (rows : List ExternalMapping) :
    (Table.updateWhere (isMapping jobId provider) change rows).find? (isMapping wantedId wanted) =
      (rows.find? (isMapping wantedId wanted)).map fun row =>
        if wantedId = jobId ∧ wanted = provider then change row else row := by
  have same : (isMapping wantedId wanted ∘ fun row =>
      if isMapping jobId provider row then change row else row) = isMapping wantedId wanted := by
    funext row
    unfold isMapping
    dsimp only [Function.comp]
    split
    · rw [(keeps row).1, (keeps row).2]
    · rfl
  rw [Table.updateWhere, find?_map, same]
  cases found : rows.find? (isMapping wantedId wanted) with
  | none => rfl
  | some row =>
    have isWanted := find?_some found
    simp only [isMapping, Bool.and_eq_true, beq_iff_eq] at isWanted
    simp only [Option.map_some, isMapping, isWanted.1, isWanted.2, Bool.and_eq_true, beq_iff_eq]

theorem linked_updateJob (db : SyncDb Item) (mapping : ExternalMapping) :
    (effect (.updateJob jobId params) db).linked mapping = (db.linked mapping).map fun held =>
        if mapping.jobId = jobId then
          { held with job := params.row db.jobs.now held.job, columns := params.columns held.columns }
        else held := by
  have sameMapping : (effect (.updateJob jobId params) db).getMapping mapping.jobId
      mapping.provider = db.getMapping mapping.jobId mapping.provider := by
    simp only [effect]
    split <;> rfl
  have sameItem : (effect (.updateJob jobId params) db).item mapping.externalId = db.item mapping.externalId := by
    simp only [effect]
    split <;> rfl
  unfold linked
  rw [findJob_updateJob, sameMapping, sameItem]
  cases found : db.jobs.findJob mapping.jobId with
  | none => rfl
  | some job =>
    have isMapped := Jobs.findJob_id found
    rw [columnsOf_updateJob jobId _ params db (by rw [found]; rfl), Option.map_some, isMapped]
    cases db.getMapping mapping.jobId mapping.provider with
    | none => rfl
    | some row =>
      cases db.item mapping.externalId with
      | none => rfl
      | some item =>
        by_cases same : mapping.jobId = jobId
        · simp [join, same]
        · simp [join, same]

theorem linked_mark (provider : String) (mapping : ExternalMapping) (change : ExternalMapping → ExternalMapping)
    (keeps : ∀ row, (change row).jobId = row.jobId ∧ (change row).provider = row.provider) (db : SyncDb Item) :
    ({ db with mappings := Table.updateWhere (isMapping jobId provider) change db.mappings } :
        SyncDb Item).linked mapping = (db.linked mapping).map fun held =>
        if mapping.jobId = jobId ∧ mapping.provider = provider then
          { held with mapping := change held.mapping }
        else held := by
  change join (db.columnsOf mapping.jobId) (db.jobs.findJob mapping.jobId)
      ((Table.updateWhere (isMapping jobId provider) change db.mappings).find?
        (isMapping mapping.jobId mapping.provider)) (db.item mapping.externalId) =
    (join (db.columnsOf mapping.jobId) (db.jobs.findJob mapping.jobId)
      (db.mappings.find? (isMapping mapping.jobId mapping.provider)) (db.item mapping.externalId)).map _
  rw [getMapping_updateWhere jobId mapping.jobId provider mapping.provider keeps db.mappings]
  cases db.jobs.findJob mapping.jobId with
  | none => rfl
  | some job =>
    cases db.mappings.find? (isMapping mapping.jobId mapping.provider) with
    | none => rfl
    | some row =>
      cases db.item mapping.externalId with
      | none => rfl
      | some item =>
        by_cases same : mapping.jobId = jobId ∧ mapping.provider = provider
        · simp [join, same]
        · simp [join, same]

theorem linked_updateItem (externalId : String) (change : Item → Item) (db : SyncDb Item) (mapping : ExternalMapping) :
    (effect (.updateItem externalId change) db).linked mapping = (db.linked mapping).map fun held =>
        if mapping.externalId = externalId then { held with item := change held.item } else held := by
  unfold linked
  rw [item_updateItem]
  change join (db.columnsOf mapping.jobId) (db.jobs.findJob mapping.jobId)
    (db.getMapping mapping.jobId mapping.provider) _ = _
  cases db.jobs.findJob mapping.jobId with
  | none => rfl
  | some job =>
    cases db.getMapping mapping.jobId mapping.provider with
    | none => rfl
    | some row =>
      cases db.item mapping.externalId with
      | none => rfl
      | some item =>
        by_cases same : mapping.externalId = externalId
        · simp [join, same]
        · simp [join, same]

end SyncDb

/-! ## What a pass moves -/

structure ExternalMapping.MovesTo (now : Timestamp) (row moved : ExternalMapping) : Prop where
  jobId : moved.jobId = row.jobId
  provider : moved.provider = row.provider
  externalId : moved.externalId = row.externalId
  syncDirection : moved.syncDirection = row.syncDirection
  lastSyncedAt : moved.lastSyncedAt = row.lastSyncedAt ∨ moved.lastSyncedAt = some now

namespace ExternalMapping.MovesTo

variable {now : Timestamp} {row moved last : ExternalMapping}

theorem refl (now : Timestamp) (row : ExternalMapping) : row.MovesTo now row :=
  ⟨rfl, rfl, rfl, rfl, Or.inl rfl⟩

theorem trans (first : row.MovesTo now moved) (second : moved.MovesTo now last) : row.MovesTo now last where
  jobId := second.jobId.trans first.jobId
  provider := second.provider.trans first.provider
  externalId := second.externalId.trans first.externalId
  syncDirection := second.syncDirection.trans first.syncDirection
  lastSyncedAt := by
    cases second.lastSyncedAt with
    | inl same => rw [same]; exact first.lastSyncedAt
    | inr isNow => exact Or.inr isNow

theorem newerFirst (moves : row.MovesTo now moved) (past : ∀ time ∈ row.lastSyncedAt, time ≤ now) :
    ExternalMapping.newerFirst moved row = true := by
  unfold ExternalMapping.newerFirst
  cases before : row.lastSyncedAt with
  | none => split <;> first | rfl | contradiction
  | some time =>
    cases moves.lastSyncedAt with
    | inl same => simp [same, before]
    | inr isNow => simpa [isNow] using past time before

end ExternalMapping.MovesTo

/-- Mappings stay where they are, and are at most marked as synced. -/
structure Advanced {Item : Type} (before after : SyncDb Item) : Prop where
  now : after.jobs.now = before.jobs.now
  mappings : ∃ move : ExternalMapping → ExternalMapping, after.mappings = before.mappings.map move ∧
    ∀ row : ExternalMapping, row.MovesTo before.jobs.now (move row)

/-- What the constraints of the mappings and the ways they are written promise. -/
structure Wellformed {Item : Type} (db : SyncDb Item) : Prop where
  itemsOnce : (db.mappings.map fun row => (row.provider, row.externalId)).Nodup
  jobsOnce : (db.mappings.map fun row => (row.provider, row.jobId)).Nodup
  past : ∀ row ∈ db.mappings, ∀ time ∈ row.lastSyncedAt, time ≤ db.jobs.now

section

variable {Item : Type} {first second third : SyncDb Item}

theorem Advanced.of_same (now : second.jobs.now = first.jobs.now)
    (mappings : second.mappings = first.mappings) : Advanced first second :=
  ⟨now, id, by rw [mappings, map_id], ExternalMapping.MovesTo.refl _⟩

theorem Advanced.refl (db : SyncDb Item) : Advanced db db := .of_same rfl rfl

theorem Advanced.trans (one : Advanced first second) (two : Advanced second third) : Advanced first third := by
  obtain ⟨move, moved, moves⟩ := one.mappings
  obtain ⟨again, movedAgain, movesAgain⟩ := two.mappings
  constructor
  · exact two.now.trans one.now
  · refine ⟨again ∘ move, ?_, fun row => (moves row).trans ?_⟩
    · rw [movedAgain, moved, map_map]
    · rw [← one.now]
      exact movesAgain (move row)

theorem Advanced.foldl {β : Type} {body : SyncDb Item → β → SyncDb Item}
    (advances : ∀ db entry, Advanced db (body db entry)) (entries : List β) (db : SyncDb Item) :
    Advanced db (entries.foldl body db) := by
  induction entries generalizing db with
  | nil => exact .refl db
  | cons entry rest ih => exact (advances db entry).trans (ih _)

theorem advanced_updateWhere (selected : ExternalMapping → Bool) (db : SyncDb Item)
    (moves : ∀ row : ExternalMapping, row.MovesTo db.jobs.now (change row)) :
    Advanced db { db with mappings := Table.updateWhere selected change db.mappings } := by
  refine ⟨rfl, _, rfl, fun row => ?_⟩
  split
  · exact moves row
  · exact .refl _ row

theorem Wellformed.advanced (wellformed : Wellformed first) (advances : Advanced first second) : Wellformed second := by
  obtain ⟨move, moved, moves⟩ := advances.mappings
  constructor
  · have same : ((fun row : ExternalMapping => (row.provider, row.externalId)) ∘ move) =
        fun row => (row.provider, row.externalId) := by
      funext row
      exact Prod.ext (moves row).provider (moves row).externalId
    rw [moved, map_map, same]
    exact wellformed.itemsOnce
  · have same : ((fun row : ExternalMapping => (row.provider, row.jobId)) ∘ move) =
        fun row => (row.provider, row.jobId) := by
      funext row
      exact Prod.ext (moves row).provider (moves row).jobId
    rw [moved, map_map, same]
    exact wellformed.jobsOnce
  · intro row isRow time isTime
    rw [moved] at isRow
    obtain ⟨old, isOld, becomes⟩ := mem_map.mp isRow
    subst becomes
    rw [advances.now]
    cases (moves old).lastSyncedAt with
    | inl same => exact wellformed.past old isOld time (same ▸ isTime)
    | inr isNow =>
      rw [isNow, Option.mem_some_iff] at isTime
      exact Nat.le_of_eq isTime.symm

end

namespace SyncEngine

variable {Item ItemParams : Type} (engine : SyncEngine Item ItemParams)

/-! ## The pass over one mapping -/

def marked (now : Timestamp) (contentHash : Option String) (row : ExternalMapping) : ExternalMapping :=
  { row with
    lastSyncedAt := some now
    contentHash := contentHash <|> row.contentHash
    syncError := none }

def pulled (options : SyncOptions) (now : Timestamp) (item : Item) (held : Linked Item) : Linked Item :=
  let params := engine.toJobUpdateParams item
  if (options.force || !noDrift (some held.mapping) params) && !options.dryRun then
    let written :=
      if params.isEmpty then held
      else { held with job := params.row now held.job, columns := params.columns held.columns }
    { written with mapping := marked now params.contentHash held.mapping }
  else held

def pushed (now : Timestamp) (job : Job) (columns : JobColumns) (held : Linked Item) : Linked Item :=
  { held with
    item := engine.updated (engine.fromJobParams job columns) held.item
    mapping := marked now none held.mapping }

def synced (options : SyncOptions) (now : Timestamp) (held : Linked Item) : Linked Item :=
  engine.pushed now held.job held.columns (engine.pulled options now held.item held)

variable (jobId : JobId)

theorem updated?_now (params : JobUpdateParams) (db : SyncDb Item) :
    (updated? jobId params db).jobs.now = db.jobs.now := by
  unfold updated?
  split
  · rfl
  · simp only [effect]
    split <;> rfl

theorem updated?_linked (params : JobUpdateParams) (db : SyncDb Item) (wanted : ExternalMapping) :
    (updated? jobId params db).linked wanted = (db.linked wanted).map fun held =>
      if wanted.jobId = jobId ∧ params.isEmpty = false then
        { held with job := params.row db.jobs.now held.job, columns := params.columns held.columns }
      else held := by
  unfold updated?
  cases empty : params.isEmpty with
  | true => simp
  | false => simp [SyncDb.linked_updateJob]

theorem logged_linked (jobId action : String) (context : List (String × Option String))
    (db : SyncDb Item) (wanted : ExternalMapping) : (logged jobId action context db).linked wanted = db.linked wanted :=
  rfl

variable {wanted : ExternalMapping}

theorem markSynced_linked (contentHash : Option String) (db : SyncDb Item) (ours : wanted.provider = engine.name) :
    (effect (.markSynced jobId engine.name contentHash) db).linked wanted =
      (db.linked wanted).map fun held =>
        if wanted.jobId = jobId then
          { held with mapping := marked db.jobs.now contentHash held.mapping }
        else held := by
  have changes := SyncDb.linked_mark jobId engine.name wanted (marked db.jobs.now contentHash) (fun _ => ⟨rfl, rfl⟩) db
  simp only [ours, and_true] at changes
  exact changes

variable {db : SyncDb Item} {held : Linked Item}

theorem getMapping_of_linked (holds : db.linked wanted = some held) :
    db.getMapping wanted.jobId wanted.provider = some held.mapping := by
  unfold SyncDb.linked join at holds
  split at holds
  · next found _ => cases holds; exact found
  · cases holds

variable {options : SyncOptions}

theorem afterPull_linked {jobId : JobId} {externalId : String} {item : Item} (ours : wanted.provider = engine.name) :
    (engine.afterPull jobId externalId item options db).linked wanted = (db.linked wanted).map fun held =>
        if wanted.jobId = jobId then engine.pulled options db.jobs.now item held else held := by
  unfold afterPull pulls
  dsimp only
  by_cases same : wanted.jobId = jobId
  · cases holds : db.linked wanted with
    | none =>
      split
      · rw [logged_linked, engine.markSynced_linked jobId _ _ ours, updated?_linked, holds]
        rfl
      · exact holds
    | some held =>
      have mapped := getMapping_of_linked holds
      rw [same, ours] at mapped
      rw [mapped, Option.map_some, if_pos same]
      unfold pulled
      dsimp only
      split
      · rw [logged_linked, engine.markSynced_linked jobId _ _ ours, updated?_linked, holds, updated?_now]
        cases empty : (engine.toJobUpdateParams item).isEmpty with
        | true | false => simp [same]
      · exact holds
  · have unchanged : ((db.linked wanted).map fun held =>
        if wanted.jobId = jobId then engine.pulled options db.jobs.now item held else held) = db.linked wanted := by
      simp [same]
    rw [unchanged]
    split
    · rw [logged_linked, engine.markSynced_linked jobId _ _ ours, updated?_linked]
      simp [same]
    · rfl

variable {mapping : ExternalMapping}

theorem afterPush_linked {job : Job} {columns : JobColumns} (ours : wanted.provider = engine.name)
    (apart : wanted.jobId = mapping.jobId ↔ wanted.externalId = mapping.externalId) :
    (engine.afterPush mapping job columns db).linked wanted = (db.linked wanted).map fun held =>
        if wanted.jobId = mapping.jobId then engine.pushed db.jobs.now job columns held else held := by
  unfold afterPush
  rw [engine.markSynced_linked _ _ _ ours, SyncDb.linked_updateItem, Option.map_map]
  congr 1
  funext held
  by_cases same : wanted.jobId = mapping.jobId
  · simp [same, apart.mp same, pushed]
    rfl
  · have other : wanted.externalId ≠ mapping.externalId := fun equal => same (apart.mpr equal)
    simp [same, other]

theorem advanced_markSynced (contentHash : Option String) (db : SyncDb Item) :
    Advanced db (effect (.markSynced jobId engine.name contentHash) db) :=
  advanced_updateWhere _ db fun _ => ⟨rfl, rfl, rfl, rfl, Or.inr rfl⟩

theorem advanced_afterPull (externalId : String) (item : Item) (options : SyncOptions) (db : SyncDb Item) :
    Advanced db (engine.afterPull jobId externalId item options db) := by
  have updates : ∀ params : JobUpdateParams, Advanced db (updated? jobId params db) := by
    intro params
    apply Advanced.of_same (updated?_now jobId params db)
    unfold updated?
    split
    · rfl
    · simp only [effect]
      split <;> rfl
  unfold afterPull
  dsimp only
  split
  · have marks := (updates (engine.toJobUpdateParams item)).trans
      (engine.advanced_markSynced jobId (engine.toJobUpdateParams item).contentHash _)
    exact marks.trans (.of_same rfl rfl)
  · exact .refl db

theorem advanced_afterPush (mapping : ExternalMapping) (job : Job) (columns : JobColumns)
    (db : SyncDb Item) : Advanced db (engine.afterPush mapping job columns db) := by
  have updates : Advanced db (effect (.updateItem mapping.externalId
      (engine.updated (engine.fromJobParams job columns))) db) := .of_same rfl rfl
  exact updates.trans (engine.advanced_markSynced mapping.jobId none _)

theorem advanced_afterMapping (projectId : String) (options : SyncOptions)
    (mapping : ExternalMapping) (db : SyncDb Item) :
    Advanced db (engine.afterMapping projectId options mapping db) := by
  unfold afterMapping
  split
  · exact .refl db
  · split
    · exact advanced_updateWhere _ db fun _ => ⟨rfl, rfl, rfl, rfl, Or.inl rfl⟩
    · next item _ =>
        have pulls : Advanced db (if inward mapping then
            engine.afterPull mapping.jobId mapping.externalId item options db else db) := by
          split
          · exact engine.advanced_afterPull _ _ _ _ _
          · exact .refl db
        dsimp only
        split
        · exact pulls.trans (engine.advanced_afterPush _ _ _ _)
        · exact pulls

theorem afterMapping_linked_apart (projectId : String) (options : SyncOptions) (db : SyncDb Item)
    (ours : wanted.provider = engine.name) (otherJob : wanted.jobId ≠ mapping.jobId)
    (otherItem : wanted.externalId ≠ mapping.externalId) :
    (engine.afterMapping projectId options mapping db).linked wanted = db.linked wanted := by
  have keeps : ∀ {found : Option (Linked Item)} (change : Linked Item → Linked Item),
      (found.map fun held => if wanted.jobId = mapping.jobId then change held else held) = found := by
    intro found change
    simp [otherJob]
  unfold afterMapping
  split
  · rfl
  · split
    · have marks := SyncDb.linked_mark mapping.jobId engine.name wanted
        (fun row => { row with syncError := some "External item not found" }) (fun _ => ⟨rfl, rfl⟩) db
      simp only [otherJob, false_and, if_false, Option.map_id'] at marks
      exact marks
    · next item _ =>
        have pulls : (if inward mapping then
            engine.afterPull mapping.jobId mapping.externalId item options db else db).linked wanted =
              db.linked wanted := by
          split
          · rw [engine.afterPull_linked ours, keeps]
          · rfl
        dsimp only
        split
        · rw [engine.afterPush_linked ours (iff_of_false otherJob otherItem), keeps]
          exact pulls
        · exact pulls

variable {projectId : String}

theorem afterMapping_linked (holds : db.linked mapping = some held)
    (ours : mapping.provider = engine.name) (both : mapping.syncDirection = .bidirectional)
    (ourProject : held.job.projectId = projectId) (writes : options.dryRun = false) :
    (engine.afterMapping projectId options mapping db).linked mapping =
      some (engine.synced options db.jobs.now held) := by
  have parts : db.jobs.findJob mapping.jobId = some held.job ∧
      db.columnsOf mapping.jobId = held.columns ∧ db.item mapping.externalId = some held.item := by
    unfold SyncDb.linked join at holds
    split at holds
    · next isJob _ isItem => cases holds; exact ⟨isJob, rfl, isItem⟩
    · cases holds
  have isInward : inward mapping := Or.inr both
  have isOutward : outward mapping ∧ options.dryRun = false := ⟨Or.inr both, writes⟩
  unfold afterMapping
  rw [parts.1, Option.filter_some_pos (by simpa using ourProject), parts.2.2]
  dsimp only
  rw [if_pos isInward, if_pos isOutward, engine.afterPush_linked ours (iff_of_true rfl rfl),
    engine.afterPull_linked ours, holds, parts.2.1, (engine.advanced_afterPull _ _ _ _ _).now]
  simp [synced]

/-! ## The pass over a page -/

theorem foldl_linked_apart (projectId : String) (options : SyncOptions)
    (ours : wanted.provider = engine.name) (page : List ExternalMapping) (db : SyncDb Item) (apart : ∀ mapping ∈ page,
      wanted.jobId ≠ mapping.jobId ∧ wanted.externalId ≠ mapping.externalId) :
    (page.foldl (fun reached mapping => engine.afterMapping projectId options mapping reached)
      db).linked wanted = db.linked wanted := by
  induction page generalizing db with
  | nil => rfl
  | cons mapping rest ih =>
    have first := apart mapping mem_cons_self
    rw [foldl_cons, ih _ fun later isLater => apart later (mem_cons_of_mem _ isLater)]
    exact engine.afterMapping_linked_apart projectId options db ours first.1 first.2

theorem mem_of_listed {limit : Option Nat} {row : ExternalMapping}
    (listed : row ∈ db.listMappingsForProvider engine.name limit) : row ∈ db.mappings ∧ row.provider = engine.name := by
  have sorted := (mem_insertionSort _).mp (mem_of_mem_take listed)
  have filtered := mem_filter.mp sorted
  exact ⟨filtered.1, by simpa using filtered.2⟩

theorem listed_once (wellformed : Wellformed db) (limit : Option Nat) :
    (db.listMappingsForProvider engine.name limit).Nodup := by
  have once : (db.mappings.filter (·.provider == engine.name)).Nodup :=
    (List.Nodup.of_map _ wellformed.jobsOnce).filter _
  exact ((perm_insertionSort _ _).nodup_iff.mpr once).sublist (take_sublist _ _)

theorem apart_of_ne (wellformed : Wellformed db) {row other : ExternalMapping}
    (isRow : row ∈ db.mappings) (isOther : other ∈ db.mappings)
    (sameProvider : row.provider = other.provider) (differ : row ≠ other) :
    row.jobId ≠ other.jobId ∧ row.externalId ≠ other.externalId := by
  constructor
  · intro same
    exact differ (inj_on_of_nodup_map wellformed.jobsOnce isRow isOther (Prod.ext sameProvider same))
  · intro same
    exact differ (inj_on_of_nodup_map wellformed.itemsOnce isRow isOther (Prod.ext sameProvider same))

theorem mem_of_linked (holds : db.linked wanted = some held) : held.mapping ∈ db.mappings :=
  mem_of_find?_eq_some (getMapping_of_linked holds)

theorem advanced_afterPass (projectId : String) (options : SyncOptions) (db : SyncDb Item) :
    Advanced db (engine.afterPass projectId options db) :=
  Advanced.foldl (fun db mapping => engine.advanced_afterMapping projectId options mapping db) _ db

theorem afterPass_linked (wellformed : Wellformed db) (holds : db.linked held.mapping = some held)
    (ours : held.mapping.provider = engine.name) (both : held.mapping.syncDirection = .bidirectional)
    (ourProject : held.job.projectId = projectId) (writes : options.dryRun = false) :
    (engine.afterPass projectId options db).linked held.mapping =
      some (if held.mapping ∈ db.listMappingsForProvider engine.name options.limit then
        engine.synced options db.jobs.now held else held) := by
  have isRow := mem_of_linked holds
  have apart : ∀ mapping ∈ db.listMappingsForProvider engine.name options.limit, held.mapping ≠ mapping →
        held.mapping.jobId ≠ mapping.jobId ∧ held.mapping.externalId ≠ mapping.externalId := by
    intro mapping listed differ
    obtain ⟨isOther, theirs⟩ := engine.mem_of_listed listed
    exact apart_of_ne wellformed isRow isOther (ours.trans theirs.symm) differ
  unfold afterPass
  by_cases listed : held.mapping ∈ db.listMappingsForProvider engine.name options.limit
  · have once := engine.listed_once wellformed options.limit
    obtain ⟨earlier, later, parts⟩ := append_of_mem listed
    rw [parts] at apart once
    rw [if_pos listed, parts, foldl_append, foldl_cons]
    rw [nodup_append, nodup_cons] at once
    have earlierApart : ∀ mapping ∈ earlier,
        held.mapping.jobId ≠ mapping.jobId ∧ held.mapping.externalId ≠ mapping.externalId := by
      intro mapping isEarlier
      refine apart mapping (mem_append_left _ isEarlier) fun same => ?_
      exact once.2.2 mapping isEarlier held.mapping mem_cons_self same.symm
    have laterApart : ∀ mapping ∈ later,
        held.mapping.jobId ≠ mapping.jobId ∧ held.mapping.externalId ≠ mapping.externalId := by
      intro mapping isLater
      refine apart mapping (mem_append_right _ (mem_cons_of_mem _ isLater)) fun same => ?_
      exact once.2.1.1 (same ▸ isLater)
    have reached := engine.foldl_linked_apart projectId options ours earlier db earlierApart
    have now := (Advanced.foldl (fun db mapping =>
      engine.advanced_afterMapping projectId options mapping db) earlier db).now
    rw [engine.foldl_linked_apart projectId options ours later _ laterApart,
      engine.afterMapping_linked (reached.trans holds) ours both ourProject writes, now]
  · rw [if_neg listed, engine.foldl_linked_apart projectId options ours _ db]
    · exact holds
    · intro mapping isListed
      exact apart mapping isListed fun same => listed (same ▸ isListed)

instance : Std.Total fun left right : ExternalMapping => left.newerFirst right = true where
  total left right := by
    unfold ExternalMapping.newerFirst
    cases left.lastSyncedAt with
    | none => cases right.lastSyncedAt <;> simp
    | some leftTime =>
      cases right.lastSyncedAt with
      | none => simp
      | some rightTime => simpa using Nat.le_total rightTime leftTime

instance : IsTrans ExternalMapping fun left right => left.newerFirst right = true where
  trans left middle right first second := by
    unfold ExternalMapping.newerFirst at *
    cases isLeft : left.lastSyncedAt <;> cases isMiddle : middle.lastSyncedAt <;>
      cases isRight : right.lastSyncedAt <;> simp_all
    exact Nat.le_trans second first

theorem unlisted_afterPass (wellformed : Wellformed db) (isRow : held.mapping ∈ db.mappings)
    (still : held.mapping ∈ (engine.afterPass projectId options db).mappings)
    (unlisted : held.mapping ∉ db.listMappingsForProvider engine.name options.limit) :
    held.mapping ∉ (engine.afterPass projectId options db).listMappingsForProvider engine.name options.limit := by
  have advances := engine.advanced_afterPass projectId options db
  have again := wellformed.advanced advances
  obtain ⟨move, moved, moves⟩ := advances.mappings
  have sameProvider : (fun row : ExternalMapping => row.provider == engine.name) ∘ move =
      fun row => row.provider == engine.name := by
    funext row
    exact congrArg (· == engine.name) (moves row).provider
  intro listed
  have ours := (engine.mem_of_listed listed).2
  have filtered : (engine.afterPass projectId options db).mappings.filter
      (·.provider == engine.name) = (db.mappings.filter (·.provider == engine.name)).map move := by
    rw [moved, filter_map, sameProvider]
  have kept : move held.mapping = held.mapping := by
    have isMoved : move held.mapping ∈ (engine.afterPass projectId options db).mappings := moved ▸ mem_map_of_mem isRow
    exact inj_on_of_nodup_map again.jobsOnce isMoved still (Prod.ext (moves _).provider (moves _).jobId)
  refine Paging.not_mem_page_of_forward
    (fun left right : ExternalMapping => left.newerFirst right = true) ?_ ?_ kept ?_ unlisted ?_
  · rw [← filtered]
    exact (List.Nodup.of_map _ again.jobsOnce).filter _
  · exact mem_filter.mpr ⟨isRow, by simpa using ours⟩
  · intro other onPage
    have isOther := (mem_insertionSort _).mp (mem_of_mem_take onPage)
    exact (moves other).newerFirst fun time isTime =>
      wellformed.past other (mem_filter.mp isOther).1 time isTime
  · unfold SyncDb.listMappingsForProvider at listed
    rw [filtered] at listed
    exact listed

end SyncEngine

end EveHorizon.Sync
