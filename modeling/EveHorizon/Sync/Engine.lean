import EveHorizon.Loop.Claiming

/-!
# External sync

The engine that keeps jobs and the items of an external system alike: it pulls items into jobs,
pushes jobs without an item, and goes through the jobs that have one. The external system and
what its provider makes of items and jobs are parameters.
-/

namespace EveHorizon.Sync

open Interleaving
open Jobs (JobId Timestamp Phase Job JobsDb AuditEntry)
open Loop (OrchestratorDb OrchestratorStatement)
open Workflows (RootIds)

structure JobColumns where
  description : Option String := none
  issueType : String := "task"
  contentHash : Option String := none

structure JobCreateParams where
  title : String
  description : Option String := none
  phase : Phase
  priority : Nat
  issueType : Option String := none
  labels : Option (List String) := none
  assignee : Option String := none
  parentId : Option JobId := none
  contentHash : Option String := none

structure JobUpdateParams where
  title : Option String := none
  description : Option String := none
  phase : Option Phase := none
  priority : Option Nat := none
  issueType : Option String := none
  labels : Option (List String) := none
  assignee : Option String := none
  contentHash : Option String := none
  deriving DecidableEq

inductive SyncDirection where
  | inbound | outbound | bidirectional
  deriving DecidableEq

structure ExternalMapping where
  jobId : JobId
  provider : String
  externalId : String
  lastSyncedAt : Option Timestamp := none
  syncDirection : SyncDirection := .bidirectional
  contentHash : Option String := none
  syncError : Option String := none
  deriving DecidableEq

def ExternalMapping.newerFirst (left right : ExternalMapping) : Bool :=
  match left.lastSyncedAt, right.lastSyncedAt with
  | _, none => true
  | none, some _ => false
  | some left, some right => right ≤ left

/-- The database together with the items on the provider's side. -/
structure SyncDb (Item : Type) where
  base : OrchestratorDb := {}
  columns : List (JobId × JobColumns) := []
  mappings : List ExternalMapping := []
  items : List (String × Item) := []

namespace SyncDb

variable {Item : Type} (db : SyncDb Item)

def jobs : JobsDb := db.base.jobs

def columnsOf (jobId : JobId) : JobColumns := (db.columns.lookup jobId).getD {}

def item (externalId : String) : Option Item := db.items.lookup externalId

def getMapping (jobId : JobId) (provider : String) : Option ExternalMapping :=
  db.mappings.find? fun row => row.jobId == jobId && row.provider == provider

def findJobByExternalId (provider externalId : String) : Option JobId :=
  (db.mappings.find? fun row => row.provider == provider && row.externalId == externalId).map
    ExternalMapping.jobId

def listMappingsForProvider (provider : String) (limit : Option Nat) : List ExternalMapping :=
  ((db.mappings.filter (·.provider == provider)).insertionSort fun left right =>
    ExternalMapping.newerFirst left right).take (limit.getD 100)

def listUnmappedJobs (projectId provider : String) (limit : Option Nat) : List JobId :=
  (((db.jobs.jobs.filter fun row => row.projectId == projectId &&
      (db.getMapping row.id provider).isNone).insertionSort fun left right =>
    left.createdAt ≤ right.createdAt).take (limit.getD 100)).map Job.id

end SyncDb

inductive SyncStatement (Item : Type) where
  | base (stmt : OrchestratorStatement)
  -- A `SELECT`, or a request that only reads.
  | select
  | updateJob (jobId : JobId) (params : JobUpdateParams)
  | writeColumns (jobId : JobId) (columns : JobColumns)
  | upsertMapping (mapping : ExternalMapping)
  | markSynced (jobId : JobId) (provider : String) (contentHash : Option String)
  | recordSyncError (jobId : JobId) (provider error : String)
  | createItem (externalId : String) (item : Item)
  | updateItem (externalId : String) (change : Item → Item)

variable (params : JobUpdateParams)

def JobUpdateParams.row (now : Timestamp) (row : Job) : Job :=
  { row with
    title := params.title.getD row.title
    phase := params.phase.getD row.phase
    priority := params.priority.getD row.priority
    labels := params.labels.getD row.labels
    assignee := params.assignee
    updatedAt := now }

def JobUpdateParams.columns (columns : JobColumns) : JobColumns where
  description := params.description <|> columns.description
  issueType := params.issueType.getD columns.issueType
  contentHash := params.contentHash <|> columns.contentHash

def setColumns (jobId : JobId) (columns : JobColumns) (rows : List (JobId × JobColumns)) :
    List (JobId × JobColumns) :=
  (jobId, columns) :: rows.filter (·.1 != jobId)

def isMapping (jobId : JobId) (provider : String) (row : ExternalMapping) : Bool :=
  row.jobId == jobId && row.provider == provider

def isItemOf (provider externalId : String) (row : ExternalMapping) : Bool :=
  row.provider == provider && row.externalId == externalId

def JobUpdateParams.isEmpty : Bool := params == {}

def SyncStatement.effect {Item : Type} : SyncStatement Item → SyncDb Item → SyncDb Item
  | .base stmt, db => { db with base := stmt.effect db.base }
  | .select, db => db
  | .updateJob jobId params, db =>
    if (db.jobs.findJob jobId).isNone then db
    else
      { db with
        base := db.base.withJobs { db.jobs with
          jobs := Table.updateWhere (·.id == jobId) (params.row db.jobs.now) db.jobs.jobs }
        columns := setColumns jobId (params.columns (db.columnsOf jobId)) db.columns }
  | .writeColumns jobId columns, db => { db with columns := setColumns jobId columns db.columns }
  | .upsertMapping mapping, db =>
    let synced := { mapping with lastSyncedAt := some db.jobs.now }
    if db.mappings.any (isItemOf mapping.provider mapping.externalId) then
      { db with
        mappings := Table.updateWhere (isItemOf mapping.provider mapping.externalId)
          (fun _ => synced) db.mappings }
    else { db with mappings := db.mappings ++ [synced] }
  | .markSynced jobId provider contentHash, db =>
    { db with
      mappings := Table.updateWhere (isMapping jobId provider) (fun row => { row with
        lastSyncedAt := some db.jobs.now
        contentHash := contentHash <|> row.contentHash
        syncError := none }) db.mappings }
  | .recordSyncError jobId provider error, db =>
    { db with
      mappings := Table.updateWhere (isMapping jobId provider) (fun row => { row with
        syncError := some error }) db.mappings }
  | .createItem externalId item, db => { db with items := (externalId, item) :: db.items }
  | .updateItem externalId change, db =>
    { db with
      items := db.items.map fun entry =>
        if entry.1 == externalId then (entry.1, change entry.2) else entry }

def SyncStatement.ready {Item : Type} : SyncStatement Item → SyncDb Item → Bool
  | .base stmt, db => stmt.ready db.base
  | _, _ => true

instance (Item : Type) : Statement (SyncStatement Item) (SyncDb Item) where
  ready := SyncStatement.ready
  effect := SyncStatement.effect

abbrev SyncCall (Item : Type) := Call (SyncStatement Item) (SyncDb Item) String

section

variable {Item : Type}

def select {α : Type} (query : SyncDb Item → α) : SyncCall Item α := .perform .select query

def run (stmt : SyncStatement Item) : SyncCall Item Unit := .perform stmt fun _ => ()

def orchestrating {α : Type} (call : Loop.OrchestratorCall α) : SyncCall Item α := call.lift .base SyncDb.base

def failureText : Workflows.Failure → String
  | .badRequest message | .forbidden message | .notFound message | .timeout message
  | .error message => message

def creating {α : Type} (call : Workflows.WorkflowCall α) : SyncCall Item α :=
  (call.mapError failureText).lift (fun stmt => .base (.workflow stmt)) SyncDb.jobs

end

structure SyncOptions where
  since : Option Timestamp := none
  limit : Option Nat := none
  dryRun : Bool := false
  force : Bool := false

/-- What the engine asks of a provider: its items, and how jobs and items are made into one
another. -/
structure SyncProvider (Item ItemParams : Type) where
  name : String
  fetchItems : SyncOptions → List (String × Item) → List (String × Item)
  toJobParams : Item → JobCreateParams
  toJobUpdateParams : Item → JobUpdateParams
  fromJobParams : Job → JobColumns → ItemParams
  -- The item that `updateItem` leaves, and the one that `createItem` makes, under which id.
  updated : ItemParams → Item → Item
  created : ItemParams → Item
  newItemId : List (String × Item) → ItemParams → String
  computeHash : String → Job → JobColumns → ItemParams → Option String

structure SyncEngine (Item ItemParams : Type) extends SyncProvider Item ItemParams where
  projects : List Workflows.Project
  rootIds : RootIds
  json : JobUpdateParams → String

inductive OperationType where
  | create | update | skip

structure SyncOperation where
  type : OperationType
  direction : SyncDirection
  jobId : Option JobId
  externalId : String
  skipReason : Option String := none

structure SyncResult where
  processed : Nat := 0
  created : Nat := 0
  updated : Nat := 0
  skipped : Nat := 0
  errors : List (String × String × String) := []
  operations : List SyncOperation := []

namespace SyncEngine

variable {Item ItemParams : Type} (engine : SyncEngine Item ItemParams)

def auditLog (jobId action : String) (context : List (String × Option String)) : SyncCall Item Unit :=
  run (.base (.recovery (.live (.jobs (.insertAudit {
    entityType := "job", entityId := jobId, action, actor := "sync", actorType := "sync"
    changes := [], context })))))

def source (externalId : String) : List (String × Option String) :=
  [("source", some "external_sync"), ("provider", some engine.name), ("external_id", some externalId)]

def updateJob (jobId : JobId) (params : JobUpdateParams) : SyncCall Item Unit :=
  if params.isEmpty then return ()
  else run (.updateJob jobId params)

def noDrift (mapping : Option ExternalMapping) (params : JobUpdateParams) : Bool :=
  match mapping.bind ExternalMapping.contentHash, params.contentHash with
  | some stored, some current => stored != "" && stored == current
  | _, _ => false

variable (jobId : JobId)

/-- Writes the item into its job, unless the content hash tells that it has not changed. -/
def handlePullUpdate (externalId : String) (item : Item) (options : SyncOptions) :
    SyncCall Item SyncOperation := do
  let mapping ← select (SyncDb.getMapping · jobId engine.name)
  let updateParams := engine.toJobUpdateParams item
  let done : SyncOperation := {
    type := .update, direction := .inbound, jobId := some jobId, externalId }
  if options.force = false ∧ noDrift mapping updateParams = true then
    return { done with type := .skip, skipReason := some "no_drift" }
  else if options.dryRun then
    return done
  else
    updateJob jobId updateParams
    run (.markSynced jobId engine.name updateParams.contentHash)
    auditLog jobId "updated"
      (engine.source externalId ++ [("changes", some (engine.json updateParams))])
    return done

def countDepth : Nat := Workflows.hierarchyDepth jobId

variable (projectId : String)

def generateJobId (parentId : Option JobId) : Workflows.WorkflowCall JobId :=
  match parentId with
  | some parentId => Workflows.generateChildJobId engine.projects projectId parentId
  | none => Workflows.generateRootJobId engine.projects engine.rootIds projectId

def pulledJob (projectId : String) (jobId : JobId) (params : JobCreateParams) : Job where
  id := jobId
  projectId
  parentId := params.parentId
  depth := (params.parentId.map countDepth).getD 0
  title := params.title
  labels := params.labels.getD []
  phase := params.phase
  priority := params.priority
  assignee := params.assignee
  executionType := some "agent"
  actorUserId := some "sync"

def handlePullCreate (externalId : String) (item : Item) : SyncCall Item SyncOperation := do
  let jobParams := engine.toJobParams item
  let jobId ← creating (engine.generateJobId projectId jobParams.parentId)
  let job ← creating (Workflows.create (pulledJob projectId jobId jobParams))
  run (.writeColumns job.id {
    description := jobParams.description
    issueType := jobParams.issueType.getD "task"
    contentHash := jobParams.contentHash })
  run (.upsertMapping {
    jobId := job.id, provider := engine.name, externalId, syncDirection := .inbound
    contentHash := jobParams.contentHash })
  auditLog job.id "created" (engine.source externalId)
  return { type := .create, direction := .inbound, jobId := some job.id, externalId }

def SyncResult.counting (result : SyncResult) (operation : SyncOperation) : SyncResult :=
  let result := { result with operations := result.operations ++ [operation] }
  match operation.type with
  | .create => { result with created := result.created + 1 }
  | .update => { result with updated := result.updated + 1 }
  | .skip => { result with skipped := result.skipped + 1 }

variable (options : SyncOptions)

def pullItem (entry : String × Item) (result : SyncResult) : SyncCall Item SyncResult := do
  let existingJobId ← select (SyncDb.findJobByExternalId · engine.name entry.1)
  match existingJobId with
  | some jobId =>
    let operation ← engine.handlePullUpdate jobId entry.1 entry.2 options
    return SyncResult.counting result operation
  | none =>
    if options.dryRun then
      return SyncResult.counting result {
        type := .create, direction := .inbound, jobId := none, externalId := entry.1 }
    else
      let operation ← engine.handlePullCreate projectId entry.1 entry.2
      return SyncResult.counting result operation

def collect {β : Type} (operation : String) (idOf : β → String)
    (body : β → SyncResult → SyncCall Item SyncResult) :
    List β → SyncResult → SyncCall Item SyncResult
  | [], result => return result
  | entry :: rest, result => do
    let started := { result with processed := result.processed + 1 }
    let next ← (body entry started).handle fun message =>
      .ret { started with errors := started.errors ++ [(idOf entry, message, operation)] }
    collect operation idOf body rest next

def pullFromExternal : SyncCall Item SyncResult := do
  let items ← select fun db => engine.fetchItems options db.items
  if (engine.projects.find? (·.id == projectId)).isNone then
    .raise ("Project not found: " ++ projectId)
  else
    collect "pull" Prod.fst (engine.pullItem projectId options) items {}

def pushJob (jobId : JobId) (result : SyncResult) : SyncCall Item SyncResult := do
  let found ← select fun db => (db.jobs.findJob jobId).map fun job => (job, db.columnsOf jobId)
  match found with
  | none =>
    return SyncResult.counting result {
      type := .skip, direction := .outbound, jobId := some jobId, externalId := ""
      skipReason := some "job_not_found" }
  | some (job, columns) =>
    if options.dryRun then
      return SyncResult.counting result {
        type := .create, direction := .outbound, jobId := some jobId, externalId := "(dry-run)" }
    else
      let itemParams := engine.fromJobParams job columns
      let externalId ← select fun db => engine.newItemId db.items itemParams
      run (.createItem externalId (engine.created itemParams))
      run (.upsertMapping {
        jobId, provider := engine.name, externalId, syncDirection := .outbound
        contentHash := engine.computeHash externalId job columns itemParams })
      auditLog jobId "updated"
        (engine.source externalId ++ [("direction", some "outbound")])
      return SyncResult.counting result {
        type := .create, direction := .outbound, jobId := some jobId, externalId }

def pushToExternal : SyncCall Item SyncResult := do
  let unmappedJobIds ← select (SyncDb.listUnmappedJobs · projectId engine.name options.limit)
  collect "push" id (engine.pushJob options) unmappedJobIds {}

variable (mapping : ExternalMapping)

def pullMapped (item : Item) (options : SyncOptions) (result : SyncResult) : SyncCall Item SyncResult := do
  if mapping.syncDirection = .inbound ∨ mapping.syncDirection = .bidirectional then
    let operation ← engine.handlePullUpdate mapping.jobId mapping.externalId item options
    return SyncResult.counting result operation
  else return result

def pushMapped (job : Job) (columns : JobColumns) (options : SyncOptions) : SyncCall Item Unit := do
  if mapping.syncDirection = .outbound ∨ mapping.syncDirection = .bidirectional then
    let itemParams := engine.fromJobParams job columns
    if options.dryRun then return ()
    else
      run (.updateItem mapping.externalId (engine.updated itemParams))
      run (.markSynced mapping.jobId engine.name none)
  else return ()

/-- The item goes into the job, and then the job, as it was read before, into the item. -/
def syncMapping (result : SyncResult) :
    SyncCall Item SyncResult := do
  let found ← select fun db =>
    (db.jobs.findJob mapping.jobId).map fun job => (job, db.columnsOf mapping.jobId)
  match found.filter fun entry => entry.1.projectId == projectId with
  | none => return { result with skipped := result.skipped + 1 }
  | some (job, columns) =>
    let externalItem ← select (SyncDb.item · mapping.externalId)
    match externalItem with
    | none =>
      run (.recordSyncError mapping.jobId engine.name "External item not found")
      return { result with
        errors := result.errors ++ [(mapping.externalId, "External item not found", "pull")] }
    | some item =>
      let result ← engine.pullMapped mapping item options result
      engine.pushMapped mapping job columns options
      return result

def syncMappedJobs : SyncCall Item SyncResult := do
  let mappings ← select (SyncDb.listMappingsForProvider · engine.name options.limit)
  collect "mapping" ExternalMapping.jobId (engine.syncMapping projectId options) mappings {}

def sync : SyncCall Item SyncResult := do
  let pullResult ← engine.pullFromExternal projectId options
  let pushResult ← engine.pushToExternal projectId options
  return {
    processed := pullResult.processed + pushResult.processed
    created := pullResult.created + pushResult.created
    updated := pullResult.updated + pushResult.updated
    skipped := pullResult.skipped + pushResult.skipped
    errors := pullResult.errors ++ pushResult.errors
    operations := pullResult.operations ++ pushResult.operations }

end SyncEngine

end EveHorizon.Sync
