import EveHorizon.Batches.Graph
import EveHorizon.Workflows.Creation

/-!
# Creating a batch

A batch is checked as a whole, recorded under its idempotency key, and then created job by
job in the order of its graph.
-/

namespace EveHorizon.Batches

open Interleaving List
open Jobs (JobId Timestamp Phase Job JobHints JobsDb)
open Workflows (Project WorkflowStatement WorkflowCall RootIds hierarchyDepth)

structure BatchValidationError where
  code : String
  nodeKey : Option String := none
  field : Option String := none
  message : String
  hint : Option String := none
  deriving DecidableEq

structure BatchValidateResponse where
  valid : Bool
  errors : List BatchValidationError

section

variable (request : CreateBatchRequest)

def keysHint : Option String := some ("Use one of: " ++ ", ".intercalate request.keys)

def duplicateErrors : List String → List String → List BatchValidationError
  | _, [] => []
  | seen, key :: rest =>
    (if seen.contains key then
      [{ code := "batch_node_duplicate"
         nodeKey := some key
         message := "Duplicate node key: " ++ key }]
    else []) ++ duplicateErrors (key :: seen) rest

def parentErrors (node : BatchNode) : List BatchValidationError :=
  match node.parentKey with
  | none => []
  | some parent =>
    if request.keys.contains parent then []
    else
      [{ code := "batch_node_unknown"
         nodeKey := some node.key
         field := some "parent"
         message := "Unknown parent key: " ++ parent
         hint := keysHint request }]

def dependencyErrors (dependency : BatchDependency) : List BatchValidationError :=
  (if request.keys.contains dependency.job then []
  else
    [{ code := "batch_node_unknown"
       field := some "dependencies"
       message := "Unknown job key: " ++ dependency.job }]) ++
  (dependency.dependsOn.filter fun key => !request.keys.contains key).map fun key =>
    { code := "batch_node_unknown"
      nodeKey := some dependency.job
      field := some "dependencies"
      message := "Unknown dependency key: " ++ key
      hint := keysHint request }

def referenceErrors : List BatchValidationError :=
  duplicateErrors [] request.keys ++ request.nodes.flatMap (parentErrors request) ++
    request.dependencies.flatMap (dependencyErrors request)

def cycleErrors : List BatchValidationError :=
  if hasCycle (batchGraph request) then
    [{ code := "batch_graph_cycle"
       message := "Dependency graph contains a cycle" }]
  else []

def parentOf (key : String) : Option String := (request.nodes.find? (·.key == key)).bind (·.parentKey)

def exceedsDepth : Nat → Option String → Bool
  | _, none => false
  | 0, some _ => true
  | depth + 1, some cursor => exceedsDepth depth (parentOf request cursor)

def depthErrors : List BatchValidationError :=
  (request.nodes.filter fun node => exceedsDepth request 3 node.parentKey).map fun node =>
    { code := "batch_depth_exceeded"
      nodeKey := some node.key
      message := "Node \"" ++ node.key ++ "\" exceeds max nesting depth of 3" }

/-- Cycles are looked for among known keys only, and depths in graphs without cycles. -/
def validateBatch : BatchValidateResponse :=
  let errors := referenceErrors request
  let errors := if errors.isEmpty then cycleErrors request else errors
  let errors := if errors.isEmpty then depthErrors request else errors
  { valid := errors.isEmpty
    errors := errors }

end

structure BatchRecord where
  id : String
  projectId : String
  idempotencyKey : Option String
  nodeCount : Nat
  createdBy : Option String

/-- The columns `batch_id` and `batch_key` of a job that has them. -/
structure BatchTag where
  jobId : JobId
  batchId : String
  batchKey : String
  deriving DecidableEq

structure BatchDb where
  jobs : JobsDb := {}
  batches : List BatchRecord := []
  tags : List BatchTag := []

inductive BatchStatement where
  | jobs (stmt : WorkflowStatement)
  | insertBatch (batch : BatchRecord)
  | tagJob (tag : BatchTag)

/-- `UNIQUE(project_id, idempotency_key)`, where nulls are distinct. -/
def sameSubmission (projectId : String) (idempotencyKey : Option String) (batch : BatchRecord) : Bool :=
  batch.projectId == projectId && idempotencyKey.isSome && batch.idempotencyKey == idempotencyKey

def BatchDb.submitted (db : BatchDb) (projectId : String) (idempotencyKey : Option String) : Option BatchRecord :=
  db.batches.find? (sameSubmission projectId idempotencyKey)

def BatchStatement.effect : BatchStatement → BatchDb → BatchDb
  | .jobs stmt, db => { db with jobs := stmt.effect db.jobs }
  | .insertBatch batch, db =>
    if (db.submitted batch.projectId batch.idempotencyKey).isSome then db
    else { db with batches := db.batches ++ [batch] }
  | .tagJob tag, db =>
    if (db.jobs.findJob tag.jobId).isSome then
      { db with tags := db.tags.filter (·.jobId != tag.jobId) ++ [tag] }
    else db

instance : Statement BatchStatement BatchDb where
  ready _ _ := true
  effect := BatchStatement.effect

inductive BatchFailure where
  | validationFailed (errors : List BatchValidationError)
  | failure (failure : Workflows.Failure)
  deriving DecidableEq

abbrev BatchCall := Call BatchStatement BatchDb BatchFailure

def onWorkflow {α : Type} (call : WorkflowCall α) : BatchCall α :=
  (call.lift .jobs BatchDb.jobs).mapError .failure

def select {α : Type} (query : BatchDb → α) : BatchCall α := .perform (.jobs (.jobs .select)) query

def insertBatch (batch : BatchRecord) : BatchCall Unit :=
  .stmt (.insertBatch batch) fun db =>
    if (db.submitted batch.projectId batch.idempotencyKey).isSome then
      .raise (.failure (.error ("duplicate key value violates unique constraint " ++
        "\"batch_jobs_project_id_idempotency_key_key\"")))
    else .ret ()

structure BatchJobResult where
  jobId : JobId
  phase : Phase
  blockedBy : Option (List String) := none
  deriving DecidableEq

structure CreateBatchResponse where
  batchId : String
  idempotencyKey : Option String
  jobs : List (String × BatchJobResult)
  deriving DecidableEq

def blockedByEntry (blockedBy : List String) : Option (List String) :=
  if blockedBy.isEmpty then none else some blockedBy

section

variable (projects : List Project) (rootIds : RootIds) (newBatchId : BatchDb → String)
  (request : CreateBatchRequest)

def dependenciesOf (key : String) : List BatchDependency := request.dependencies.filter (·.job == key)

def initialPhase (key : String) : Phase :=
  if (dependenciesOf request key).any fun dependency => !dependency.dependsOn.isEmpty then .backlog
  else .ready

variable (projectId : String)

def nodeJob (userId : Option String) (node : BatchNode) (jobId : JobId) (parentJobId : Option JobId) : Job where
  id := jobId
  projectId := projectId
  parentId := parentJobId
  depth := (parentJobId.map hierarchyDepth).getD 0
  title := node.title
  phase := initialPhase request node.key
  hints := node.hints.getD {}
  executionType := some "agent"
  actorUserId := userId

def generateJobId : Option JobId → BatchCall JobId
  | none => onWorkflow (Workflows.generateRootJobId projects rootIds projectId)
  | some parentJobId => onWorkflow (Workflows.generateChildJobId projects projectId parentJobId)

abbrev KeyToJobId : Type := List (String × JobId)

def KeyToJobId.get (ids : KeyToJobId) (key : String) : Option JobId := ids.lookup key

variable (batchId : String)

def createNode (userId : Option String) (ids : KeyToJobId) (node : BatchNode) : BatchCall JobId := do
  let parentJobId := node.parentKey.bind (KeyToJobId.get ids)
  let jobId ← generateJobId projects rootIds projectId parentJobId
  let _ ← onWorkflow (Workflows.create (nodeJob request projectId userId node jobId parentJobId))
  .perform (.tagJob ⟨jobId, batchId, node.key⟩) fun _ => jobId

/-- The nodes in sorted order, each under the job that its parent has got. -/
def createNodes (projectId batchId : String) (userId : Option String) :
    List String → KeyToJobId → BatchCall KeyToJobId
  | [], ids => .ret ids
  | key :: rest, ids =>
    match request.nodes.find? (·.key == key) with
    | none => .raise (.failure (.error "Cannot read properties of undefined (reading 'parent')"))
    | some node => do
      let jobId ← createNode projects rootIds request projectId batchId userId ids node
      createNodes projectId batchId userId rest (ids ++ [(key, jobId)])

variable (ids : KeyToJobId)

def wireDependency (job dependsOn : String) : BatchCall Unit :=
  match KeyToJobId.get ids job, KeyToJobId.get ids dependsOn with
  | some fromJobId, some toJobId => onWorkflow (Workflows.addDependency fromJobId toJobId .blocks)
  | _, _ => .raise (.failure (.error "UNDEFINED_VALUE: Undefined values are not allowed"))

def wireDependencies : BatchCall Unit :=
  Call.forEach request.dependencies fun dependency =>
    Call.forEach dependency.dependsOn (wireDependency ids dependency.job)

def blockedBy (key : String) : List String := (dependenciesOf request key).flatMap (·.dependsOn)

def batchResponse : CreateBatchResponse where
  batchId := batchId
  idempotencyKey := request.idempotencyKey
  jobs := request.nodes.map fun node =>
    (node.key,
      { jobId := (KeyToJobId.get ids node.key).getD ""
        phase := initialPhase request node.key
        blockedBy := blockedByEntry (blockedBy request node.key) })

def BatchDb.batchJobs (db : BatchDb) (batchId : String) : List (Job × String) :=
  ((db.jobs.jobs.insertionSort fun a b => a.createdAt ≤ b.createdAt).filterMap fun row =>
    ((db.tags.find? fun tag => tag.jobId == row.id && tag.batchId == batchId).map fun tag =>
      (row, tag.batchKey))).filter fun entry => !entry.2.isEmpty

def lastDependsOn (key : String) : List String :=
  ((dependenciesOf request key).getLast?.map (·.dependsOn)).getD []

def reconstructedJobs (rows : List (Job × String)) : List (String × BatchJobResult) :=
  rows.map fun entry =>
    (entry.2,
      { jobId := entry.1.id
        phase := entry.1.phase
        blockedBy := blockedByEntry (lastDependsOn request entry.2) })

/-- The answer to a repetition, from the rows of the first submission. -/
def reconstructBatchResult : BatchCall CreateBatchResponse := do
  let rows ← select (BatchDb.batchJobs · batchId)
  let batch ← select fun db => db.batches.find? (·.id == batchId)
  return {
    batchId := batchId
    idempotencyKey := batch.bind (·.idempotencyKey)
    jobs := reconstructedJobs request rows }

def resolveProject : Except BatchFailure Project :=
  match Workflows.resolveProjectForJobId projects projectId with
  | .ok project => .ok project
  | .error (.error message) => .error (.failure (.notFound message))
  | .error failure => .error (.failure failure)

def findSubmission : BatchCall (Option BatchRecord) :=
  match request.idempotencyKey with
  | none => .ret none
  | some key => if key.isEmpty then .ret none else select (·.submitted projectId (some key))

def createJobs (project : Project) (correlationId userId : Option String) : BatchCall CreateBatchResponse := do
  let batchId ← select newBatchId
  insertBatch
    { id := batchId
      projectId := project.id
      idempotencyKey := request.idempotencyKey
      nodeCount := request.nodes.length
      createdBy := correlationId }
  let ids ← createNodes projects rootIds request project.id batchId userId (topologicalSort request) []
  wireDependencies request ids
  return batchResponse request batchId ids

/-- A valid request is answered from an earlier submission under its key, or created. -/
def createBatch (projectId : String) (correlationId userId : Option String) : BatchCall CreateBatchResponse :=
  if !(validateBatch request).valid then
    .raise (.validationFailed (validateBatch request).errors)
  else do
    let project ← .ofExcept (resolveProject projects projectId)
    match ← findSubmission request project.id with
    | some existing => reconstructBatchResult request existing.id
    | none => createJobs projects rootIds newBatchId request project correlationId userId

end

section

variable {request : CreateBatchRequest}

theorem duplicateErrors_eq_nil {seen keys : List String} :
    duplicateErrors seen keys = [] ↔ keys.Nodup ∧ ∀ key ∈ keys, key ∉ seen := by
  induction keys generalizing seen with
  | nil => simp [duplicateErrors]
  | cons key keys ih =>
    rw [duplicateErrors, append_eq_nil_iff, ih]
    constructor
    · rintro ⟨fresh, distinct, apart⟩
      have unseen : key ∉ seen := by
        intro member
        simp [member] at fresh
      constructor
      · exact nodup_cons.mpr ⟨fun member => apart key member mem_cons_self, distinct⟩
      · intro other member
        rcases mem_cons.mp member with rfl | later
        · exact unseen
        · exact fun old => apart other later (mem_cons_of_mem _ old)
    · rintro ⟨distinct, apart⟩
      obtain ⟨fresh, distinct⟩ := nodup_cons.mp distinct
      refine ⟨by simp [apart key mem_cons_self], distinct, ?_⟩
      intro other member listed
      rcases mem_cons.mp listed with rfl | old
      · exact fresh member
      · exact apart other (mem_cons_of_mem _ member) old

theorem parentErrors_eq_nil {node : BatchNode} :
    parentErrors request node = [] ↔ ∀ parent ∈ node.parentKey, parent ∈ request.keys := by
  unfold parentErrors
  cases node.parentKey with
  | none => simp
  | some parent => by_cases known : parent ∈ request.keys <;> simp [known]

theorem dependencyErrors_eq_nil {dependency : BatchDependency} : dependencyErrors request dependency = [] ↔
      dependency.job ∈ request.keys ∧ ∀ key ∈ dependency.dependsOn, key ∈ request.keys := by
  unfold dependencyErrors
  rw [append_eq_nil_iff, map_eq_nil_iff, filter_eq_nil_iff]
  by_cases known : dependency.job ∈ request.keys <;> simp [known]

theorem referenceErrors_eq_nil : referenceErrors request = [] ↔ Closed request := by
  simp only [referenceErrors, append_eq_nil_iff, duplicateErrors_eq_nil, flatMap_eq_nil_iff,
    parentErrors_eq_nil, dependencyErrors_eq_nil]
  constructor
  · rintro ⟨⟨⟨distinct, -⟩, parents⟩, dependencies⟩
    exact ⟨distinct, parents, fun dependency member => (dependencies dependency member).1,
      fun dependency member => (dependencies dependency member).2⟩
  · rintro ⟨distinct, parents, jobs, dependsOn⟩
    exact ⟨⟨⟨distinct, by simp⟩, parents⟩,
      fun dependency member => ⟨jobs dependency member, dependsOn dependency member⟩⟩

theorem validateBatch_valid (valid : (validateBatch request).valid = true) :
    Closed request ∧ hasCycle (batchGraph request) = false := by
  simp only [validateBatch, List.isEmpty_iff] at valid
  by_cases closed : referenceErrors request = []
  · refine ⟨referenceErrors_eq_nil.mp closed, ?_⟩
    rw [if_pos closed] at valid
    cases cyclic : hasCycle (batchGraph request) with
    | false => rfl
    | true => simp [cycleErrors, cyclic] at valid
  · rw [if_neg closed, if_neg closed] at valid
    exact absurd valid closed

end

end EveHorizon.Batches
