import EveHorizon.Library.Histories
import EveHorizon.Library.Keyed

/-!
# Workspace pools

The rows of `workspaces`, the statements of the workspace queries, and the operations that
issue them.
-/

namespace EveHorizon.Workspaces

open Interleaving

abbrev ProjectId := String
abbrev JobId := String
abbrev WorkspaceId := String
abbrev Timestamp := Nat

inductive WorkspaceState where
  | idle | acquired | teardown
  deriving DecidableEq

structure Workspace where
  id : WorkspaceId
  projectId : ProjectId
  state : WorkspaceState
  lastJobId : Option JobId
  lastUsedAt : Option Timestamp
  heartbeatAt : Option Timestamp
  createdAt : Timestamp
  updatedAt : Timestamp
  pvcName : Option String
  k8sNamespace : Option String
  deriving DecidableEq

abbrev WorkspaceTable := Table.Keyed Workspace.id

def live (projectId : ProjectId) (row : Workspace) : Bool :=
  row.projectId == projectId && row.state != .teardown

def liveCount (projectId : ProjectId) (table : WorkspaceTable) : Nat := table.rows.countP (live projectId)

structure NewWorkspace where
  id : WorkspaceId
  projectId : ProjectId
  jobId : JobId
  k8sNamespace : Option String

def NewWorkspace.row (params : NewWorkspace) (now : Timestamp) : Workspace where
  id := params.id
  projectId := params.projectId
  state := .acquired
  lastJobId := some params.jobId
  lastUsedAt := some now
  heartbeatAt := some now
  createdAt := now
  updatedAt := now
  pvcName := some ("pvc-" ++ params.id)
  k8sNamespace := params.k8sNamespace

inductive WorkspaceStatement where
  /-- The rows that statements in flight have locked are skipped. -/
  | acquireIdle (projectId : ProjectId) (jobId : JobId) (locked : List WorkspaceId) (now : Timestamp)
  | countLive (projectId : ProjectId)
  | insert (params : NewWorkspace) (now : Timestamp)
  | release (workspaceId : WorkspaceId) (owner : Option JobId) (now : Timestamp)
  | heartbeat (workspaceId : WorkspaceId) (now : Timestamp)
  | markForTeardown (workspaceId : WorkspaceId) (now : Timestamp)
  | delete (workspaceId : WorkspaceId)
  | resetStale (staleCutoff : Timestamp) (now : Timestamp)

def recency (row : Workspace) : Nat :=
  match row.lastUsedAt with
  | none => 0
  | some usedAt => usedAt + 1

def idleCandidate (projectId : ProjectId) (locked : List WorkspaceId) (table : WorkspaceTable) : Option Workspace :=
  Table.latest recency (table.rows.filter fun row =>
    row.projectId == projectId && row.state == .idle && !locked.contains row.id)

def Workspace.acquiredBy (jobId : JobId) (now : Timestamp) (row : Workspace) : Workspace :=
  { row with
    state := .acquired
    lastJobId := some jobId
    lastUsedAt := some now
    heartbeatAt := some now
    updatedAt := now }

variable (now : Timestamp) (row : Workspace)

def Workspace.released : Workspace :=
  { row with state := .idle, heartbeatAt := none, updatedAt := now }

def Workspace.beaten : Workspace :=
  { row with heartbeatAt := some now, updatedAt := now }

def Workspace.tornDown : Workspace :=
  { row with state := .teardown, updatedAt := now }

def releasable (workspaceId : WorkspaceId) (owner : Option JobId) (row : Workspace) : Bool :=
  row.id == workspaceId && row.state == .acquired &&
    match owner with
    | none => true
    | some jobId => row.lastJobId == some jobId

def beatable (workspaceId : WorkspaceId) (row : Workspace) : Bool :=
  row.id == workspaceId && row.state == .acquired

def stale (staleCutoff : Timestamp) (row : Workspace) : Bool :=
  row.state == .acquired &&
    match row.heartbeatAt with
    | none => true
    | some beat => decide (beat < staleCutoff)

def WorkspaceStatement.effect : WorkspaceStatement → WorkspaceTable → WorkspaceTable
  | .acquireIdle projectId jobId locked now, table =>
    match idleCandidate projectId locked table with
    | none => table
    | some candidate =>
      table.update (·.id == candidate.id) (Workspace.acquiredBy jobId now) fun _ => rfl
  | .countLive _, table => table
  | .insert params now, table => table.insert (params.row now)
  | .release workspaceId owner now, table =>
    table.update (releasable workspaceId owner) (Workspace.released now) fun _ => rfl
  | .heartbeat workspaceId now, table =>
    table.update (beatable workspaceId) (Workspace.beaten now) fun _ => rfl
  | .markForTeardown workspaceId now, table =>
    table.update (·.id == workspaceId) (Workspace.tornDown now) fun _ => rfl
  | .delete workspaceId, table => table.delete (·.id == workspaceId)
  | .resetStale staleCutoff now, table =>
    table.update (stale staleCutoff) (Workspace.released now) fun _ => rfl

instance : Statement WorkspaceStatement WorkspaceTable where
  ready _ _ := true
  effect := WorkspaceStatement.effect

inductive WorkspaceError where
  | duplicateKey

inductive AcquireWorkspaceResult where
  | acquired (workspace : Workspace) (isNew : Bool)
  | poolFull (error : String)

abbrev WorkspaceCall := Call WorkspaceStatement WorkspaceTable WorkspaceError

/-- What an acquisition brings along from outside the database: the rows it finds locked, the
generated id of a new workspace, and the clock of each statement. -/
structure AcquireInputs where
  locked : List WorkspaceId := []
  random : String
  acquiredAt : Timestamp
  insertedAt : Timestamp

def generateWorkspaceId (projectSlug random : String) : WorkspaceId := "ws_" ++ projectSlug ++ "_" ++ random

def poolFullError (currentCount poolSize : Nat) : String :=
  "Pool full: " ++ toString currentCount ++ "/" ++ toString poolSize ++ " workspaces in use"

def acquireWorkspace (projectId : ProjectId) (projectSlug : String) (jobId : JobId) (poolSize : Nat)
    (k8sNamespace : Option String) (inputs : AcquireInputs) : WorkspaceCall AcquireWorkspaceResult := do
  let acquired ← .perform (.acquireIdle projectId jobId inputs.locked inputs.acquiredAt) fun table =>
    (idleCandidate projectId inputs.locked table).map (·.acquiredBy jobId inputs.acquiredAt)
  match acquired with
  | some workspace => return .acquired workspace false
  | none =>
    let currentCount ← .perform (.countLive projectId) (liveCount projectId)
    if currentCount ≥ poolSize then
      return .poolFull (poolFullError currentCount poolSize)
    else
      let params : NewWorkspace :=
        { id := generateWorkspaceId projectSlug inputs.random, projectId, jobId, k8sNamespace }
      let inserted ← .perform (.insert params inputs.insertedAt) (·.free params.id)
      if inserted then return .acquired (params.row inputs.insertedAt) true
      else .raise .duplicateKey

def ownerOf (jobId : Option JobId) : Option JobId := jobId.filter (· != "")

def releaseWorkspace (workspaceId : WorkspaceId) (jobId : Option JobId) (now : Timestamp) : WorkspaceCall Bool :=
  .perform (.release workspaceId (ownerOf jobId) now) fun table =>
    table.rows.any (releasable workspaceId (ownerOf jobId))

def heartbeat (workspaceId : WorkspaceId) (now : Timestamp) : WorkspaceCall Bool :=
  .perform (.heartbeat workspaceId now) fun table => table.rows.any (beatable workspaceId)

def markForTeardown (workspaceId : WorkspaceId) (now : Timestamp) : WorkspaceCall Bool :=
  .perform (.markForTeardown workspaceId now) fun table => table.rows.any (·.id == workspaceId)

def deleteWorkspace (workspaceId : WorkspaceId) : WorkspaceCall Bool :=
  .perform (.delete workspaceId) fun table => table.rows.any (·.id == workspaceId)

def resetStaleWorkspaces (staleMinutes dateNow now : Timestamp) : WorkspaceCall Nat :=
  let staleCutoff := dateNow - staleMinutes * 60 * 1000
  .perform (.resetStale staleCutoff now) fun table => table.rows.countP (stale staleCutoff)

inductive WorkspaceOperation where
  | acquireWorkspace (projectId : ProjectId) (projectSlug : String) (jobId : JobId)
      (k8sNamespace : Option String) (inputs : AcquireInputs)
  | releaseWorkspace (jobId : JobId) (workspaceId : WorkspaceId) (now : Timestamp)
  | heartbeat (jobId : JobId) (workspaceId : WorkspaceId) (now : Timestamp)
  | markForTeardown (workspaceId : WorkspaceId) (now : Timestamp)
  | delete (workspaceId : WorkspaceId)
  | resetStaleWorkspaces (staleMinutes dateNow now : Timestamp)

inductive WorkspaceAnswer where
  | acquired (result : AcquireWorkspaceResult)
  | done (changed : Bool)
  | reset (count : Nat)

/-- All acquisitions of a project use its pool size. A heartbeat does not say who sends it. -/
def poolProgram (poolSize : ProjectId → Nat) (_session : Nat) : WorkspaceOperation → WorkspaceCall WorkspaceAnswer
  | .acquireWorkspace projectId projectSlug jobId k8sNamespace inputs => do
    return .acquired (← acquireWorkspace projectId projectSlug jobId (poolSize projectId) k8sNamespace inputs)
  | .releaseWorkspace jobId workspaceId now => do
    return .done (← releaseWorkspace workspaceId (some jobId) now)
  | .heartbeat _ workspaceId now => do return .done (← heartbeat workspaceId now)
  | .markForTeardown workspaceId now => do return .done (← markForTeardown workspaceId now)
  | .delete workspaceId => do return .done (← deleteWorkspace workspaceId)
  | .resetStaleWorkspaces staleMinutes dateNow now => do
    return .reset (← resetStaleWorkspaces staleMinutes dateNow now)

abbrev PoolSystem := System WorkspaceStatement WorkspaceTable WorkspaceError WorkspaceAnswer

def runPool (poolSize : ProjectId → Nat) (table : WorkspaceTable)
    (schedule : List (Choice WorkspaceOperation)) : PoolSystem :=
  System.run (poolProgram poolSize) table schedule

theorem idleCandidate_mem {projectId : ProjectId} {locked : List WorkspaceId} {table : WorkspaceTable} {row : Workspace}
    (found : idleCandidate projectId locked table = some row) :
    row ∈ table.rows ∧ row.projectId = projectId ∧ row.state = .idle := by
  obtain ⟨present, selected⟩ := List.mem_filter.mp (Table.latest_mem recency found)
  simp only [Bool.and_eq_true, beq_iff_eq] at selected
  exact ⟨present, selected.1.1, selected.1.2⟩

end EveHorizon.Workspaces
