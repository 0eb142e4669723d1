import EveHorizon.Loop.SucceededWork

/-!
# Gates of dispatches

How a dispatch acquires the gates its job requires, and gives them back. A gate row names
its key and a job; which dispatch of the job has acquired it, and which dispatches a worker
executes, the code records nowhere. The model keeps both beside the tables.
-/

namespace EveHorizon.Loop

open Interleaving
open Jobs (JobId Timestamp Job JobAttempt JobGate JobsDb JobOperation)

structure JobGitConfig where
  branch : Option String := none
  push : Option String := none
  commit : Option String := none
  deriving DecidableEq

structure GateRelevantJob where
  projectId : String
  envName : Option String := none
  actionType : Option String := none
  gitJson : Option JobGitConfig := none
  gates : List String := []
  deriving DecidableEq

def present (text : Option String) : Bool := text.any fun text => text != ""

def needsBranchGate (gitConfig : JobGitConfig) : Bool :=
  present gitConfig.branch && (present gitConfig.push && gitConfig.push != some "never" ||
      present gitConfig.commit && gitConfig.commit != some "never" && gitConfig.commit != some "manual")

def resolveRequiredJobGates (job : GateRelevantJob) : List String :=
  let envGate := if present job.envName && present job.actionType then
    ["env:" ++ job.projectId ++ ":" ++ job.envName.getD ""] else []
  let branchGate := match job.gitJson with
    | some gitConfig => if needsBranchGate gitConfig then
        ["git:branch:" ++ job.projectId ++ ":" ++ gitConfig.branch.getD ""] else []
    | none => []
  job.gates ++ envGate ++ branchGate

structure Holding where
  dispatch : Nat
  jobId : JobId
  gateKey : String

structure Executing where
  dispatch : Nat
  jobId : JobId
  relevant : GateRelevantJob
  deriving DecidableEq

def Executing.requiredGates (entry : Executing) : List String := resolveRequiredJobGates entry.relevant

structure GateDb where
  loop : LoopDb := {}
  holdings : List Holding := []
  executing : List Executing := []

variable (db : GateDb)

def GateDb.gates : List JobGate := db.loop.jobs.gates

def GateDb.now : Timestamp := db.loop.jobs.now

variable (gates : List JobGate)

def GateDb.withGates : GateDb :=
  { db with loop := { db.loop with jobs := { db.loop.jobs with gates } } }

def GateDb.drop (dispatch : Nat) : GateDb :=
  { db with
    holdings := db.holdings.filter fun holding => holding.dispatch != dispatch
    executing := db.executing.filter fun entry => entry.dispatch != dispatch }

def grants (jobId : JobId) (gateKey : String) : Bool :=
  match gates.find? fun gate => gate.gateKey == gateKey with
  | none => true
  | some gate => gate.jobId == jobId

def upsertGate (jobId : JobId) (gateKey : String) (ttlExpiresAt : Timestamp) : List JobGate :=
  match gates.find? fun gate => gate.gateKey == gateKey with
  | none => gates ++ [{ gateKey, jobId, ttlExpiresAt }]
  | some _ => Table.updateWhere (fun gate => gate.gateKey == gateKey && gate.jobId == jobId)
      (fun gate => { gate with ttlExpiresAt }) gates

inductive GateStatement where
  | loop (stmt : LoopStatement)
  | cleanupExpiredGates
  -- The `INSERT` of `acquireGates`.
  | upsert (dispatch : Nat) (jobId : JobId) (gateKey : String) (ttlExpiresAt : Timestamp)
  -- `releaseGates` of the gates an acquisition has got so far.
  | giveBack (dispatch : Nat) (jobId : JobId) (gateKeys : List String)
  | refreshGatesTTL (jobId : JobId) (ttlExpiresAt : Timestamp)
  | updateBlockedOnGates (jobId : JobId) (blockedOnGates : List String)
  -- The worker starts on the job, and stops.
  | execute (dispatch : Nat) (jobId : JobId) (relevant : GateRelevantJob)
  | stopExecuting (dispatch : Nat)

def GateStatement.deletes : GateStatement → JobGate → Bool
  | .loop (.jobs (.deleteGates jobIds)), gate => jobIds.contains gate.jobId
  | .cleanupExpiredGates, gate => decide (gate.ttlExpiresAt ≤ db.now)
  | .giveBack _ jobId gateKeys, gate => gate.jobId == jobId && gateKeys.contains gate.gateKey
  | _, _ => false

def GateStatement.effect : GateStatement → GateDb → GateDb
  | .loop stmt, db => { db with loop := stmt.effect db.loop }
  | .cleanupExpiredGates, db =>
    db.withGates (db.gates.filter fun gate => !GateStatement.cleanupExpiredGates.deletes db gate)
  | .upsert dispatch jobId gateKey ttlExpiresAt, db =>
    let upserted := db.withGates (upsertGate db.gates jobId gateKey ttlExpiresAt)
    if grants db.gates jobId gateKey then
      { upserted with holdings := ⟨dispatch, jobId, gateKey⟩ :: db.holdings }
    else upserted
  | .giveBack dispatch jobId gateKeys, db =>
    (db.withGates (db.gates.filter fun gate =>
      !(GateStatement.giveBack dispatch jobId gateKeys).deletes db gate)).drop dispatch
  | .refreshGatesTTL jobId ttlExpiresAt, db =>
    db.withGates (Table.updateWhere (fun gate => gate.jobId == jobId) (fun gate => { gate with ttlExpiresAt }) db.gates)
  | .updateBlockedOnGates jobId blockedOnGates, db =>
    let jobs := Table.updateWhere (fun row => row.id == jobId)
      (fun row => { row with blockedOnGates, updatedAt := db.now }) db.loop.jobs.jobs
    { db with loop := { db.loop with jobs := { db.loop.jobs with jobs } } }
  | .execute dispatch jobId relevant, db =>
    { db with executing := ⟨dispatch, jobId, relevant⟩ :: db.executing }
  | .stopExecuting dispatch, db => db.drop dispatch

def GateStatement.ready : GateStatement → GateDb → Bool
  | .loop stmt, db => stmt.ready db.loop
  | _, _ => true

instance : Statement GateStatement GateDb where
  ready := GateStatement.ready
  effect := GateStatement.effect

abbrev GateCall := Call GateStatement GateDb String

def onLoop {α : Type} (call : LoopCall α) : GateCall α := call.lift .loop GateDb.loop

def onRecovery {α : Type} (call : RecoveryCall α) : GateCall α :=
  call.lift (fun stmt => .loop stmt.erase) GateDb.loop

structure AcquireGatesResult where
  success : Bool
  acquired : List String
  blockedBy : List String

def GateDb.heldByOthers (db : GateDb) (jobId : JobId) (gateKeys : List String) : List String :=
  (db.gates.filter fun gate => gateKeys.contains gate.gateKey && gate.jobId != jobId &&
    decide (db.now < gate.ttlExpiresAt)).map (·.gateKey)

def upsertGates (dispatch : Nat) (jobId : JobId) (ttlExpiresAt : Timestamp) : List String → GateCall (List String)
  | [] => .ret []
  | gateKey :: rest => do
    let inserted ← .perform (.upsert dispatch jobId gateKey ttlExpiresAt) fun db =>
      grants db.gates jobId gateKey
    let acquired ← upsertGates dispatch jobId ttlExpiresAt rest
    return if inserted then gateKey :: acquired else acquired

def acquireGates (dispatch : Nat) (jobId : JobId) (gateKeys : List String)
    (ttlExpiresAt : Timestamp) : GateCall AcquireGatesResult := do
  if gateKeys = [] then
    return { success := true, acquired := [], blockedBy := [] }
  else
    .perform .cleanupExpiredGates fun _ => ()
    let heldGates ← .perform (.loop .select) fun db => db.heldByOthers jobId gateKeys
    if heldGates ≠ [] then
      return { success := false, acquired := [], blockedBy := heldGates }
    else
      let acquired ← upsertGates dispatch jobId ttlExpiresAt gateKeys
      if acquired.length = gateKeys.length then
        return { success := true, acquired, blockedBy := [] }
      else
        if acquired ≠ [] then
          .perform (.giveBack dispatch jobId acquired) fun _ => ()
        let blocking ← .perform (.loop .select) fun db => db.heldByOthers jobId gateKeys
        return { success := false, acquired := [], blockedBy := blocking }

inductive GateOutcome where
  | acquired | blocked

def acquireJobGates (dispatch : Nat) (job : Job) (attempt : JobAttempt)
    (requiredGates : List String) (ttlExpiresAt : Timestamp) : GateCall GateOutcome := do
  if requiredGates = [] then
    return .acquired
  else
    let gateResult ← acquireGates dispatch job.id requiredGates ttlExpiresAt
    if gateResult.success then
      .perform (.updateBlockedOnGates job.id []) fun _ => ()
      return .acquired
    else
      .perform (.updateBlockedOnGates job.id gateResult.blockedBy) fun _ => ()
      let _ ← onLoop (onJobs (Jobs.completeAttempt attempt.id .failed {
        exitCode := some 0
        errorMessage := some ("Blocked on gates: " ++ ", ".intercalate gateResult.blockedBy) }))
      let now ← .perform (.loop .select) GateDb.now
      let _ ← onLoop (onJobs (Jobs.requeueReady job.id "orchestrator"
        (some (some (now + waitingBackoffMs))) (some "Blocked on gates")))
      return .blocked

section

variable (assemble : AssembleReceipt) (toLowerCase : String → String)

def releaseJobResources (job : Job) (requiredGates : List String) (outcome : GateOutcome) : GateCall Unit := do
  let _ ← (if requiredGates = [] then .ret () else onLoop (onJobs (Jobs.deleteGates [job.id])))
  match outcome with
  | .blocked => .ret ()
  | .acquired => onLoop (closeRootOf job.parentId)

def executeJob (dispatch : Nat) (newId : Nat → String) (job : Job) (attempt : JobAttempt)
    (relevant : GateRelevantJob) (worker : Except String HarnessResult) :
    GateOutcome → GateCall Unit
  | .blocked => .ret ()
  | .acquired => do
    .perform (.execute dispatch job.id relevant) fun _ => ()
    .perform (.stopExecuting dispatch) fun _ => ()
    (onLoop (processJob assemble toLowerCase dispatch newId job attempt worker)).handle
      fun _ => .ret ()

/-- `processJob` with the gates and the `finally` block. -/
def processGatedJob (dispatch : Nat) (newId : Nat → String) (job : Job) (attempt : JobAttempt)
    (relevant : GateRelevantJob) (ttlExpiresAt : Timestamp) (worker : Except String HarnessResult) :
    GateCall Unit := do
  let requiredGates := resolveRequiredJobGates relevant
  let outcome ← acquireJobGates dispatch job attempt requiredGates ttlExpiresAt
  executeJob assemble toLowerCase dispatch newId job attempt relevant worker outcome
  releaseJobResources job requiredGates outcome

inductive GateOperation where
  | dispatchJob (newId : Nat → String) (job : Job) (attempt : JobAttempt)
      (relevant : GateRelevantJob) (ttlExpiresAt : Timestamp) (worker : Except String HarnessResult)
  | recovery (operation : RecoveryOperation)
  | refreshGatesTTL (jobId : JobId) (ttlExpiresAt : Timestamp)

def GateOperation.call (session : Nat) : GateOperation → GateCall Unit
  | .dispatchJob newId job attempt relevant ttlExpiresAt worker =>
    processGatedJob assemble toLowerCase session newId job attempt relevant ttlExpiresAt worker
  | .recovery operation => onRecovery (operation.call assemble toLowerCase session)
  | .refreshGatesTTL jobId ttlExpiresAt => .perform (.refreshGatesTTL jobId ttlExpiresAt) fun _ => ()

def runGates (db : GateDb) (schedule : List (Choice GateOperation)) : System GateStatement GateDb String Unit :=
  System.run (GateOperation.call assemble toLowerCase) db schedule

end

end EveHorizon.Loop
