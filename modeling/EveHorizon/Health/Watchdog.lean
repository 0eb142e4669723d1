import EveHorizon.Health.Diagnosis
import EveHorizon.Library.Visits

/-!
# The health watchdog

A tick diagnoses the environment, shuts down deployments that keep failing, stores what it
found over what the tick before it had stored, and notifies of changes.
-/

namespace EveHorizon.Health

structure EnvRow where
  id : Text
  projectId : Text
  name : Text
  suspended : Bool
  projectSlug : Text
  orgSlug : Text
  orgId : Text

structure HealthAction where
  deployment : Text
  takenAt : Int
  deriving DecidableEq

structure HealthCheck where
  projectId : Text
  orgId : Text
  environmentSlug : Text
  status : HealthStatus
  issueSignature : Text
  issues : Option (List HealthIssue)
  podCount : Nat
  healthyPodCount : Nat
  degradedSince : Option Int
  consecutiveDegradedTicks : Nat
  actionsTaken : Option (List HealthAction)
  notifiedAt : Option Int
  checkedAt : Int

structure Settings where
  circuitBreakEnabled : Bool := true
  circuitBreakAfterRestarts : Nat := 50
  circuitBreakAfterMs : Int := 1800000
  stableTicks : Nat := 2
  /-- The address and the key of the API are set. -/
  apiConfigured : Bool := true

def dedupWindowMs : Int := 4 * 60 * minuteMs

structure ReplicaSet where
  name : Option Text
  ownerReferences : List OwnerReference

structure Cluster where
  pods : Option (List Pod)
  listsDeployments : Bool
  replicaSets : Option (List ReplicaSet)
  /-- The deployments that can be scaled. -/
  scales : Text → Bool

inductive Query where
  | findByEnvironmentId | findForBreaker | updateEnvironment | upsert | markNotified
  deriving DecidableEq

structure Tick where
  /-- The time since the tick before. -/
  elapsed : Nat
  env : EnvRow
  listing : Option (List Pod)
  cluster : Cluster
  /-- The call that fails, if one does. -/
  fault : Option Query := none

def deploymentsToScale (critical : List HealthIssue) (pods : List Pod)
    (replicaSets : List ReplicaSet) : List Text :=
  let failing := pods.filter fun pod => (critical.map (·.pod)).contains (pod.name.getD [])
  let replicaSetNames := (failing.flatMap fun pod =>
    (pod.ownerReferences.filter (·.kind == "ReplicaSet".toList)).map (·.name)).eraseDups
  -- Of several owners of one replica set the last one counts.
  let owners := (replicaSets.flatMap fun set =>
    (set.ownerReferences.filter (·.kind == "Deployment".toList)).map fun owner =>
      (set.name.getD [], owner.name)).reverse
  (replicaSetNames.filterMap fun name =>
    (owners.lookup name).filter (· ≠ [])).eraseDups

variable (settings : Settings) (now : Int)

def tooEarly (row : Option HealthCheck) : Bool :=
  (row.bind (·.degradedSince)).any fun since => now - since < settings.circuitBreakAfterMs

def worthBreaking (critical : List HealthIssue) : Bool :=
  critical.any (·.type == .imagePullBackoff) ||
    settings.circuitBreakAfterRestarts ≤ ((critical.filter (·.type == .crashLoopBackoff)).map fun issue =>
        issue.restarts.getD 0).foldl max 0

def applyCircuitBreaker (row : Option HealthCheck) (diagnosis : DiagnoseResult) (cluster : Cluster) :
    List HealthAction :=
  let critical := diagnosis.issues.filter (·.isCritical)
  if critical.length = 0 then []
  else if tooEarly settings now row then []
  else if !worthBreaking settings critical then []
  else
    match cluster.pods, cluster.listsDeployments, cluster.replicaSets with
    | some pods, true, some replicaSets =>
      ((deploymentsToScale critical pods replicaSets).filter cluster.scales).map
        fun deployment => { deployment, takenAt := now }
    | _, _, _ => []

inductive NotificationType where
  | degraded | critical | recovered
  deriving DecidableEq

inductive Severity where
  | info | warning | critical
  deriving DecidableEq

structure Notification where
  sentAt : Int
  severity : Severity
  type : NotificationType
  orgSlug : Text
  projectSlug : Text
  envName : Text
  issues : List HealthIssue
  actionsTaken : List HealthAction
  deriving DecidableEq

variable (prev : Option HealthCheck)

def storedStatus : HealthStatus := (prev.map (·.status)).getD .healthy

def signatureChanged (signature : Text) : Bool :=
  prev.any (·.issueSignature != signature)

def notificationType (newStatus : HealthStatus) (signature : Text) : Option NotificationType :=
  let prevStatus := storedStatus prev
  if prevStatus = .healthy ∧ newStatus = .degraded then some .degraded
  else if prevStatus = .healthy ∧ newStatus = .critical then some .critical
  else if prevStatus ≠ .healthy ∧ newStatus = .healthy then some .recovered
  else if prevStatus = .degraded ∧ newStatus = .critical then some .critical
  else if newStatus ≠ .healthy ∧ signatureChanged prev signature then
    some (if newStatus = .critical then .critical else .degraded)
  else none

def suppressed (prev : Option HealthCheck) (type : NotificationType) (signature : Text) (actions : List HealthAction) :
    Bool :=
  type ≠ .recovered && actions.isEmpty && prev.any fun row =>
    row.issueSignature == signature && row.notifiedAt.any fun notifiedAt => now - notifiedAt < dedupWindowMs

def severityOf : HealthStatus → Severity
  | .critical => .critical
  | .degraded => .warning
  | .healthy => .info

def dueNotification (env : EnvRow) (prev : Option HealthCheck) (signature : Text) (diagnosis : DiagnoseResult)
    (actions : List HealthAction) : Option Notification :=
  match notificationType prev diagnosis.status signature with
  | none => none
  | some type =>
    if suppressed now prev type signature actions then none
    else
      some
        { sentAt := now, severity := severityOf diagnosis.status, type
          orgSlug := env.orgSlug, projectSlug := env.projectSlug, envName := env.name
          issues := diagnosis.issues, actionsTaken := actions }

structure Watch where
  now : Int
  row : Option HealthCheck
  deployStatus : Text
  sent : List Notification

def handleNotification (tick : Tick) (due : Option Notification) (watch : Watch) : Watch :=
  match due with
  | none => watch
  | some notification =>
    if tick.fault = some .markNotified then watch
    else
      let marked := { watch with
        row := watch.row.map fun row => { row with notifiedAt := some watch.now } }
      if settings.apiConfigured then { marked with sent := marked.sent ++ [notification] }
      else marked

def degradedTicks (newStatus : HealthStatus) : Nat :=
  if newStatus ≠ .healthy then ((prev.map (·.consecutiveDegradedTicks)).getD 0) + 1 else 0

def degradedSince (now : Int) (prev : Option HealthCheck) (newStatus : HealthStatus) : Option Int :=
  if newStatus = .healthy then none
  else if storedStatus prev = .healthy then some now
  else prev.bind (·.degradedSince)

def breaks (env : EnvRow) (prev : Option HealthCheck) (newStatus : HealthStatus) : Bool :=
  settings.circuitBreakEnabled && settings.stableTicks ≤ degradedTicks prev newStatus &&
    !env.suspended && newStatus == .critical

/-- `ON CONFLICT` keeps the names of the row and when it was notified of. -/
def upsertCheck (row : Option HealthCheck) (check : HealthCheck) : HealthCheck :=
  match row with
  | none => check
  | some existing =>
    { check with
      projectId := existing.projectId
      orgId := existing.orgId
      environmentSlug := existing.environmentSlug
      notifiedAt := check.notifiedAt <|> existing.notifiedAt }

def newCheck (now : Int) (env : EnvRow) (prev : Option HealthCheck) (signature : Text)
    (diagnosis : DiagnoseResult) (actions : List HealthAction) : HealthCheck where
  projectId := env.projectId
  orgId := env.orgId
  environmentSlug := "/".toList.intercalate [env.orgSlug, env.projectSlug, env.name]
  status := diagnosis.status
  issueSignature := signature
  issues := if diagnosis.issues.length > 0 then some diagnosis.issues else none
  podCount := diagnosis.podCount
  healthyPodCount := diagnosis.healthyPodCount
  degradedSince := degradedSince now prev diagnosis.status
  consecutiveDegradedTicks := degradedTicks prev diagnosis.status
  actionsTaken := if actions.length > 0 then some actions else none
  notifiedAt := none
  checkedAt := now

def actionsOf (watch : Watch) (tick : Tick) (diagnosis : DiagnoseResult) : List HealthAction :=
  if breaks settings tick.env watch.row diagnosis.status then
    applyCircuitBreaker settings watch.now watch.row diagnosis tick.cluster
  else []

/-- A failure of one of its calls ends a tick where it stands; the status that it returns
is healthy then. -/
def processEnvironment (md5 : Digest) (tick : Tick) (start : Watch) : Watch × HealthStatus :=
  let watch := { start with now := start.now + tick.elapsed }
  let diagnosis := diagnoseEnvironment watch.now tick.listing
  let signature := issueSignature md5 diagnosis.issues
  let prev := watch.row
  if tick.fault = some .findByEnvironmentId then (watch, .healthy)
  else if breaks settings tick.env prev diagnosis.status ∧ tick.fault = some .findForBreaker then
    (watch, .healthy)
  else
    let actions := actionsOf settings watch tick diagnosis
    let acted :=
      if actions.length > 0 ∧ tick.fault ≠ some .updateEnvironment then
        { watch with deployStatus := "failed".toList }
      else watch
    if tick.fault = some .upsert then (acted, .healthy)
    else
      let check := newCheck watch.now tick.env prev signature diagnosis actions
      let stored := { acted with row := some (upsertCheck prev check) }
      let due := dueNotification watch.now tick.env prev signature diagnosis actions
      let after := handleNotification settings tick due stored
      (after, if due.isSome ∧ tick.fault = some .markNotified then .healthy else diagnosis.status)

def step (md5 : Digest) (watch : Watch) (tick : Tick) : Watch :=
  (processEnvironment settings md5 tick watch).1

end EveHorizon.Health
