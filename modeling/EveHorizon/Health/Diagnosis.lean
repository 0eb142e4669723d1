import EveHorizon.Library.Text

/-!
# Health of an environment

What the watchdog makes of the pods of an environment: the issues that it finds, the
status that follows from them, and the signature under which they are remembered.
-/

namespace EveHorizon.Health

inductive HealthStatus where
  | healthy | degraded | critical
  deriving DecidableEq

inductive IssueType where
  | imagePullBackoff | crashLoopBackoff | highRestarts | pendingTooLong
  deriving DecidableEq

def IssueType.text : IssueType → Text
  | .imagePullBackoff => "image_pull_backoff".toList
  | .crashLoopBackoff => "crash_loop_backoff".toList
  | .highRestarts => "high_restarts".toList
  | .pendingTooLong => "pending_too_long".toList

structure HealthIssue where
  type : IssueType
  pod : Text
  container : Option Text := none
  restarts : Option Nat := none
  reason : Option Text := none
  since : Option Int := none
  image : Option Text := none
  deriving DecidableEq

structure ContainerStatus where
  name : Text
  image : Text
  restartCount : Option Nat
  waitingReason : Option Text

structure OwnerReference where
  kind : Text
  name : Text

structure Pod where
  name : Option Text
  creationTimestamp : Option Int
  ownerReferences : List OwnerReference
  phase : Option Text
  containerStatuses : List ContainerStatus
  initContainerStatuses : List ContainerStatus

def Pod.label (pod : Pod) : Text := pod.name.getD "unknown".toList

variable (now : Int)

def Pod.ageMs (pod : Pod) : Int := now - pod.creationTimestamp.getD now

def minuteMs : Int := 60 * 1000

def containerIssues (pod : Pod) (status : ContainerStatus) : List HealthIssue :=
  let restarts := status.restartCount.getD 0
  (if status.waitingReason = some "ImagePullBackOff".toList ∨ status.waitingReason = some "ErrImagePull".toList then
    [{ type := .imagePullBackoff, pod := pod.label, container := some status.name
       reason := status.waitingReason, image := some status.image }]
  else []) ++
  (if status.waitingReason = some "CrashLoopBackOff".toList ∧ restarts > 20 then
    [{ type := .crashLoopBackoff, pod := pod.label, container := some status.name
       restarts := some restarts, reason := status.waitingReason }]
  else []) ++
  if restarts > 5 ∧ pod.ageMs now < 60 * minuteMs then
    [{ type := .highRestarts, pod := pod.label, container := some status.name
       restarts := some restarts, since := pod.creationTimestamp }]
  else []

def podIssues (pod : Pod) : List HealthIssue :=
  (pod.containerStatuses ++ pod.initContainerStatuses).flatMap (containerIssues now pod) ++
  if pod.phase = some "Pending".toList ∧ pod.ageMs now > 10 * minuteMs then
    [{ type := .pendingTooLong, pod := pod.label
       reason := some "Pod pending for >10 minutes".toList, since := pod.creationTimestamp }]
  else []

structure DiagnoseResult where
  status : HealthStatus
  issues : List HealthIssue
  podCount : Nat
  healthyPodCount : Nat

def HealthIssue.isCritical (issue : HealthIssue) : Bool :=
  issue.type == .imagePullBackoff || issue.type == .crashLoopBackoff

def classify (issues : List HealthIssue) : HealthStatus :=
  if issues.length > 0 then
    if issues.any (·.isCritical) then .critical else .degraded
  else .healthy

def diagnoseEnvironment (listing : Option (List Pod)) : DiagnoseResult :=
  match listing with
  | none => { status := .healthy, issues := [], podCount := 0, healthyPodCount := 0 }
  | some pods =>
    let issues := pods.flatMap (podIssues now)
    { status := classify issues
      issues := issues
      podCount := pods.length
      healthyPodCount := (pods.filter fun pod => (podIssues now pod).isEmpty).length }

theorem classify_healthy_iff {issues : List HealthIssue} : classify issues = .healthy ↔ issues = [] := by
  cases issues with
  | nil => simp [classify]
  | cons first rest =>
    simp only [classify, List.length_cons, gt_iff_lt, Nat.zero_lt_succ, if_true, reduceCtorEq, iff_false]
    split
    · nofun
    · nofun

theorem diagnose_healthy_iff {now : Int} {listing : Option (List Pod)} :
    (diagnoseEnvironment now listing).status = .healthy ↔ (diagnoseEnvironment now listing).issues = [] := by
  cases listing with
  | none => exact ⟨fun _ => rfl, fun _ => rfl⟩
  | some pods => exact classify_healthy_iff

structure Digest where
  hex : Text → Text
  nonempty : ∀ text, hex text ≠ []

def HealthIssue.signatureLine (issue : HealthIssue) : Text := issue.type.text ++ ':' :: issue.pod

def issueSignature (md5 : Digest) (issues : List HealthIssue) : Text :=
  if issues.length > 0 then
    md5.hex (",".toList.intercalate ((issues.map (·.signatureLine)).insertionSort
      fun left right => Text.units left ≤ Text.units right))
  else []

end EveHorizon.Health
