import EveHorizon.Library.Decimal

/-!
# The usage sweeper

`sweepNamespace` adds up what the pods and volumes of a namespace request, writes one
usage record a resource type and charges for it. Numbers are exact: the rounding of
the machine's arithmetic is not modelled, that of `toFixed` is. `NaN` is the top
element: a sum that meets it is `NaN`.
-/

namespace EveHorizon.Usage

abbrev Timestamp := Nat

abbrev Number := WithTop ℚ

def Number.times (number : Number) (factor : ℚ) : Number := number.map (· * factor)

def ofOption (number : Option ℚ) : Number := number

def withoutUnit (unit text : String) : Option String :=
  if unit.toList.isSuffixOf text.toList then
    some (String.ofList (text.toList.take (text.toList.length - unit.toList.length)))
  else none

def parseCpuRequest : Option String → Number
  | none => 0
  | some cpu =>
    if cpu = "" then 0
    else
      match withoutUnit "m" cpu with
      | some milli => ofOption ((Decimal.parseInt milli).map fun count => (count : ℚ) / 1000)
      | none => (((Decimal.parseFloat cpu).getD 0 : ℚ) : Number)

/-- A quantity with one of the units, each with its factor; a plain number counts
bytes, and what is not a number counts nothing. -/
def parseUnits (units : List (String × ℚ)) (bytes : ℚ) (text : String) : Number :=
  match units with
  | [] => (((Decimal.parseFloat text).map (· * bytes)).getD 0 : ℚ)
  | (unit, factor) :: rest =>
    match withoutUnit unit text with
    | some amount => ofOption ((Decimal.parseFloat amount).map (· * factor))
    | none => parseUnits rest bytes text

def parseMemoryToGib : Option String → Number
  | none => 0
  | some memory =>
    if memory = "" then 0
    else parseUnits [("Gi", 1), ("Mi", 1 / 1024), ("Ki", 1 / (1024 * 1024)),
      ("G", 1 / 1.073741824), ("M", 1 / 1073.741824), ("K", 1 / 1073741.824)]
      (1 / (1024 * 1024 * 1024)) memory

def parseStorageToGb : Option String → Number
  | none => 0
  | some storage =>
    if storage = "" then 0
    else parseUnits [("Ti", 1024 * (1024 / 1000) * (1024 / 1000)), ("Gi", 1024 * 1024 * 1024 / (1000 * 1000 * 1000)),
      ("Mi", 1024 * 1024 / (1000 * 1000 * 1000)), ("Ki", 1024 / (1000 * 1000 * 1000))]
      (1 / (1000 * 1000 * 1000)) storage

structure Container where
  name : String
  cpu : Option String
  memory : Option String
  cpu_nonneg : 0 ≤ parseCpuRequest cpu
  memory_nonneg : 0 ≤ parseMemoryToGib memory
  deriving DecidableEq

structure Pod where
  name : String
  creationTimestamp : Timestamp
  startTime : Option Timestamp
  containers : List Container
  started : ∀ start, startTime = some start → creationTimestamp ≤ start
  deriving DecidableEq

structure Pvc where
  name : String
  creationTimestamp : Timestamp
  storage : Option String
  storage_nonneg : 0 ≤ parseStorageToGb storage
  deriving DecidableEq

inductive PodPhase where
  | pending | running | succeeded | failed | unknown
  deriving DecidableEq

inductive PvcPhase where
  | pending | bound | lost
  deriving DecidableEq

inductive ResourceType where
  | vcpuSeconds | memoryGibSeconds | gbHours
  deriving DecidableEq

/-- One sweep of a namespace, what the cluster lists at its time (names are unique and
nothing is listed before it is created) and which of its charges the ledger takes. -/
structure Sweep where
  sweepId : String
  now : Timestamp
  ledgerTakes : ResourceType → Bool
  pods : List (Pod × PodPhase)
  pvcs : List (Pvc × PvcPhase)
  pods_distinct : (pods.map fun entry => entry.1.name).Nodup
  pvcs_distinct : (pvcs.map fun entry => entry.1.name).Nodup
  pods_created : ∀ entry ∈ pods, entry.1.creationTimestamp ≤ now
  pvcs_created : ∀ entry ∈ pvcs, entry.1.creationTimestamp ≤ now

def Pod.windowStart (pod : Pod) : Timestamp := pod.startTime.getD pod.creationTimestamp

def window (unit : ℚ) (start now : Timestamp) : ℚ := max 0 (((now : ℚ) - start) / unit)

def secondMs : ℚ := 1000

def hourMs : ℚ := 1000 * 3600

def addContainer (windowSeconds : ℚ) (totals : Number × Number) (container : Container) : Number × Number :=
  (totals.1 + (parseCpuRequest container.cpu).times windowSeconds,
    totals.2 + (parseMemoryToGib container.memory).times windowSeconds)

def addPod (now : Timestamp) (totals : Number × Number) (entry : Pod × PodPhase) : Number × Number :=
  if entry.2 = .running then
    entry.1.containers.foldl (addContainer (window secondMs entry.1.windowStart now)) totals
  else totals

variable (sweep : Sweep)

def podTotals : Number × Number := sweep.pods.foldl (addPod sweep.now) (0, 0)

def addPvc (now : Timestamp) (total : Number) (entry : Pvc × PvcPhase) : Number :=
  if entry.2 = .bound then
    total + (parseStorageToGb entry.1.storage).times
      (window hourMs entry.1.creationTimestamp now)
  else total

def totalGbHours : Number := sweep.pvcs.foldl (addPvc sweep.now) 0

def total : ResourceType → Number
  | .vcpuSeconds => (podTotals sweep).1
  | .memoryGibSeconds => (podTotals sweep).2
  | .gbHours => totalGbHours sweep

structure UsageRecord where
  id : String
  orgId : String
  projectId : String
  envId : String
  resourceType : ResourceType
  quantity : ℚ
  startedAt : Timestamp
  sourceType : String
  sourceId : String

structure UsageCharge where
  orgId : String
  amount : ℚ
  currency : String
  sourceType : String
  sourceId : String

structure UsageDb where
  records : List UsageRecord := []
  charges : List UsageCharge := []

structure Environment where
  orgId : String
  projectId : String
  envId : String
  namespaceName : String
  recordId : String → ResourceType → String

def UsageDb.findBySource (db : UsageDb) (sourceType sourceId : String)
    (resourceType : ResourceType) : Option UsageRecord :=
  db.records.find? fun row =>
    row.sourceType == sourceType && row.sourceId == sourceId && row.resourceType == resourceType

variable (env : Environment)

def Environment.sourceId (sweep : Sweep) : String :=
  sweep.sweepId ++ ":" ++ env.namespaceName

def Environment.record (sweep : Sweep) (resourceType : ResourceType) (quantity : ℚ) : UsageRecord where
  id := env.recordId sweep.sweepId resourceType
  orgId := env.orgId
  projectId := env.projectId
  envId := env.envId
  resourceType := resourceType
  quantity := quantity
  startedAt := sweep.now
  sourceType := "k8s_sweep"
  sourceId := env.sourceId sweep

def defaultUsageRate : ResourceType → ℚ
  | .vcpuSeconds => 0.0000125
  | .memoryGibSeconds => 0.0000035
  | .gbHours => 0.0001

def chargeForRecord (ledgerTakes : Bool) (record : UsageRecord) : Option UsageCharge :=
  if record.quantity ≤ 0 then none
  else
    let chargeUsd := Decimal.toFixed 10 (record.quantity * defaultUsageRate record.resourceType)
    if chargeUsd ≤ 0 then none
    else if ledgerTakes then
      some {
        orgId := record.orgId
        amount := chargeUsd
        currency := "usd"
        sourceType := "usage_record"
        sourceId := record.id }
    else none

def writeUsageRecord (ledgerTakes : Bool) (record : UsageRecord) (db : UsageDb) : UsageDb :=
  match db.findBySource record.sourceType record.sourceId record.resourceType with
  | some _ => db
  | none =>
    { db with
      records := db.records ++ [record]
      charges := db.charges ++ (chargeForRecord ledgerTakes record).toList }

def sweepResource (sweep : Sweep) (resourceType : ResourceType) (db : UsageDb) : UsageDb :=
  match total sweep resourceType with
  | none => db
  | some quantity =>
    if 0 < quantity then
      writeUsageRecord (sweep.ledgerTakes resourceType)
        (env.record sweep resourceType (Decimal.toFixed 4 quantity)) db
    else db

def sweepNamespace (db : UsageDb) (sweep : Sweep) : UsageDb :=
  sweepResource env sweep .gbHours
    (sweepResource env sweep .memoryGibSeconds (sweepResource env sweep .vcpuSeconds db))

def runSweeps (db : UsageDb) (sweeps : List Sweep) : UsageDb :=
  sweeps.foldl (sweepNamespace env) db

end EveHorizon.Usage
