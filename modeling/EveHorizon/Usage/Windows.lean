import EveHorizon.Usage.Sweeper
import Mathlib.Algebra.BigOperators.Ring.List

/-!
# What sweeps bill

What is recorded and charged of a resource over a run of sweeps: its part of each record's
quantity and of the charge for it. Every sweep measures from the start of the resource to
its own time, so two sweeps of a running resource record its first stretch twice.
-/

namespace EveHorizon.Usage

open List

inductive Resource where
  | cpu (pod : Pod)
  | memory (pod : Pod)
  | storage (pvc : Pvc)

def Resource.type : Resource → ResourceType
  | .cpu _ => .vcpuSeconds
  | .memory _ => .memoryGibSeconds
  | .storage _ => .gbHours

def Resource.request : Resource → Number
  | .cpu pod => (pod.containers.map fun container => parseCpuRequest container.cpu).sum
  | .memory pod => (pod.containers.map fun container => parseMemoryToGib container.memory).sum
  | .storage pvc => parseStorageToGb pvc.storage

def Resource.created : Resource → Timestamp
  | .cpu pod | .memory pod => pod.creationTimestamp
  | .storage pvc => pvc.creationTimestamp

def Resource.windowStart : Resource → Timestamp
  | .cpu pod | .memory pod => pod.windowStart
  | .storage pvc => pvc.creationTimestamp

def Resource.unit : Resource → ℚ
  | .cpu _ | .memory _ => secondMs
  | .storage _ => hourMs

def Resource.listed (sweep : Sweep) : Resource → Bool
  | .cpu pod | .memory pod => decide ((pod, PodPhase.running) ∈ sweep.pods)
  | .storage pvc => decide ((pvc, PvcPhase.bound) ∈ sweep.pvcs)

def Resource.share (resource : Resource) (sweep : Sweep) : Number :=
  resource.request.times (window resource.unit resource.windowStart sweep.now)

variable (resource : Resource)

theorem Resource.unit_pos : 0 < resource.unit := by
  cases resource <;> norm_num [Resource.unit, secondMs, hourMs]

theorem Resource.request_nonneg : 0 ≤ resource.request := by
  cases resource with
  | cpu pod =>
    apply sum_nonneg
    intro amount member
    obtain ⟨container, _, rfl⟩ := mem_map.mp member
    exact container.cpu_nonneg
  | memory pod =>
    apply sum_nonneg
    intro amount member
    obtain ⟨container, _, rfl⟩ := mem_map.mp member
    exact container.memory_nonneg
  | storage pvc => exact pvc.storage_nonneg

theorem Number.times_add (left right : Number) (factor : ℚ) :
    (left + right).times factor = left.times factor + right.times factor := by
  cases left using WithTop.recTopCoe with
  | top => rfl
  | coe left =>
    cases right using WithTop.recTopCoe with
    | top => rfl
    | coe right => exact congrArg WithTop.some (add_mul left right factor)

variable {number : Number}

theorem Number.times_nonneg (nonneg : 0 ≤ number) {factor : ℚ} (factorNonneg : 0 ≤ factor) :
    0 ≤ number.times factor := by
  cases number using WithTop.recTopCoe with
  | top => exact le_top
  | coe number =>
    have numberNonneg : 0 ≤ number := WithTop.coe_le_coe.mp nonneg
    exact WithTop.coe_le_coe.mpr (mul_nonneg numberNonneg factorNonneg)

theorem Number.untopD_nonneg (nonneg : 0 ≤ number) : 0 ≤ number.untopD 0 := by
  cases number using WithTop.recTopCoe with
  | top => exact le_refl 0
  | coe number => exact WithTop.coe_le_coe.mp nonneg

theorem window_nonneg (unit : ℚ) (start now : Timestamp) : 0 ≤ window unit start now := le_max_left _ _

theorem Resource.share_nonneg (sweep : Sweep) : 0 ≤ resource.share sweep :=
  Number.times_nonneg resource.request_nonneg (window_nonneg _ _ _)

def shares (sweep : Sweep) : ResourceType → List Number
  | .vcpuSeconds => sweep.pods.map fun entry =>
    if entry.2 = .running then (Resource.cpu entry.1).share sweep else 0
  | .memoryGibSeconds => sweep.pods.map fun entry =>
    if entry.2 = .running then (Resource.memory entry.1).share sweep else 0
  | .gbHours => sweep.pvcs.map fun entry =>
    if entry.2 = .bound then (Resource.storage entry.1).share sweep else 0

theorem foldl_addContainer (containers : List Container) (factor : ℚ) (totals : Number × Number) :
    containers.foldl (addContainer factor) totals = (totals.1 + ((containers.map fun container =>
          parseCpuRequest container.cpu).sum).times factor, totals.2 + ((containers.map fun container =>
          parseMemoryToGib container.memory).sum).times factor) := by
  induction containers generalizing totals with
  | nil =>
    have zero : Number.times 0 factor = 0 := congrArg WithTop.some (zero_mul factor)
    simp [zero]
  | cons container rest ih =>
    simp only [foldl_cons, ih, addContainer, map_cons, sum_cons, Number.times_add, add_assoc]

variable (sweep : Sweep)

theorem foldl_addPod (pods : List (Pod × PodPhase)) (totals : Number × Number) :
    pods.foldl (addPod sweep.now) totals = (totals.1 + (pods.map fun entry =>
          if entry.2 = .running then (Resource.cpu entry.1).share sweep else 0).sum, totals.2 + (pods.map fun entry =>
          if entry.2 = .running then (Resource.memory entry.1).share sweep else 0).sum) := by
  induction pods generalizing totals with
  | nil => simp
  | cons entry rest ih =>
    rw [foldl_cons, ih]
    by_cases running : entry.2 = .running
    · simp only [addPod, running, ↓reduceIte, foldl_addContainer, map_cons, sum_cons, add_assoc]
      rfl
    · simp only [addPod, running, ↓reduceIte, map_cons, sum_cons, zero_add]

theorem foldl_addPvc (pvcs : List (Pvc × PvcPhase)) (total : Number) :
    pvcs.foldl (addPvc sweep.now) total = total + (pvcs.map fun entry =>
        if entry.2 = .bound then (Resource.storage entry.1).share sweep else 0).sum := by
  induction pvcs generalizing total with
  | nil => simp
  | cons entry rest ih =>
    rw [foldl_cons, ih]
    by_cases bound : entry.2 = .bound
    · simp only [addPvc, bound, ↓reduceIte, map_cons, sum_cons, add_assoc]
      rfl
    · simp only [addPvc, bound, ↓reduceIte, map_cons, sum_cons, zero_add]

def requested (sweep : Sweep) (resourceType : ResourceType) : Number := (shares sweep resourceType).sum

variable (resourceType : ResourceType)

theorem total_eq : total sweep resourceType = requested sweep resourceType := by
  cases resourceType with
  | vcpuSeconds | memoryGibSeconds =>
    rw [total, podTotals, foldl_addPod]
    exact zero_add _
  | gbHours =>
    rw [total, totalGbHours, foldl_addPvc]
    exact zero_add _

theorem shares_nonneg : ∀ amount ∈ shares sweep resourceType, 0 ≤ amount := by
  intro amount member
  cases resourceType with
  | vcpuSeconds | memoryGibSeconds | gbHours =>
    obtain ⟨entry, _, rfl⟩ := mem_map.mp member
    split
    · exact Resource.share_nonneg _ sweep
    · exact le_refl 0

variable {sweep : Sweep} {resource : Resource}

theorem share_le_requested (listed : resource.listed sweep = true) :
    resource.share sweep ≤ requested sweep resource.type := by
  apply single_le_sum (shares_nonneg sweep resource.type)
  cases resource with
  | cpu pod | memory pod =>
    exact mem_map.mpr ⟨(pod, .running), of_decide_eq_true listed, if_pos rfl⟩
  | storage pvc =>
    exact mem_map.mpr ⟨(pvc, .bound), of_decide_eq_true listed, if_pos rfl⟩

variable (sweep)

/-- The quantity of the record a sweep writes: what is requested in the
namespace, to four decimals. -/
def quantityOf (resourceType : ResourceType) : ℚ :=
  Decimal.toFixed 4 ((requested sweep resourceType).untopD 0)

/-- The amount charged for that record, to ten decimals. -/
def chargeOf (resourceType : ResourceType) : ℚ :=
  if sweep.ledgerTakes resourceType then
    Decimal.toFixed 10 (quantityOf sweep resourceType * defaultUsageRate resourceType)
  else 0

theorem requested_nonneg (resourceType : ResourceType) : 0 ≤ (requested sweep resourceType).untopD 0 :=
  Number.untopD_nonneg (sum_nonneg (shares_nonneg sweep resourceType))

theorem quantityOf_nonneg (resourceType : ResourceType) : 0 ≤ quantityOf sweep resourceType :=
  Decimal.toFixed_nonneg 4 (requested_nonneg sweep resourceType)

theorem defaultUsageRate_pos : 0 < defaultUsageRate resourceType := by
  cases resourceType <;> norm_num [defaultUsageRate]

theorem chargeOf_nonneg (resourceType : ResourceType) : 0 ≤ chargeOf sweep resourceType := by
  have priced := mul_nonneg (quantityOf_nonneg sweep resourceType) (defaultUsageRate_pos resourceType).le
  unfold chargeOf
  split
  · exact Decimal.toFixed_nonneg 10 priced
  · exact le_refl 0

variable {sweep}

def Environment.recordOf (env : Environment) (sweep : Sweep) (resourceType : ResourceType) : Option UsageRecord :=
  if 0 < (requested sweep resourceType).untopD 0 then
    some (env.record sweep resourceType (quantityOf sweep resourceType))
  else none

def UsageDb.swept (db : UsageDb) (sourceId : String) (resourceType : ResourceType) : Option UsageRecord :=
  db.findBySource "k8s_sweep" sourceId resourceType

def UsageDb.chargedFor (db : UsageDb) (recordId : String) : ℚ :=
  ((db.charges.filter fun charge =>
    charge.sourceType == "usage_record" && charge.sourceId == recordId).map (·.amount)).sum

theorem toFixed_zero (digits : Nat) : Decimal.toFixed digits 0 = 0 :=
  Decimal.toFixed_eq_self (show (0 : ℚ) * 10 ^ digits = (0 : Int) by simp)

variable {resourceType : ResourceType}

theorem quantityOf_zero (nothing : ¬ 0 < (requested sweep resourceType).untopD 0) :
    quantityOf sweep resourceType = 0 := by
  rw [quantityOf, le_antisymm (not_lt.mp nothing) (requested_nonneg sweep resourceType), toFixed_zero]

theorem chargeOf_zero (nothing : quantityOf sweep resourceType = 0) : chargeOf sweep resourceType = 0 := by
  rw [chargeOf, nothing, zero_mul, toFixed_zero, ite_self]

section

variable (env : Environment)

theorem sweepResource_eq (sweep : Sweep) (resourceType : ResourceType) (db : UsageDb) :
    sweepResource env sweep resourceType db = match env.recordOf sweep resourceType with
      | none => db
      | some record => writeUsageRecord (sweep.ledgerTakes resourceType) record db := by
  unfold sweepResource Environment.recordOf quantityOf
  rw [total_eq]
  cases requested sweep resourceType using WithTop.recTopCoe with
  | top => rfl
  | coe quantity =>
    rw [WithTop.untopD_coe]
    change (if 0 < quantity then _ else _) = _
    split <;> rfl

def priceOf (ledgerTakes : Bool) (record : UsageRecord) : ℚ :=
  if ledgerTakes then Decimal.toFixed 10 (record.quantity * defaultUsageRate record.resourceType) else 0

theorem chargeForRecord_cases (ledgerTakes : Bool) (record : UsageRecord) (nonneg : 0 ≤ record.quantity) :
    (chargeForRecord ledgerTakes record = none ∧ priceOf ledgerTakes record = 0) ∨
      ∃ charge, chargeForRecord ledgerTakes record = some charge ∧ charge.sourceType = "usage_record" ∧
        charge.sourceId = record.id ∧ charge.amount = priceOf ledgerTakes record := by
  have priced := Decimal.toFixed_nonneg 10 (mul_nonneg nonneg (defaultUsageRate_pos record.resourceType).le)
  simp only [chargeForRecord, priceOf]
  by_cases nothing : record.quantity ≤ 0
  · rw [if_pos nothing, le_antisymm nothing nonneg, zero_mul, toFixed_zero, ite_self]
    exact .inl ⟨rfl, rfl⟩
  rw [if_neg nothing]
  by_cases free : Decimal.toFixed 10 (record.quantity * defaultUsageRate record.resourceType) ≤ 0
  · rw [if_pos free, le_antisymm free priced, ite_self]
    exact .inl ⟨rfl, rfl⟩
  rw [if_neg free]
  cases ledgerTakes with
  | false => exact .inl ⟨rfl, rfl⟩
  | true => exact .inr ⟨_, rfl, rfl, rfl, rfl⟩

/-- What the tables hold of a sweep's use of a kind of resource: its record and what is
charged for it. -/
def UsageDb.ledgerOf (db : UsageDb) (entry : Sweep × ResourceType) : Option UsageRecord × ℚ :=
  (db.swept (env.sourceId entry.1) entry.2, db.chargedFor (env.recordId entry.1.sweepId entry.2))

variable {entry : Sweep × ResourceType}

theorem ledgerOf_own {db : UsageDb} (unused : db.ledgerOf env entry = (none, 0)) :
    (sweepResource env entry.1 entry.2 db).ledgerOf env entry =
      (env.recordOf entry.1 entry.2, chargeOf entry.1 entry.2) := by
  obtain ⟨free, uncharged⟩ := Prod.mk.inj unused
  rw [sweepResource_eq]
  unfold Environment.recordOf
  split_ifs with positive
  · let record := env.record entry.1 entry.2 (quantityOf entry.1 entry.2)
    have kept : db.findBySource record.sourceType record.sourceId record.resourceType = none := free
    change (writeUsageRecord _ record db).ledgerOf env entry = _
    rw [writeUsageRecord, kept]
    rw [UsageDb.swept, UsageDb.findBySource] at free
    rw [UsageDb.chargedFor] at uncharged
    refine Prod.ext ?_ ?_
    · simp [UsageDb.ledgerOf, UsageDb.swept, UsageDb.findBySource, free, record, Environment.record]
    · rw [UsageDb.ledgerOf, UsageDb.chargedFor, filter_append, map_append, sum_append, uncharged, zero_add]
      rcases chargeForRecord_cases (entry.1.ledgerTakes entry.2) record (quantityOf_nonneg entry.1 entry.2)
        with ⟨nothing, zero⟩ | ⟨charge, isCharge, isType, isSource, amount⟩
      · rw [nothing]
        exact zero.symm
      · rw [isCharge, Option.toList_some, filter_singleton, isType, isSource]
        have priced : charge.amount = chargeOf entry.1 entry.2 := amount
        simp [record, Environment.record, priced]
  · rw [chargeOf_zero (quantityOf_zero positive)]
    exact unused

theorem ledgerOf_other {other : Sweep × ResourceType}
    (sources : ¬(env.sourceId other.1 = env.sourceId entry.1 ∧ other.2 = entry.2))
    (ids : env.recordId other.1.sweepId other.2 ≠ env.recordId entry.1.sweepId entry.2) (db : UsageDb) :
    (sweepResource env other.1 other.2 db).ledgerOf env entry = db.ledgerOf env entry := by
  rw [sweepResource_eq]
  unfold Environment.recordOf
  split_ifs
  · let record := env.record other.1 other.2 (quantityOf other.1 other.2)
    change (writeUsageRecord _ record db).ledgerOf env entry = _
    rw [writeUsageRecord]
    split
    · rfl
    · refine Prod.ext ?_ ?_
      · have skipped : ¬(record.sourceId = env.sourceId entry.1 ∧ record.resourceType = entry.2) := sources
        rw [UsageDb.ledgerOf, UsageDb.swept, UsageDb.findBySource, find?_append, find?_singleton,
          if_neg (by simpa [and_assoc] using fun _ => not_and.mp skipped), Option.or_none]
        rfl
      · rw [UsageDb.ledgerOf, UsageDb.chargedFor, filter_append, map_append, sum_append]
        rcases chargeForRecord_cases (other.1.ledgerTakes other.2) record (quantityOf_nonneg other.1 other.2)
          with ⟨nothing, _⟩ | ⟨charge, isCharge, isType, isSource, _⟩
        · rw [nothing]
          exact add_zero _
        · have unmatched : (charge.sourceId == env.recordId entry.1.sweepId entry.2) = false :=
            beq_eq_false_iff_ne.mpr (isSource ▸ ids)
          rw [isCharge, Option.toList_some, filter_singleton, unmatched, Bool.and_false]
          exact add_zero _
  · rfl

end

/-- Sweeps of a namespace one after the other. The ids are fresh: those of the sweeps and
those of the records they write. -/
structure SweepRun where
  env : Environment
  start : UsageDb
  sweeps : List Sweep
  distinct : (sweeps.map (·.sweepId)).Nodup
  increasing : (sweeps.map (·.now)).Pairwise (· < ·)
  unused : ∀ sweep ∈ sweeps, ∀ resourceType, start.swept (env.sourceId sweep) resourceType = none
  uncharged : ∀ sweep ∈ sweeps, ∀ resourceType, start.chargedFor (env.recordId sweep.sweepId resourceType) = 0
  recordIds : ∀ first ∈ sweeps, ∀ second ∈ sweeps, ∀ left right,
    env.recordId first.sweepId left = env.recordId second.sweepId right →
      first.sweepId = second.sweepId ∧ left = right

namespace SweepRun

variable (run : SweepRun)

def final : UsageDb := runSweeps run.env run.start run.sweeps

variable {run} {sweep : Sweep}

theorem sourceId_injective {other : Sweep} (same : run.env.sourceId other = run.env.sourceId sweep) :
    other.sweepId = sweep.sweepId := by
  simpa [Environment.sourceId] using same

theorem ledgerOf_others {entries : List (Sweep × ResourceType)} {entry : Sweep × ResourceType}
    (inRun : ∀ other ∈ entries, other.1 ∈ run.sweeps) (member : entry.1 ∈ run.sweeps) (others : entry ∉ entries)
    (db : UsageDb) : (entries.foldl (fun db other => sweepResource run.env other.1 other.2 db) db).ledgerOf run.env
      entry =
      db.ledgerOf run.env entry := by
  induction entries generalizing db with
  | nil => rfl
  | cons other rest ih =>
    have ran := inRun other mem_cons_self
    have apart : ¬(other.1.sweepId = entry.1.sweepId ∧ other.2 = entry.2) := by
      rintro ⟨sameSweep, sameType⟩
      have same : other = entry := Prod.ext (inj_on_of_nodup_map run.distinct ran member sameSweep) sameType
      exact others (same ▸ mem_cons_self)
    rw [foldl_cons, ih (fun later isLater => inRun later (mem_cons_of_mem other isLater))
      (fun isLater => others (mem_cons_of_mem other isLater)), ledgerOf_other]
    · exact fun same => apart ⟨sourceId_injective same.1, same.2⟩
    · exact fun same => apart (run.recordIds _ ran _ member _ _ same)

/-- What the run leaves of a sweep: its record, with the rounded total, and its charge. -/
theorem ledger_of_sweep (member : sweep ∈ run.sweeps) (resourceType : ResourceType) :
    run.final.ledgerOf run.env (sweep, resourceType) =
      (run.env.recordOf sweep resourceType, chargeOf sweep resourceType) := by
  let types : List ResourceType := [.vcpuSeconds, .memoryGibSeconds, .gbHours]
  have written : run.final =
      (run.sweeps.product types).foldl (fun db entry => sweepResource run.env entry.1 entry.2 db) run.start := by
    rw [List.product, foldl_flatMap]
    rfl
  have listed : (sweep, resourceType) ∈ run.sweeps.product types :=
    pair_mem_product.mpr ⟨member, by cases resourceType <;> decide⟩
  have distinct : (run.sweeps.product types).Nodup := run.distinct.of_map.product (by decide)
  have inRun : ∀ entry ∈ run.sweeps.product types, entry.1 ∈ run.sweeps :=
    fun entry isEntry => (pair_mem_product.mp isEntry).1
  obtain ⟨before, after, split⟩ := append_of_mem listed
  rw [split] at distinct inRun written
  have others := (nodup_middle.mp distinct).notMem
  rw [mem_append, not_or] at others
  rw [written, foldl_append, foldl_cons,
    ledgerOf_others (fun entry later => inRun entry (mem_append_right before (mem_cons_of_mem _ later))) member
      others.2,
    ledgerOf_own]
  rw [ledgerOf_others (fun entry earlier => inRun entry (mem_append_left _ earlier)) member others.1]
  exact Prod.ext (run.unused sweep member resourceType) (run.uncharged sweep member resourceType)

variable (run)

/-- The quantity of the record that the run holds of a sweep. -/
def quantity (sweep : Sweep) (resourceType : ResourceType) : ℚ :=
  ((run.final.swept (run.env.sourceId sweep) resourceType).map (·.quantity)).getD 0

/-- What is charged for the record that the run holds of a sweep. -/
def charged (sweep : Sweep) (resourceType : ResourceType) : ℚ :=
  ((run.final.swept (run.env.sourceId sweep) resourceType).map fun record => run.final.chargedFor record.id).getD 0

variable {run}

theorem quantity_eq (member : sweep ∈ run.sweeps) (resourceType : ResourceType) :
    run.quantity sweep resourceType = quantityOf sweep resourceType := by
  rw [quantity, (Prod.mk.inj (ledger_of_sweep member resourceType)).1, Environment.recordOf]
  split_ifs with positive
  · rfl
  · exact (quantityOf_zero positive).symm

theorem untopD_sum {numbers : List Number} (finite : numbers.sum ≠ ⊤) :
    (numbers.map (·.untopD 0)).sum = numbers.sum.untopD 0 := by
  induction numbers with
  | nil => rfl
  | cons number rest ih =>
    rw [sum_cons] at finite ⊢
    obtain ⟨isNumber, areNumbers⟩ := WithTop.add_ne_top.mp finite
    obtain ⟨amount, rfl⟩ := WithTop.ne_top_iff_exists.mp isNumber
    obtain ⟨others, isOthers⟩ := WithTop.ne_top_iff_exists.mp areNumbers
    rw [map_cons, sum_cons, ih areNumbers, ← isOthers]
    rfl

/-- The parts of what a sweep lists make up the quantity of its record. -/
theorem quantity_shared_out (member : sweep ∈ run.sweeps) {resourceType : ResourceType}
    (finite : requested sweep resourceType ≠ ⊤) :
    ((shares sweep resourceType).map fun share => run.quantity sweep resourceType *
      (share.untopD 0 / (requested sweep resourceType).untopD 0)).sum = run.quantity sweep resourceType := by
  simp only [div_eq_mul_inv]
  rw [sum_map_mul_left, sum_map_mul_right, untopD_sum finite, quantity_eq member]
  by_cases positive : 0 < (requested sweep resourceType).untopD 0
  · rw [requested] at positive ⊢
    rw [mul_inv_cancel₀ positive.ne', mul_one]
  · rw [quantityOf_zero positive, zero_mul]

theorem charged_eq (member : sweep ∈ run.sweeps) (resourceType : ResourceType) :
    run.charged sweep resourceType = chargeOf sweep resourceType := by
  obtain ⟨record, amount⟩ := Prod.mk.inj (ledger_of_sweep member resourceType)
  rw [charged, record, Environment.recordOf]
  split_ifs with positive
  · exact amount
  · exact (chargeOf_zero (quantityOf_zero positive)).symm

end SweepRun

namespace Resource

/-- The part of its namespace's total that a listed resource makes up. -/
def part (resource : Resource) (sweep : Sweep) : ℚ :=
  if resource.listed sweep then (resource.share sweep).untopD 0 / (requested sweep resource.type).untopD 0 else 0

/-- The sweep finds the resource running for some time, with a positive request, in a
namespace whose total is a number that does not round to zero. -/
def bills (resource : Resource) (sweep : Sweep) : Bool :=
  resource.listed sweep && decide (resource.windowStart < sweep.now) &&
    decide (0 < resource.request) && decide (requested sweep resource.type ≠ ⊤) &&
      decide (0 < quantityOf sweep resource.type)

end Resource

theorem share_eq {amount : ℚ} (request : resource.request = amount) (sweep : Sweep) :
    resource.share sweep = ((amount * window resource.unit resource.windowStart sweep.now : ℚ) : Number) := by
  rw [Resource.share, request]
  rfl

theorem window_pos_iff {unit : ℚ} (unitPos : 0 < unit) (start now : Timestamp) :
    0 < window unit start now ↔ start < now := by
  rw [window, lt_max_iff]
  simp [div_pos_iff_of_pos_right unitPos]

namespace SweepRun

variable (run : SweepRun) (resource)

/-- The resource's part of the quantity that the run's record of a sweep holds. -/
def recordedShare (sweep : Sweep) : ℚ :=
  run.quantity sweep resource.type * resource.part sweep

/-- The resource's part of what is charged for that record. -/
def chargedShare (sweep : Sweep) : ℚ :=
  run.charged sweep resource.type * resource.part sweep

def recordedAmount : ℚ := (run.sweeps.map (run.recordedShare resource)).sum

def chargedAmount : ℚ := (run.sweeps.map (run.chargedShare resource)).sum

def existed : ℚ :=
  (run.sweeps.filter (resource.listed ·)).foldr
    (fun sweep longest => max (((sweep.now : ℚ) - resource.created) / resource.unit) longest) 0

def RecordsTwice (first second : Sweep) : Prop :=
  0 < run.recordedShare resource first ∧ 0 < run.recordedShare resource second ∧
    resource.windowStart < min first.now second.now

variable {resource}

/-- What the sweeps record of the resource is at most its request times the time it
existed, what they charge at most that at the rate, and no stretch is recorded twice. -/
structure BilledOnce (resource : Resource) : Prop where
  recorded : run.recordedAmount resource ≤ resource.request.untopD 0 * run.existed resource
  charged : run.chargedAmount resource ≤
    resource.request.untopD 0 * run.existed resource * defaultUsageRate resource.type
  apart : run.sweeps.Pairwise fun first second => ¬ run.RecordsTwice resource first second

/-- The roundings of the total and of its price do not raise the resource's part above
the time it existed. -/
structure RoundsWithin (resource : Resource) (sweep : Sweep) : Prop where
  quantity : quantityOf sweep resource.type * window resource.unit resource.windowStart sweep.now ≤
    (requested sweep resource.type).untopD 0 * run.existed resource
  charge : chargeOf sweep resource.type * window resource.unit resource.windowStart sweep.now ≤
    (requested sweep resource.type).untopD 0 * run.existed resource * defaultUsageRate resource.type

end SweepRun

open SweepRun

/-- A resource that a sweep bills has a positive request, window and total. -/
theorem amounts_of_bills (bills : resource.bills sweep = true) :
    ∃ request total' : ℚ, resource.request = request ∧ 0 < request ∧
      0 < window resource.unit resource.windowStart sweep.now ∧
      (requested sweep resource.type).untopD 0 = total' ∧ 0 < total' ∧
      resource.part sweep = request * window resource.unit resource.windowStart sweep.now / total' := by
  simp only [Resource.bills, Bool.and_eq_true, decide_eq_true_eq] at bills
  obtain ⟨⟨⟨⟨listed, running⟩, requests⟩, finite⟩, _⟩ := bills
  obtain ⟨amount, isTotal⟩ := WithTop.ne_top_iff_exists.mp finite
  have bounded := share_le_requested listed
  cases request : resource.request using WithTop.recTopCoe with
  | top =>
    have share : resource.share sweep = ⊤ := by rw [Resource.share, request]; rfl
    rw [share, top_le_iff] at bounded
    exact absurd bounded finite
  | coe request' =>
    rw [request, WithTop.coe_pos] at requests
    rw [share_eq request, ← isTotal, WithTop.coe_le_coe] at bounded
    have window := (window_pos_iff resource.unit_pos resource.windowStart sweep.now).mpr running
    refine ⟨request', amount, rfl, requests, window, by rw [← isTotal, WithTop.untopD_coe], ?_, ?_⟩
    · exact lt_of_lt_of_le (mul_pos requests window) bounded
    · rw [Resource.part, if_pos listed, share_eq request, ← isTotal, WithTop.untopD_coe, WithTop.untopD_coe]

theorem part_nonneg (resource : Resource) (sweep : Sweep) : 0 ≤ resource.part sweep := by
  unfold Resource.part
  split
  · exact div_nonneg (Number.untopD_nonneg (resource.share_nonneg sweep)) (requested_nonneg sweep resource.type)
  · exact le_refl 0

/-- Of a sweep that does not bill the resource nothing is recorded. -/
theorem unbilled (unbilled : resource.bills sweep = false) :
    quantityOf sweep resource.type = 0 ∨ resource.part sweep = 0 := by
  by_contra both
  obtain ⟨quantity, part⟩ := not_or.mp both
  have positive : 0 < quantityOf sweep resource.type :=
    lt_of_le_of_ne (quantityOf_nonneg sweep resource.type) (Ne.symm quantity)
  have finite : requested sweep resource.type ≠ ⊤ := by
    intro isTop
    rw [quantityOf, isTop, WithTop.untopD_top, toFixed_zero] at positive
    exact lt_irrefl 0 positive
  unfold Resource.part at part
  split_ifs at part with listed
  · have share : (resource.share sweep).untopD 0 ≠ 0 := fun zero => part (by rw [zero, zero_div])
    cases request : resource.request using WithTop.recTopCoe with
    | top =>
      have isTop : resource.share sweep = ⊤ := by rw [Resource.share, request]; rfl
      rw [isTop, WithTop.untopD_top] at share
      exact share rfl
    | coe amount =>
      rw [share_eq request, WithTop.untopD_coe] at share
      have requests : 0 < resource.request :=
        lt_of_le_of_ne resource.request_nonneg fun zero => by
          rw [request] at zero
          exact share (by rw [WithTop.coe_eq_zero.mp zero.symm, zero_mul])
      have running := (window_pos_iff resource.unit_pos resource.windowStart sweep.now).mp
        (lt_of_le_of_ne (window_nonneg _ _ _) (Ne.symm (right_ne_zero_of_mul share)))
      simp [Resource.bills, listed, running, requests, finite, positive] at unbilled
  · exact part rfl

variable {run : SweepRun} {resource : Resource} {sweep : Sweep}

theorem recordedShare_nonneg (member : sweep ∈ run.sweeps) : 0 ≤ run.recordedShare resource sweep := by
  rw [recordedShare, quantity_eq member]
  exact mul_nonneg (quantityOf_nonneg _ _) (part_nonneg resource sweep)

theorem chargedShare_nonneg (member : sweep ∈ run.sweeps) : 0 ≤ run.chargedShare resource sweep := by
  rw [chargedShare, charged_eq member]
  exact mul_nonneg (chargeOf_nonneg _ _) (part_nonneg resource sweep)

theorem shares_of_unbilled (member : sweep ∈ run.sweeps) (isUnbilled : resource.bills sweep = false) :
    run.recordedShare resource sweep = 0 ∧ run.chargedShare resource sweep = 0 := by
  rw [recordedShare, chargedShare, quantity_eq member, charged_eq member]
  rcases unbilled isUnbilled with quantity | part
  · rw [quantity, chargeOf_zero quantity, zero_mul]
    exact ⟨rfl, rfl⟩
  · rw [part, mul_zero, mul_zero]
    exact ⟨rfl, rfl⟩

theorem recordedShare_pos_iff (member : sweep ∈ run.sweeps) :
    0 < run.recordedShare resource sweep ↔ resource.bills sweep = true := by
  constructor
  · intro counted
    by_contra notBilled
    rw [(shares_of_unbilled member (Bool.eq_false_of_not_eq_true notBilled)).1] at counted
    exact lt_irrefl 0 counted
  · intro bills
    obtain ⟨request, amount, _, requests, window, _, positive, isPart⟩ := amounts_of_bills bills
    have quantity : 0 < quantityOf sweep resource.type := by
      simp only [Resource.bills, Bool.and_eq_true, decide_eq_true_eq] at bills
      exact bills.2
    rw [recordedShare, quantity_eq member, isPart]
    exact mul_pos quantity (div_pos (mul_pos requests window) positive)

variable {bound : ℚ}

theorem part_le_iff {rounded request amount total' stretch : ℚ} (requests : 0 < request) (positive : 0 < total')
    (isPart : amount = request * stretch / total') :
    rounded * amount ≤ request * bound ↔ rounded * stretch ≤ total' * bound := by
  have scaled : rounded * amount * total' = request * (rounded * stretch) := by
    rw [isPart, mul_assoc, div_mul_cancel₀ _ positive.ne', mul_left_comm]
  rw [← mul_le_mul_iff_left₀ positive, scaled, mul_assoc, mul_comm bound, mul_le_mul_iff_right₀ requests]

/-- What a sweep records and charges of a resource is within its request over its
existence exactly when the roundings keep it there. -/
theorem shares_le_iff (member : sweep ∈ run.sweeps) (bills : resource.bills sweep = true) :
    (run.recordedShare resource sweep ≤ resource.request.untopD 0 * run.existed resource ∧
      run.chargedShare resource sweep ≤
        resource.request.untopD 0 * run.existed resource * defaultUsageRate resource.type) ↔
    run.RoundsWithin resource sweep := by
  obtain ⟨request, amount, isRequest, requests, _, isTotal, positive, isPart⟩ := amounts_of_bills bills
  rw [recordedShare, chargedShare, quantity_eq member, charged_eq member, isRequest, WithTop.untopD_coe, mul_assoc,
    part_le_iff requests positive isPart, part_le_iff requests positive isPart]
  constructor
  · rintro ⟨quantity, charge⟩
    exact ⟨by rwa [isTotal], by rwa [isTotal, mul_assoc]⟩
  · rintro ⟨quantity, charge⟩
    rw [isTotal] at quantity charge
    exact ⟨quantity, by rwa [mul_assoc] at charge⟩

theorem existed_nonneg (run : SweepRun) (resource : Resource) : 0 ≤ run.existed resource := by
  unfold SweepRun.existed
  induction run.sweeps.filter (resource.listed ·) with
  | nil => exact le_refl 0
  | cons other rest ih => exact le_trans ih (le_max_right _ _)

variable {α : Type}

theorem countP_le_one_iff_pairwise (test : α → Bool) (items : List α) :
    items.countP test ≤ 1 ↔ items.Pairwise fun first second => ¬ (test first = true ∧ test second = true) := by
  induction items with
  | nil => simp
  | cons item rest ih =>
    rw [pairwise_cons, ← ih, countP_cons]
    cases passes : test item with
    | false => simp
    | true =>
      simp only [↓reduceIte, true_and, Bool.not_eq_true]
      rw [show rest.countP test + 1 ≤ 1 ↔ rest.countP test = 0 by omega, countP_eq_zero]
      constructor
      · intro none
        refine ⟨fun other member => by simpa using none other member, ?_⟩
        exact (countP_eq_zero.mpr none).le.trans (Nat.zero_le 1)
      · rintro ⟨none, _⟩ other member
        simp [none other member]

theorem sum_le_of_countP_le_one {test : α → Bool} {amount : α → ℚ} (nonneg : 0 ≤ bound) {items : List α}
    (bounded : ∀ item ∈ items, amount item ≤ bound) (skipped : ∀ item ∈ items, test item = false → amount item = 0)
    (once : items.countP test ≤ 1) : (items.map amount).sum ≤ bound := by
  induction items with
  | nil => exact nonneg
  | cons item rest ih =>
    rw [map_cons, sum_cons]
    rw [countP_cons] at once
    cases passes : test item with
    | false =>
      rw [skipped item mem_cons_self passes, zero_add]
      exact ih (fun other member => bounded other (mem_cons_of_mem item member))
        (fun other member => skipped other (mem_cons_of_mem item member)) (by omega)
    | true =>
      have none : rest.countP test = 0 := by
        simp only [passes, ↓reduceIte] at once
        omega
      have zero : (rest.map amount).sum = 0 := by
        apply sum_eq_zero
        intro value member
        obtain ⟨other, present, rfl⟩ := mem_map.mp member
        exact skipped other (mem_cons_of_mem item present) (by simpa using countP_eq_zero.mp none other present)
      rw [zero, add_zero]
      exact bounded item mem_cons_self

theorem apart_iff (run : SweepRun) (resource : Resource) :
    (run.sweeps.Pairwise fun first second => ¬ run.RecordsTwice resource first second) ↔
      run.sweeps.countP resource.bills ≤ 1 := by
  have twice : ∀ first ∈ run.sweeps, ∀ second ∈ run.sweeps, (run.RecordsTwice resource first second ↔
        resource.bills first = true ∧ resource.bills second = true) := by
    intro first member second other
    rw [RecordsTwice, recordedShare_pos_iff member, recordedShare_pos_iff other]
    refine ⟨fun both => ⟨both.1, both.2.1⟩, fun both => ⟨both.1, both.2, ?_⟩⟩
    simp only [Resource.bills, Bool.and_eq_true, decide_eq_true_eq] at both
    exact lt_min both.1.1.1.1.2 both.2.1.1.1.2
  rw [countP_le_one_iff_pairwise]
  exact List.Pairwise.iff_of_mem fun member other => not_congr (twice _ member _ other)

def onePod : Pod where
  name := "web"
  creationTimestamp := 0
  startTime := some 0
  containers := [{
    name := "app", cpu := some "1", memory := none
    cpu_nonneg := by decide +kernel, memory_nonneg := by decide +kernel }]
  started := by simp

def sweepAt (sweepId : String) (now : Timestamp) : Sweep where
  sweepId := sweepId
  now := now
  ledgerTakes := fun _ => true
  pods := [(onePod, .running)]
  pvcs := []
  pods_distinct := by simp
  pvcs_distinct := by simp
  pods_created := by simp [onePod]
  pvcs_created := by simp

def twoSweeps : SweepRun where
  env := {
    orgId := "org", projectId := "proj", envId := "env", namespaceName := "ns"
    recordId := fun sweepId resourceType => sweepId ++ match resourceType with
      | .vcpuSeconds => "c"
      | .memoryGibSeconds => "m"
      | .gbHours => "g" }
  start := {}
  sweeps := [sweepAt "sweep_1" 300000, sweepAt "sweep_2" 600000]
  distinct := by decide
  increasing := by decide
  unused := fun _ _ _ => rfl
  uncharged := fun _ _ _ => rfl
  recordIds := by
    intro first member second other left right same
    simp only [mem_cons, not_mem_nil, or_false] at member other
    rcases member with rfl | rfl <;> rcases other with rfl | rfl <;> cases left <;> cases right <;>
      first | exact ⟨rfl, rfl⟩ | exact absurd same (by decide)

end EveHorizon.Usage
