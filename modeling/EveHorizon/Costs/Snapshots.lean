import EveHorizon.Costs.Allocations
import EveHorizon.Library.Upserts
import EveHorizon.Library.Visits
import Mathlib.Tactic.Ring

/-!
# Cost snapshots

Each run of the collector books the allocations of the month to the environments they
belong to, and the others as shared overhead, and writes one row for each over the row of
an earlier run.
-/

namespace EveHorizon.Costs

open List
open Table (Keyed)

structure Moment where
  month : Nat
  offset : Nat
  deriving DecidableEq

def monthStartUtc (date : Moment) : Moment :=
  { date with offset := 0 }

structure Org where
  id : Text
  name : Option Text
  slug : Option Text

structure Project where
  id : Text
  orgId : Text
  name : Text
  slug : Text

structure Environment where
  id : Text
  projectId : Text
  name : Text
  namespaceName : Option Text
  active : Bool
  createdAt : Nat

inductive CostScope where
  | environment | sharedOverhead
  deriving DecidableEq

structure Snapshot where
  aggregationKey : Text
  environmentId : Option Text
  orgId : Option Text
  projectId : Option Text
  environmentSlug : Option Text
  scope : CostScope
  source : Text
  windowStart : Moment
  windowEnd : Moment
  amountUsd : ℚ
  sharedAmountUsd : Option ℚ
  breakdown : List Json
  observedAt : Moment
  nonneg : 0 ≤ amountUsd

def Snapshot.key (row : Snapshot) : Text × Text × Moment := (row.aggregationKey, row.source, row.windowStart)

structure CostDb where
  orgs : List Org
  projects : List Project
  environments : List Environment
  snapshots : Keyed Snapshot.key

namespace CostDb

def findProject (db : CostDb) (id : Text) : Option Project := db.projects.find? (·.id == id)

def findOrg (db : CostDb) (id : Text) : Option Org := db.orgs.find? (·.id == id)

def listActive (db : CostDb) : List Environment :=
  (db.environments.filter (·.active)).insertionSort fun first second =>
    second.createdAt ≤ first.createdAt

end CostDb

structure EnvironmentCostTotals where
  totalUsd : ℚ
  envTotalUsd : ℚ
  sharedUsd : ℚ
  envCount : Nat

variable (db : CostDb)

def CostDb.monthRows (windowStart : Moment) (source : Text) : List Snapshot :=
  db.snapshots.rows.filter fun row => row.windowStart == windowStart && row.source == source

def CostDb.totalForMonth (windowStart : Moment) (source : Text) : EnvironmentCostTotals :=
  let rows := db.monthRows windowStart source
  let environments := rows.filter (·.scope == .environment)
  { totalUsd := (rows.map (·.amountUsd)).sum
    envTotalUsd := (environments.map (·.amountUsd)).sum
    sharedUsd := ((rows.filter (·.scope == .sharedOverhead)).map (·.amountUsd)).sum
    envCount := environments.length }

structure EnvCostTarget where
  environmentId : Text
  orgId : Text
  projectId : Text
  environmentSlug : Text
  namespaceName : Text

def nonempty (text : Option Text) : Option Text := text.filter (· ≠ [])

def formatEnvironmentDisplayPath (orgLabel projectLabel environmentLabel : Text) : Text :=
  " / ".toList.intercalate
    (([orgLabel, projectLabel, environmentLabel].map Text.trim).filter (· ≠ []))

def environmentTarget (env : Environment) : Option EnvCostTarget := do
  let namespaceName ← nonempty env.namespaceName
  let project ← db.findProject env.projectId
  let org := db.findOrg project.orgId
  let orgLabel := ((org.bind (·.slug)) <|> (org.bind (·.name))).getD project.orgId
  let projectLabel := ((nonempty (some project.name)) <|> (nonempty (some project.slug))).getD env.projectId
  return { environmentId := env.id, orgId := project.orgId, projectId := env.projectId
           environmentSlug := formatEnvironmentDisplayPath orgLabel projectLabel env.name
           namespaceName }

def targets : List EnvCostTarget := db.listActive.filterMap (environmentTarget db)

variable (known : List EnvCostTarget) (allocation : RawAllocation)

/-- The environment an allocation belongs to, by its label or by its namespace; of several
in one namespace it is the last one. -/
def resolve : Option EnvCostTarget :=
  ((nonempty allocation.envId).bind fun envId =>
    known.reverse.find? (·.environmentId == envId)) <|>
  (nonempty allocation.namespaceName).bind fun namespaceName =>
    known.reverse.find? (·.namespaceName == namespaceName)

def platformNamespaces : List Text :=
  ["eve", "kube-system", "kube-public", "kube-node-lease", "ingress-nginx", "cert-manager",
    "monitoring", "opencost"].map String.toList

def isSharedOverheadAllocation : Bool :=
  isSpecialAllocationName allocation.key ||
    (nonempty allocation.namespaceName).any platformNamespaces.contains

def bookedTo : Option EnvCostTarget :=
  if isSharedOverheadAllocation allocation then none else resolve known allocation

structure Booking where
  target : EnvCostTarget
  amount : ℚ
  sharedAmount : ℚ
  raw : List Json

def Booking.environmentId (booking : Booking) : Text := booking.target.environmentId

structure Bookings where
  environments : Keyed Booking.environmentId
  overhead : List RawAllocation

def Bookings.empty : Bookings where
  environments := .empty
  overhead := []

def Booking.add (booking : Booking) (allocation : RawAllocation) : Booking where
  target := booking.target
  amount := booking.amount + allocation.amountUsd
  sharedAmount := booking.sharedAmount + allocation.sharedAmountUsd.getD 0
  raw := booking.raw ++ [allocation.raw]

def Bookings.add (bookings : Bookings) (allocation : RawAllocation) : Bookings :=
  match bookedTo known allocation with
  | none => { bookings with overhead := bookings.overhead ++ [allocation] }
  | some target =>
    let existing := (bookings.environments.find target.environmentId).getD
      { target, amount := 0, sharedAmount := 0, raw := [] }
    { bookings with environments := bookings.environments.upsert (existing.add allocation) }

def book (allocations : List RawAllocation) : Bookings :=
  allocations.foldl (Bookings.add known) .empty

/-- The number written for an amount: six digits after the point, except for numbers that
are too large for that form. -/
def formatAmountUsd (value : ℚ) : ℚ :=
  let amount := max 0 value
  if amount < 10 ^ 21 then Decimal.toFixed 6 amount else amount

theorem formatAmountUsd_nonneg (value : ℚ) : 0 ≤ formatAmountUsd value := by
  have amount : 0 ≤ max 0 value := le_max_left 0 value
  unfold formatAmountUsd
  dsimp only
  split
  · exact Decimal.toFixed_nonneg 6 amount
  · exact amount

def environmentKey (environmentId : Text) : Text := "env:".toList ++ environmentId

def sharedKey : Text := "shared:platform".toList

variable (source : Text) (now : Moment)

def environmentRow (booking : Booking) : Snapshot where
  aggregationKey := environmentKey booking.environmentId
  environmentId := some booking.environmentId
  orgId := some booking.target.orgId
  projectId := some booking.target.projectId
  environmentSlug := some booking.target.environmentSlug
  scope := .environment
  source := source
  windowStart := monthStartUtc now
  windowEnd := now
  amountUsd := formatAmountUsd booking.amount
  sharedAmountUsd :=
    if booking.sharedAmount > 0 then some (formatAmountUsd booking.sharedAmount) else none
  breakdown := booking.raw
  observedAt := now
  nonneg := formatAmountUsd_nonneg booking.amount

variable (bookings : Bookings)

def overheadAmount : ℚ := (bookings.overhead.map (·.amountUsd)).sum

def sharedRow (bookings : Bookings) : Snapshot where
  aggregationKey := sharedKey
  environmentId := none
  orgId := none
  projectId := none
  environmentSlug := none
  scope := .sharedOverhead
  source := source
  windowStart := monthStartUtc now
  windowEnd := now
  amountUsd := formatAmountUsd (overheadAmount bookings)
  sharedAmountUsd := none
  breakdown := bookings.overhead.map (·.raw)
  observedAt := now
  nonneg := formatAmountUsd_nonneg _

def newRows (bookings : Bookings) : List Snapshot :=
  bookings.environments.rows.map (environmentRow source now) ++ [sharedRow source now bookings]

def collect (payload : Option Json) (db : CostDb) : CostDb :=
  match payload with
  | none => db
  | some payload =>
    match normalizeOpenCostAllocations payload with
    | [] => db
    | allocation :: rest =>
      { db with
        snapshots := (newRows source now (book (targets db) (allocation :: rest))).foldl
          Keyed.upsert db.snapshots }

def Writable (amount : ℚ) : Prop := 0 ≤ amount ∧ ∃ millionths : ℤ, amount * 10 ^ 6 = millionths

theorem Writable.zero : Writable 0 := ⟨le_refl 0, 0, by simp⟩

theorem Writable.add {first second : ℚ} (isFirst : Writable first) (isSecond : Writable second) :
    Writable (first + second) := by
  obtain ⟨firstNonneg, millionths, firstWhole⟩ := isFirst
  obtain ⟨secondNonneg, others, secondWhole⟩ := isSecond
  refine ⟨add_nonneg firstNonneg secondNonneg, millionths + others, ?_⟩
  rw [add_mul, firstWhole, secondWhole, Int.cast_add]

theorem Writable.sum {amounts : List ℚ} (each : ∀ amount ∈ amounts, Writable amount) : Writable amounts.sum := by
  induction amounts with
  | nil => exact .zero
  | cons first rest ih =>
    rw [sum_cons]
    exact (each first mem_cons_self).add (ih fun amount member => each amount (mem_cons_of_mem _ member))

theorem Writable.formatAmountUsd_eq {amount : ℚ} (writable : Writable amount) : formatAmountUsd amount = amount := by
  obtain ⟨nonneg, millionths, whole⟩ := writable
  unfold formatAmountUsd
  dsimp only
  rw [max_eq_right nonneg]
  split
  · exact Decimal.toFixed_eq_self whole
  · rfl

def Bookings.total : ℚ :=
  (bookings.environments.rows.map (·.amount)).sum + overheadAmount bookings

open Bookings (add empty total)

variable (known : List EnvCostTarget)

theorem total_add (allocation : RawAllocation) :
    (bookings.add known allocation).total = bookings.total + allocation.amountUsd := by
  unfold add
  cases bookedTo known allocation with
  | none => simp [total, overheadAmount, add_assoc]
  | some target =>
    have before := Keyed.sum_find Booking.amount bookings.environments target.environmentId
    unfold total overheadAmount
    dsimp only
    cases search : bookings.environments.find target.environmentId with
    | none =>
      rw [search, Option.map_none, Option.getD_none, add_zero] at before
      rw [Option.getD_none, Keyed.sum_upsert, before]
      change _ + (0 + allocation.amountUsd) + _ = _
      rw [zero_add, add_right_comm]
      rfl
    | some existing =>
      have named : (existing.add allocation).environmentId = target.environmentId := (Keyed.find_eq_some search).2
      rw [search, Option.map_some, Option.getD_some] at before
      rw [Option.getD_some, Keyed.sum_upsert, before, named]
      change _ + (existing.amount + allocation.amountUsd) + _ = _
      ring

theorem total_book (allocations : List RawAllocation) :
    (book known allocations).total = (allocations.map (·.amountUsd)).sum := by
  have from_any (bookings : Bookings) : (allocations.foldl (add known) bookings).total =
        bookings.total + (allocations.map (·.amountUsd)).sum := by
    induction allocations generalizing bookings with
    | nil => simp
    | cons first rest ih =>
      rw [foldl_cons, ih, total_add, map_cons, sum_cons, add_assoc]
  have empty : empty.total = 0 := by
    simp [total, overheadAmount, empty, Keyed.empty]
  rw [book, from_any, empty, zero_add]

def Bookings.AllWritable : Prop :=
  (∀ booking ∈ bookings.environments.rows, Writable booking.amount) ∧
    ∀ allocation ∈ bookings.overhead, Writable allocation.amountUsd

theorem Bookings.AllWritable.add {bookings : Bookings} (writable : bookings.AllWritable)
    (known : List EnvCostTarget) {allocation : RawAllocation}
    (amount : Writable allocation.amountUsd) : (bookings.add known allocation).AllWritable := by
  unfold Bookings.add
  cases bookedTo known allocation with
  | none =>
    refine ⟨writable.1, ?_⟩
    intro booked member
    cases mem_append.mp member with
    | inl earlier => exact writable.2 booked earlier
    | inr single => exact mem_singleton.mp single ▸ amount
  | some target =>
    refine ⟨?_, writable.2⟩
    intro booking member
    cases Keyed.mem_upsert member with
    | inr earlier => exact writable.1 booking earlier
    | inl same =>
      rw [same]
      refine Writable.add ?_ amount
      cases search : bookings.environments.find target.environmentId with
      | none => exact .zero
      | some existing => exact writable.1 existing (Keyed.find_eq_some search).1

variable {allocations : List RawAllocation}

theorem book_writable (each : ∀ allocation ∈ allocations, Writable allocation.amountUsd) :
    (book known allocations).AllWritable := by
  have from_any {bookings : Bookings} (writable : bookings.AllWritable) :
      (allocations.foldl (add known) bookings).AllWritable := by
    induction allocations generalizing bookings with
    | nil => exact writable
    | cons first rest ih =>
      rw [foldl_cons]
      exact ih (fun allocation member => each allocation (mem_cons_of_mem _ member))
        (writable.add known (each first mem_cons_self))
  exact from_any ⟨nofun, nofun⟩

theorem sum_newRows {bookings : Bookings} (writable : bookings.AllWritable) :
    ((newRows source now bookings).map (·.amountUsd)).sum = bookings.total := by
  have environments : bookings.environments.rows.map
      (fun booking => (environmentRow source now booking).amountUsd) = bookings.environments.rows.map (·.amount) := by
    apply map_congr_left
    intro booking member
    exact (writable.1 booking member).formatAmountUsd_eq
  have overhead : Writable (overheadAmount bookings) := by
    apply Writable.sum
    intro amount member
    obtain ⟨allocation, booked, rfl⟩ := mem_map.mp member
    exact writable.2 allocation booked
  have shared : (sharedRow source now bookings).amountUsd = overheadAmount bookings := overhead.formatAmountUsd_eq
  rw [newRows, map_append, sum_append, map_map, total, ← environments]
  simp [shared, Function.comp_def]

theorem mem_book {known : List EnvCostTarget} {id : Text} :
    id ∈ (book known allocations).environments.rows.map Booking.environmentId ↔
      ∃ allocation ∈ allocations, ∃ target, bookedTo known allocation = some target ∧ target.environmentId = id := by
  have from_any (bookings : Bookings) : id ∈ (allocations.foldl (add known) bookings).environments.rows.map
          Booking.environmentId ↔
        id ∈ bookings.environments.rows.map Booking.environmentId ∨
          ∃ allocation ∈ allocations, ∃ target, bookedTo known allocation = some target ∧
            target.environmentId = id := by
    induction allocations generalizing bookings with
    | nil => simp
    | cons first rest ih =>
      have added : id ∈ (bookings.add known first).environments.rows.map
          Booking.environmentId ↔ id ∈ bookings.environments.rows.map Booking.environmentId ∨
            ∃ target, bookedTo known first = some target ∧ target.environmentId = id := by
        unfold add
        cases bookedTo known first with
        | none => simp
        | some target =>
          have named : (((bookings.environments.find target.environmentId).getD
              { target, amount := 0, sharedAmount := 0, raw := [] }).add
                first).environmentId = target.environmentId := by
            cases search : bookings.environments.find target.environmentId with
            | none => rfl
            | some existing => exact (Keyed.find_eq_some search).2
          rw [Keyed.mem_keys_upsert, named, or_comm, eq_comm]
          simp
      rw [foldl_cons, ih, added, or_assoc]
      simp
  rw [book, from_any]
  simp [empty, Keyed.empty]

theorem environmentKey_injective : Function.Injective environmentKey :=
  fun _ _ same => append_cancel_left same

theorem environmentKey_ne_shared (id : Text) : environmentKey id ≠ sharedKey := by
  intro same
  have first := congrArg List.head? same
  cases first

theorem newRows_distinct (bookings : Bookings) : ((newRows source now bookings).map Snapshot.key).Nodup := by
  rw [newRows, map_append, map_map]
  apply List.Nodup.append
  · have keys : Function.Injective fun id : Text =>
        (environmentKey id, source, monthStartUtc now) := by
      intro left right same
      exact environmentKey_injective (Prod.mk.inj same).1
    have distinct := bookings.environments.distinct.map keys
    rw [map_map] at distinct
    exact distinct
  · exact nodup_singleton _
  · intro key isEnvironment isShared
    obtain ⟨booking, _, rfl⟩ := mem_map.mp isEnvironment
    exact environmentKey_ne_shared _ (Prod.mk.inj (mem_singleton.mp isShared)).1

def Snapshot.weight (windowStart : Moment) (source : Text) (row : Snapshot) : ℚ :=
  if row.windowStart == windowStart && row.source == source then row.amountUsd else 0

open Snapshot (key weight)

theorem totalUsd_eq (windowStart : Moment) (source : Text) :
    (db.totalForMonth windowStart source).totalUsd = (db.snapshots.rows.map (weight windowStart source)).sum := by
  have filtered (rows : List Snapshot) : ((rows.filter fun row =>
          row.windowStart == windowStart && row.source == source).map (·.amountUsd)).sum =
        (rows.map (weight windowStart source)).sum := by
    induction rows with
    | nil => rfl
    | cons first rest ih =>
      rw [map_cons, sum_cons, ← ih, filter_cons, weight]
      split
      · rfl
      · rw [zero_add]
  exact filtered db.snapshots.rows

def leftover (payload : Json) (db : CostDb) : ℚ :=
  db.snapshots.sumExcept (weight (monthStartUtc now) source)
    ((newRows source now (book (targets db) (normalizeOpenCostAllocations payload))).map key)

theorem total_collect (db : CostDb) {map : NamespaceMap} {payload : Json} (carries : Carries map payload)
    (lossless : map.Lossless) (wrote : normalizeOpenCostAllocations payload ≠ []) :
    ((collect source now (some payload) db).totalForMonth (monthStartUtc now) source).totalUsd =
      leftover source now payload db + map.spent := by
  have writable : (book (targets db) (normalizeOpenCostAllocations payload)).AllWritable := by
    apply book_writable
    intro allocation booked
    obtain ⟨entry, isEntry, amount, costs⟩ := exists_entry carries lossless booked
    rw [amount]
    exact ⟨lossless.nonneg entry isEntry costs, lossless.exact entry isEntry⟩
  have weights : (newRows source now (book (targets db)
      (normalizeOpenCostAllocations payload))).map (weight (monthStartUtc now) source) =
        (newRows source now (book (targets db) (normalizeOpenCostAllocations payload))).map (·.amountUsd) := by
    apply map_congr_left
    intro row member
    have inMonth : row.windowStart = monthStartUtc now ∧ row.source = source := by
      cases mem_append.mp member with
      | inl environment =>
        obtain ⟨booking, _, rfl⟩ := mem_map.mp environment
        exact ⟨rfl, rfl⟩
      | inr shared =>
        rw [mem_singleton.mp shared]
        exact ⟨rfl, rfl⟩
    rw [weight, inMonth.1, inMonth.2]
    simp
  have written : (collect source now (some payload) db).snapshots =
      (newRows source now (book (targets db) (normalizeOpenCostAllocations payload))).foldl
        Keyed.upsert db.snapshots := by
    unfold collect
    dsimp only
    split
    · rename_i nothing
      exact absurd nothing wrote
    · rename_i some
      rw [some]
  rw [totalUsd_eq, written, Keyed.sum_upserts _ _ (newRows_distinct ..), weights,
    sum_newRows source now writable, total_book, sum_normalizeOpenCostAllocations carries lossless]
  rfl

structure Response where
  payload : Json
  map : NamespaceMap
  carries : Carries map payload

inductive CostStep where
  | collect (now : Moment) (response : Option Response)
  | change (orgs : List Org) (projects : List Project) (environments : List Environment)

def CostDb.change (orgs : List Org) (projects : List Project) (environments : List Environment) : CostDb where
  orgs := orgs
  projects := projects
  environments := environments
  snapshots := db.snapshots.delete fun row =>
    row.environmentId.any fun id => environments.all (·.id != id)

def CostStep.run (db : CostDb) : CostStep → CostDb
  | .collect now response => Costs.collect source now (response.map (·.payload)) db
  | .change orgs projects environments => db.change orgs projects environments

def CostStep.Conserves (db : CostDb) : CostStep → Prop
  | .collect now (some response) =>
    normalizeOpenCostAllocations response.payload ≠ [] →
      ((Costs.collect source now (some response.payload) db).totalForMonth (monthStartUtc now)
        source).totalUsd = response.map.spent
  | _ => True

def CostStep.Lossless : CostStep → Prop
  | .collect _ (some response) => response.map.Lossless
  | _ => True

/-- Every row of the month that has an amount is the shared one or the row of an
environment that the response has an allocation for. -/
def CostStep.Renews (db : CostDb) : CostStep → Prop
  | .collect now (some response) =>
    normalizeOpenCostAllocations response.payload ≠ [] →
      ∀ row ∈ db.monthRows (monthStartUtc now) source, row.amountUsd ≠ 0 → row.aggregationKey = sharedKey ∨
          ∃ allocation ∈ normalizeOpenCostAllocations response.payload, ∃ target,
            bookedTo (targets db) allocation = some target ∧ environmentKey target.environmentId = row.aggregationKey
  | _ => True

variable {source : Text}

theorem mem_newRows_keys {now : Moment} {known : List EnvCostTarget} {row : Snapshot}
    (isStart : row.windowStart = monthStartUtc now) (isSource : row.source = source) :
    row.key ∈ (newRows source now (book known allocations)).map key ↔
      row.aggregationKey = sharedKey ∨ ∃ allocation ∈ allocations, ∃ target, bookedTo known allocation = some target ∧
          environmentKey target.environmentId = row.aggregationKey := by
  have key : row.key = (row.aggregationKey, source, monthStartUtc now) := by
    rw [key, isStart, isSource]
  have environment : row.key ∈ ((book known allocations).environments.rows.map
      (environmentRow source now)).map Snapshot.key ↔
      ∃ allocation ∈ allocations, ∃ target, bookedTo known allocation = some target ∧
        environmentKey target.environmentId = row.aggregationKey := by
    rw [key]
    constructor
    · intro member
      rw [map_map] at member
      obtain ⟨booking, isBooking, same⟩ := mem_map.mp member
      obtain ⟨allocation, isAllocation, target, booked, named⟩ := mem_book.mp (mem_map_of_mem isBooking)
      exact ⟨allocation, isAllocation, target, booked, (congrArg environmentKey named).trans (Prod.mk.inj same).1⟩
    · intro ⟨allocation, isAllocation, target, booked, named⟩
      obtain ⟨booking, isBooking, same⟩ := mem_map.mp (mem_book.mpr ⟨allocation, isAllocation, target, booked, rfl⟩)
      rw [map_map]
      refine mem_map.mpr ⟨booking, isBooking, ?_⟩
      exact congrArg (·, source, monthStartUtc now) ((congrArg environmentKey same).trans named)
  have shared : row.key ∈ [sharedRow source now (book known allocations)].map Snapshot.key ↔
      row.aggregationKey = sharedKey := by
    rw [key, map_singleton, mem_singleton]
    exact ⟨fun same => (Prod.mk.inj same).1, fun same => congrArg (·, source, monthStartUtc now) same⟩
  rw [newRows, map_append, mem_append, environment, shared, or_comm]

theorem leftover_eq_zero_iff {now : Moment} {payload : Json} {db : CostDb} :
    leftover source now payload db = 0 ↔ ∀ row ∈ db.monthRows (monthStartUtc now) source, row.amountUsd ≠ 0 →
        row.aggregationKey = sharedKey ∨ ∃ allocation ∈ normalizeOpenCostAllocations payload, ∃ target,
            bookedTo (targets db) allocation = some target ∧
              environmentKey target.environmentId = row.aggregationKey := by
  have nonneg (row : Snapshot) (_ : row ∈ db.snapshots.rows) : 0 ≤ row.weight (monthStartUtc now) source := by
    unfold weight
    split
    · exact row.nonneg
    · exact le_rfl
  have inMonth {row : Snapshot} : (row.windowStart == monthStartUtc now && row.source == source) =
      true ↔ row.windowStart = monthStartUtc now ∧ row.source = source := by
    simp
  rw [leftover, Keyed.sumExcept_eq_zero_iff nonneg]
  constructor
  · intro settled row listed amount
    obtain ⟨member, ofMonth⟩ := mem_filter.mp listed
    obtain ⟨isStart, isSource⟩ := inMonth.mp ofMonth
    apply (mem_newRows_keys isStart isSource).mp
    by_contra left
    have nothing := settled row member left
    rw [weight, if_pos ofMonth] at nothing
    exact amount nothing
  · intro renewed row member left
    unfold weight
    split
    · rename_i ofMonth
      obtain ⟨isStart, isSource⟩ := inMonth.mp ofMonth
      by_contra amount
      exact left ((mem_newRows_keys isStart isSource).mpr (renewed row (mem_filter.mpr ⟨member, ofMonth⟩) amount))
    · rfl

theorem CostStep.conserves_iff {db : CostDb} {step : CostStep} (lossless : step.Lossless) :
    step.Conserves source db ↔ step.Renews source db := by
  cases step with
  | change _ _ _ => exact Iff.rfl
  | collect now response =>
    cases response with
    | none => exact Iff.rfl
    | some response =>
      apply imp_congr_right
      intro wrote
      rw [total_collect source now db response.carries lossless wrote, ← leftover_eq_zero_iff, add_eq_right]

/-- Over any sequence of runs and changes whose responses are lossless, each run that wrote
leaves the month with the total of its response exactly if each of them renewed all rows of
the month that have an amount. -/
theorem totals_conserved_iff (source : Text) (db : CostDb) (steps : List CostStep)
    (lossless : ∀ step ∈ steps, step.Lossless) :
    (∀ visit ∈ visits (CostStep.run source) db steps, visit.2.Conserves source visit.1) ↔
      ∀ visit ∈ visits (CostStep.run source) db steps, visit.2.Renews source visit.1 :=
  have agree (db : CostDb) (step : CostStep) (_ : True) (lossless : step.Lossless) :
      step.Conserves source db ↔ step.Renews source db :=
    CostStep.conserves_iff lossless
  visits_forall_iff (fun _ _ _ => trivial) agree trivial steps lossless

/-- Once it is shut down, its row of the month stays and its namespace is booked as overhead. -/
def sampleEnvironment (active : Bool) : Environment where
  id := "env_1".toList
  projectId := "proj_1".toList
  name := "staging".toList
  namespaceName := some "shop-staging".toList
  active := active
  createdAt := 1

def sampleDb : CostDb where
  orgs := [{ id := "org_1".toList, name := some "Acme".toList, slug := some "acme".toList }]
  projects := [{ id := "proj_1".toList, orgId := "org_1".toList, name := "Shop".toList,
                 slug := "shop".toList }]
  environments := [sampleEnvironment true]
  snapshots := .empty

def sampleMap (numeral : String) : NamespaceMap where
  members := [("shop-staging".toList, .object [("totalCost".toList, .number numeral.toList)])]
  distinct := nodup_singleton _
  allocations := by
    intro entry member
    rw [mem_singleton.mp member]
    rfl

def sampleResponse (numeral : String) : Response where
  payload := .object [("code".toList, .number "200".toList),
    ("data".toList, .array [.object (sampleMap numeral).members])]
  map := sampleMap numeral
  carries := by
    refine Carries.response _ rfl fun entry member => ?_
    rcases mem_cons.mp member with rfl | member
    · exact .inr (by decide +kernel)
    · exact .inl (mem_singleton.mp member)

def sampleRun (offset : Nat) (numeral : String) : CostStep :=
  .collect { month := 7, offset } (some (sampleResponse numeral))

theorem sampleMap_lossless (dollars : Nat) (numeral : String)
    (isNumeral : ∀ entry ∈ (sampleMap numeral).members, amountOf entry.2 = dollars) :
    (sampleMap numeral).Lossless where
  unshadowed := by
    intro entry member
    rw [mem_singleton.mp member]
    exact (by decide +kernel : "shop-staging".toList ∉ costFields)
  nonneg := by
    intro entry member _
    rw [isNumeral entry member]
    exact Nat.cast_nonneg dollars
  exact := by
    intro entry member
    exact ⟨dollars * 10 ^ 6, by rw [isNumeral entry member]; push_cast; rfl⟩

theorem report_totals_conserved :
    (sampleRun 2 "12").Conserves "opencost".toList ((sampleRun 1 "10").run "opencost".toList sampleDb) := by
  refine (totals_conserved_iff "opencost".toList sampleDb [sampleRun 1 "10", sampleRun 2 "12"] (by
      intro step member
      cases member with
      | head => exact sampleMap_lossless 10 "10" (by decide +kernel)
      | tail _ member =>
        rw [mem_singleton.mp member]
        exact sampleMap_lossless 12 "12" (by decide +kernel))).mpr ?_ _ (mem_of_getElem? (i := 1) rfl)
  intro visit member
  have isRun : visit = (sampleDb, sampleRun 1 "10") ∨
      visit = ((sampleRun 1 "10").run "opencost".toList sampleDb, sampleRun 2 "12") := by
    simpa [visits] using member
  cases isRun with
  | inl first => rw [first]; intro _ row listed; exact absurd listed not_mem_nil
  | inr second =>
    rw [second]
    intro _
    decide +kernel

/-- Ten dollars before the shutdown and twelve in all: the month has twenty-two. -/
theorem shutdown_counts_twice : ¬∀ (source : Text) (db : CostDb) (steps : List CostStep),
      ∀ visit ∈ visits (CostStep.run source) db steps, visit.2.Conserves source visit.1 := by
  intro conserved
  let source := "opencost".toList
  let before := (sampleRun 1 "10").run source sampleDb
  let after := before.change sampleDb.orgs sampleDb.projects [sampleEnvironment false]
  have last := conserved source sampleDb
    [sampleRun 1 "10", .change sampleDb.orgs sampleDb.projects [sampleEnvironment false],
      sampleRun 2 "12"] (after, sampleRun 2 "12") (by simp [visits, after, before, CostStep.run])
  have twelve := last (by decide +kernel)
  have total : ((Costs.collect source { month := 7, offset := 2 }
      (some (sampleResponse "12").payload) after).totalForMonth
        (monthStartUtc { month := 7, offset := 2 }) source).totalUsd = 22 := by
    decide +kernel
  have spent : (sampleResponse "12").map.spent = 12 := by decide +kernel
  rw [total, spent] at twelve
  revert twelve
  decide

end EveHorizon.Costs
