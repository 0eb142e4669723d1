import EveHorizon.Library.Histories
import EveHorizon.Library.Keyed

/-!
# Wrapped magic links

The rows of `magic_link_wraps`, the statements of the wrap queries, and the operations that
issue them. Every statement carries the reading of the clock it uses: nothing is assumed about
how the readings of different statements are ordered.
-/

namespace EveHorizon.MagicLinks

open Interleaving

abbrev Timestamp := Int

inductive MagicLinkWrapKind where
  | magicLink | invite
  deriving DecidableEq

structure MagicLinkWrap where
  id : String
  gotrueActionLink : String
  projectId : Option String
  orgId : Option String
  emailHash : String
  kind : MagicLinkWrapKind
  redirectTo : Option String
  createdAt : Timestamp
  expiresAt : Timestamp
  consumedAt : Option Timestamp := none
  getCount : Nat := 0
  lastGetAt : Option Timestamp := none
  deriving DecidableEq

structure NewWrap where
  id : String
  gotrueActionLink : String
  projectId : Option String := none
  orgId : Option String := none
  emailHash : String
  kind : MagicLinkWrapKind
  redirectTo : Option String := none
  expiresAt : Timestamp

def NewWrap.row (params : NewWrap) (now : Timestamp) : MagicLinkWrap where
  id := params.id
  gotrueActionLink := params.gotrueActionLink
  projectId := params.projectId
  orgId := params.orgId
  emailHash := params.emailHash
  kind := params.kind
  redirectTo := params.redirectTo
  createdAt := now
  expiresAt := params.expiresAt

abbrev WrapTable := Table.Keyed MagicLinkWrap.id

def NewWrap.checks (params : NewWrap) : Bool := params.kind != .magicLink || params.projectId.isSome

def accepts (table : WrapTable) (params : NewWrap) : Bool := params.checks && table.free params.id

inductive WrapStatement where
  | insert (params : NewWrap) (now : Timestamp)
  /-- The `UPDATE` of `inspect`. -/
  | countGet (id : String) (now : Timestamp)
  /-- The `UPDATE` of `consume`. -/
  | setConsumed (id : String) (now : Timestamp)
  /-- The `SELECT` with which `consume` tells why it found nothing to update. -/
  | classify (id : String) (now : Timestamp)
  | deleteExpired (cutoff : Timestamp)
  | selectById (id : String)

def MagicLinkWrap.counted (now : Timestamp) (wrap : MagicLinkWrap) : MagicLinkWrap :=
  { wrap with getCount := wrap.getCount + 1, lastGetAt := some now }

def redeemable (id : String) (now : Timestamp) (wrap : MagicLinkWrap) : Bool :=
  wrap.id == id && wrap.consumedAt.isNone && decide (now < wrap.expiresAt)

def MagicLinkWrap.consumed (now : Timestamp) (wrap : MagicLinkWrap) : MagicLinkWrap :=
  { wrap with consumedAt := some now }

def prunable (cutoff : Timestamp) (wrap : MagicLinkWrap) : Bool :=
  decide (wrap.expiresAt < cutoff) || wrap.consumedAt.any fun consumedAt => decide (consumedAt < cutoff)

def WrapStatement.effect : WrapStatement → WrapTable → WrapTable
  | .insert params now, table =>
    if params.checks then table.insert (params.row now) else table
  | .countGet id now, table => table.update (·.id == id) (MagicLinkWrap.counted now) fun _ => rfl
  | .setConsumed id now, table =>
    table.update (redeemable id now) (MagicLinkWrap.consumed now) fun _ => rfl
  | .classify _ _, table => table
  | .deleteExpired cutoff, table => table.delete (prunable cutoff)
  | .selectById _, table => table

instance : Statement WrapStatement WrapTable where
  ready _ _ := true
  effect := WrapStatement.effect

variable (id : String) (now : Timestamp)

def inspectedRow (table : WrapTable) : Option MagicLinkWrap :=
  Table.returning (·.id == id) (MagicLinkWrap.counted now) table.rows

def redeemedRow (table : WrapTable) : Option MagicLinkWrap :=
  Table.returning (redeemable id now) (MagicLinkWrap.consumed now) table.rows

structure MagicLinkWrapInspect where
  kind : MagicLinkWrapKind
  projectId : Option String
  orgId : Option String
  redirectTo : Option String
  expiresAt : Timestamp
  consumedAt : Option Timestamp
  getCount : Nat
  expired : Bool
  consumed : Bool

structure RedeemedLink where
  gotrueActionLink : String
  projectId : Option String
  orgId : Option String
  emailHash : String
  kind : MagicLinkWrapKind
  getCount : Nat
  createdAt : Timestamp

inductive MagicLinkWrapConsumeResult where
  | ok (link : RedeemedLink)
  | expired
  | alreadyConsumed
  | unknown

inductive WrapError where
  /-- The primary key or the CHECK of the table is violated. -/
  | constraintViolation

abbrev WrapCall := Call WrapStatement WrapTable WrapError

def create (params : NewWrap) (now : Timestamp) : WrapCall MagicLinkWrap := do
  let row ← .perform (.insert params now) fun table =>
    if accepts table params then some (params.row now) else none
  match row with
  | some row => return row
  | none => .raise .constraintViolation

def MagicLinkWrap.inspection (wrap : MagicLinkWrap) (dateNow : Timestamp) : MagicLinkWrapInspect where
  kind := wrap.kind
  projectId := wrap.projectId
  orgId := wrap.orgId
  redirectTo := wrap.redirectTo
  expiresAt := wrap.expiresAt
  consumedAt := wrap.consumedAt
  getCount := wrap.getCount
  expired := decide (wrap.expiresAt ≤ dateNow)
  consumed := wrap.consumedAt.isSome

def inspect (dateNow : Timestamp) : WrapCall (Option MagicLinkWrapInspect) := do
  let row ← .perform (.countGet id now) (inspectedRow id now)
  return row.map (·.inspection dateNow)

def MagicLinkWrap.redeemed (wrap : MagicLinkWrap) : RedeemedLink where
  gotrueActionLink := wrap.gotrueActionLink
  projectId := wrap.projectId
  orgId := wrap.orgId
  emailHash := wrap.emailHash
  kind := wrap.kind
  getCount := wrap.getCount
  createdAt := wrap.createdAt

def consume (later : Timestamp) : WrapCall MagicLinkWrapConsumeResult := do
  let updated ← .perform (.setConsumed id now) (redeemedRow id now)
  match updated with
  | some row => return .ok row.redeemed
  | none =>
    let probe ← .perform (.classify id later) (·.find id)
    match probe with
    | none => return .unknown
    | some wrap =>
      if wrap.consumedAt.isSome then return .alreadyConsumed
      else if wrap.expiresAt ≤ later then return .expired
      else return .unknown

def pruneExpired (cutoff : Timestamp) : WrapCall Nat :=
  .perform (.deleteExpired cutoff) fun table => table.rows.countP (prunable cutoff)

def findById : WrapCall (Option MagicLinkWrap) := .perform (.selectById id) (·.find id)

def magicLinkWrapRetentionMs : Int := 24 * 60 * 60 * 1000

def purgeCutoff (dateNow : Timestamp) : Timestamp := dateNow - magicLinkWrapRetentionMs

inductive WrapOperation where
  | create (params : NewWrap) (now : Timestamp)
  | inspect (id : String) (now dateNow : Timestamp)
  | consume (id : String) (now later : Timestamp)
  | pruneExpired (cutoff : Timestamp)
  | findById (id : String)

inductive WrapAnswer where
  | created (wrap : MagicLinkWrap)
  | inspected (result : Option MagicLinkWrapInspect)
  | consumed (result : MagicLinkWrapConsumeResult)
  | pruned (count : Nat)
  | found (wrap : Option MagicLinkWrap)

def wrapProgram (_session : Nat) : WrapOperation → WrapCall WrapAnswer
  | .create params now => do return .created (← create params now)
  | .inspect id now dateNow => do return .inspected (← inspect id now dateNow)
  | .consume id now later => do return .consumed (← consume id now later)
  | .pruneExpired cutoff => do return .pruned (← pruneExpired cutoff)
  | .findById id => do return .found (← findById id)

abbrev WrapSystem := System WrapStatement WrapTable WrapError WrapAnswer

def runWraps (table : WrapTable) (schedule : List (Choice WrapOperation)) : WrapSystem :=
  System.run wrapProgram table schedule

variable {id : String} {now : Timestamp} {wrap : MagicLinkWrap}

theorem redeemable_iff :
    redeemable id now wrap = true ↔ wrap.id = id ∧ wrap.consumedAt = none ∧ now < wrap.expiresAt := by
  simp [redeemable, and_assoc]

theorem prunable_iff {cutoff : Timestamp} : prunable cutoff wrap = true ↔ wrap.expiresAt < cutoff ∨
      ∃ consumedAt, wrap.consumedAt = some consumedAt ∧ consumedAt < cutoff := by
  simp [prunable, Option.any_eq_true]

variable {table : WrapTable}

theorem redeemedRow_eq_some {row : MagicLinkWrap} (redeemed : redeemedRow id now table = some row) :
    ∃ wrap ∈ table.rows, redeemable id now wrap = true ∧ row = wrap.consumed now := by
  obtain ⟨wrap, found, rfl⟩ := Option.map_eq_some_iff.mp redeemed
  exact ⟨wrap, List.mem_of_find?_eq_some found, List.find?_some found, rfl⟩

theorem redeemedRow_eq_none :
    redeemedRow id now table = none ↔ ∀ wrap ∈ table.rows, redeemable id now wrap = false := by
  simp [redeemedRow, Table.returning, List.find?_eq_none]

/-- A later state of a row: only whether it is consumed, and the telemetry, can have changed, and
a consumed row stays consumed. -/
structure Becomes (old new : MagicLinkWrap) : Prop where
  id : new.id = old.id
  expiresAt : new.expiresAt = old.expiresAt
  consumed : old.consumedAt.isSome = true → new.consumedAt.isSome = true

theorem becomes_refl (wrap : MagicLinkWrap) : Becomes wrap wrap := ⟨rfl, rfl, id⟩

theorem mem_effect {stmt : WrapStatement} (member : wrap ∈ (Statement.effect stmt table).rows) :
    (∃ old ∈ table.rows, Becomes old wrap) ∨
      ∃ params now, stmt = .insert params now ∧ accepts table params = true ∧ wrap = params.row now := by
  cases stmt with
  | insert params now =>
    simp only [Statement.effect, WrapStatement.effect] at member
    split at member
    · next checks =>
        rcases Table.Keyed.mem_insert member with old | ⟨free, rfl⟩
        · exact .inl ⟨wrap, old, becomes_refl wrap⟩
        · exact .inr ⟨params, now, rfl, Bool.and_eq_true_iff.mpr ⟨checks, free⟩, rfl⟩
    · exact .inl ⟨wrap, member, becomes_refl wrap⟩
  | countGet id now =>
    obtain ⟨old, present, ⟨_, rfl⟩ | ⟨_, rfl⟩⟩ := Table.mem_updateWhere member
    · exact .inl ⟨old, present, rfl, rfl, fun consumed => consumed⟩
    · exact .inl ⟨wrap, present, becomes_refl wrap⟩
  | setConsumed id now =>
    obtain ⟨old, present, ⟨_, rfl⟩ | ⟨_, rfl⟩⟩ := Table.mem_updateWhere member
    · exact .inl ⟨old, present, rfl, rfl, fun _ => rfl⟩
    · exact .inl ⟨wrap, present, becomes_refl wrap⟩
  | classify id now | selectById id => exact .inl ⟨wrap, member, becomes_refl wrap⟩
  | deleteExpired cutoff =>
    exact .inl ⟨wrap, (Table.Keyed.mem_delete.mp member).1, becomes_refl wrap⟩

end EveHorizon.MagicLinks
