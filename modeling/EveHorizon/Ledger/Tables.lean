import EveHorizon.Library.Interleaving
import EveHorizon.Library.Table
import EveHorizon.Library.Decimal

/-!
# Balance tables and the statements on them

The rows of `org_balances` and `balance_transactions`, and the statements of the
ledger queries. What an open transaction has written is seen by nobody else until it
commits; a row it has locked cannot be locked or updated by anybody else until it
ends. A session whose connection is lost has its transaction rolled back, and
nothing more can be sent on that connection.
-/

namespace EveHorizon.Ledger

open Interleaving

abbrev OrgId := String
abbrev Timestamp := Nat

structure OrgBalance where
  orgId : OrgId
  balance : ℚ
  currency : String
  lifetimeIn : ℚ
  lifetimeOut : ℚ
  updatedAt : Timestamp

def OrgBalance.empty (orgId : OrgId) (currency : String) (now : Timestamp) : OrgBalance where
  orgId := orgId
  balance := 0
  currency := currency
  lifetimeIn := 0
  lifetimeOut := 0
  updatedAt := now

inductive TransactionType where
  | credit | charge | refund | adjustment
  deriving DecidableEq

inductive SourceType where
  | receipt | payment | manual | promo | usageRecord
  deriving DecidableEq

structure NewTransaction where
  id : String
  orgId : OrgId
  type : TransactionType
  amount : ℚ
  currency : String
  description : Option String
  sourceType : SourceType
  sourceId : String

structure BalanceTransaction extends NewTransaction where
  createdAt : Timestamp

def NewTransaction.source (row : NewTransaction) : OrgId × SourceType × String :=
  (row.orgId, row.sourceType, row.sourceId)

structure BalanceChange where
  balance : ℚ
  lifetimeIn : ℚ
  lifetimeOut : ℚ

def BalanceChange.apply (change : BalanceChange) (now : Timestamp) (row : OrgBalance) : OrgBalance :=
  { row with
    balance := row.balance + change.balance
    lifetimeIn := row.lifetimeIn + change.lifetimeIn
    lifetimeOut := row.lifetimeOut + change.lifetimeOut
    updatedAt := now }

structure OpenTransaction where
  session : Nat
  startedAt : Timestamp
  locked : Option OrgId
  inserted : Option BalanceTransaction := none
  written : Option OrgBalance := none

structure LedgerDb where
  now : Timestamp := 0
  orgs : List OrgId := []
  balances : List OrgBalance := []
  transactions : List BalanceTransaction := []
  opened : List OpenTransaction := []

variable (db : LedgerDb) (orgId : OrgId)

def LedgerDb.balanceOf : Option OrgBalance :=
  db.balances.find? fun row => row.orgId == orgId

def LedgerDb.bySource (source : OrgId × SourceType × String) : Option BalanceTransaction :=
  db.transactions.find? fun row => row.source == source

def LedgerDb.countOf : Nat :=
  db.transactions.countP fun row => row.orgId == orgId

def LedgerDb.openOf (session : Nat) : Option OpenTransaction :=
  db.opened.find? fun transaction => transaction.session == session

def LedgerDb.isLocked : Bool :=
  db.opened.any fun transaction => transaction.locked == some orgId

inductive LedgerStatement where
  -- Any `SELECT` that takes no lock.
  | select
  | updateCurrency (orgId : OrgId) (currency : String)
  -- `INSERT INTO org_balances ... ON CONFLICT (org_id) DO NOTHING`.
  | insertBalance (orgId : OrgId) (currency : String)
  -- `BEGIN` and `SELECT ... FOR UPDATE`.
  | lockBalance (session : Nat) (orgId : OrgId)
  | insertTransaction (session : Nat) (new : NewTransaction)
  | updateBalance (session : Nat) (orgId : OrgId) (change : BalanceChange)
  | commit (session : Nat)
  | rollback (session : Nat)
  | passTime (elapsed : Nat)

def NewTransaction.conflicts (new : NewTransaction) (row : BalanceTransaction) : Bool :=
  row.source == new.source || row.id == new.id

def LedgerDb.refusal (new : NewTransaction) : Option String :=
  if db.transactions.any fun row => row.id == new.id then
    some "duplicate key value violates unique constraint \"balance_transactions_pkey\""
  else if db.transactions.any fun row => row.source == new.source then
    some ("duplicate key value violates unique constraint " ++
      "\"balance_transactions_org_id_source_type_source_id_key\"")
  else if db.orgs.contains new.orgId then none
  else some ("insert or update on table \"balance_transactions\" violates foreign key " ++
    "constraint \"balance_transactions_org_id_fkey\"")

def LedgerDb.changeOpen (session : Nat) (change : OpenTransaction → OpenTransaction) : LedgerDb :=
  { db with opened := Table.updateWhere (·.session == session) change db.opened }

def LedgerDb.close (session : Nat) : LedgerDb :=
  { db with opened := db.opened.filter (·.session != session) }

def LedgerDb.publish (transaction : OpenTransaction) : LedgerDb :=
  { db with
    balances := match transaction.written with
      | none => db.balances
      | some written => Table.updateWhere (·.orgId == written.orgId) (fun _ => written) db.balances
    transactions := db.transactions ++ transaction.inserted.toList }

def LedgerStatement.effect : LedgerStatement → LedgerDb → LedgerDb
  | .select, db => db
  | .updateCurrency orgId currency, db =>
    { db with
      balances := Table.updateWhere (·.orgId == orgId)
        (fun row => { row with currency, updatedAt := db.now }) db.balances }
  | .insertBalance orgId currency, db =>
    if db.orgs.contains orgId && (db.balanceOf orgId).isNone then
      { db with balances := db.balances ++ [.empty orgId currency db.now] }
    else db
  | .lockBalance session orgId, db =>
    { db with
      opened := db.opened ++ [{
        session, startedAt := db.now, locked := (db.balanceOf orgId).map (·.orgId) }] }
  | .insertTransaction session new, db =>
    match db.refusal new with
    | some _ => db
    | none => db.changeOpen session fun transaction =>
      { transaction with inserted := some { new with createdAt := transaction.startedAt } }
  | .updateBalance session orgId change, db =>
    db.changeOpen session fun transaction =>
      { transaction with
        written := ((transaction.written.filter (·.orgId == orgId)) <|> db.balanceOf orgId).map
          (change.apply transaction.startedAt) }
  | .commit session, db =>
    match db.openOf session with
    | none => db
    | some transaction => (db.publish transaction).close session
  | .rollback session, db => db.close session
  | .passTime elapsed, db => { db with now := db.now + elapsed }

/-- A statement waits for the row locks and the unfinished inserts it depends on. A
statement of a transaction needs the transaction to be open. -/
def LedgerStatement.ready : LedgerStatement → LedgerDb → Bool
  | .updateCurrency orgId _, db => !db.isLocked orgId
  | .lockBalance _ orgId, db => !db.isLocked orgId
  | .insertTransaction session new, db =>
    (db.openOf session).isSome && db.opened.all fun other =>
        other.session == session || !other.inserted.any new.conflicts
  | .updateBalance session _ _, db => (db.openOf session).isSome
  | .commit session, db => (db.openOf session).isSome
  | .rollback session, db => (db.openOf session).isSome
  | _, _ => true

instance : Statement LedgerStatement LedgerDb where
  ready := LedgerStatement.ready
  effect := LedgerStatement.effect

abbrev LedgerCall := Call LedgerStatement LedgerDb String

end EveHorizon.Ledger
