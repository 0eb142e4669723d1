import EveHorizon.Ledger.Tables

/-!
# Ledger queries

`ensureBalance` and `createTransaction`. Lower-casing a currency is the language's
own `toLowerCase`, a parameter here: no result depends on what it does.
-/

namespace EveHorizon.Ledger

open Interleaving

def select {α : Type} (query : LedgerDb → α) : LedgerCall α := .perform .select query

def abort {α : Type} (session : Nat) (error : String) : LedgerCall α :=
  .stmt (.rollback session) fun _ => .raise error

@[simp] theorem abort_bind {α β : Type} (session : Nat) (error : String) (cont : α → LedgerCall β) :
    (abort session error >>= cont) = abort session error := rfl

variable (toLowerCase : String → String)

def updateCurrency (orgId : OrgId) (currency : String) : LedgerCall (Option OrgBalance) :=
  .perform (.updateCurrency orgId currency) fun db =>
    (db.balanceOf orgId).map fun row => { row with currency, updatedAt := db.now }

def insertBalance (orgId : OrgId) (currency : String) : LedgerCall (Option OrgBalance) :=
  .stmt (.insertBalance orgId currency) fun db =>
    if db.orgs.contains orgId then
      match db.balanceOf orgId with
      | some _ => .ret none
      | none => .ret (some (.empty orgId currency db.now))
    else .raise ("insert or update on table \"org_balances\" violates foreign key " ++
      "constraint \"org_balances_org_id_fkey\"")

def ensureBalance (orgId : OrgId) (currency : String) : LedgerCall (Option OrgBalance) := do
  let normalized := toLowerCase currency
  match ← select fun db => db.balanceOf orgId with
  | some existing =>
    if existing.currency ≠ normalized then
      let txCount ← select fun db => db.countOf orgId
      if 0 < txCount then
        .raise ("Cannot change currency from '" ++ existing.currency ++ "' to '" ++ normalized ++
          "' for org " ++ orgId ++ ": " ++ toString txCount ++ " transaction(s) already exist")
      else
        updateCurrency orgId normalized
    else
      return some existing
  | none =>
    match ← insertBalance orgId normalized with
    | some row => return some row
    | none => select fun db => db.balanceOf orgId

structure CreateTransactionInput where
  id : String
  orgId : OrgId
  type : TransactionType
  amount : String
  currency : String
  description : Option String := none
  sourceType : SourceType
  sourceId : String

def CreateTransactionInput.new (input : CreateTransactionInput) (amount : ℚ) : NewTransaction where
  id := input.id
  orgId := input.orgId
  type := input.type
  amount := amount
  currency := toLowerCase input.currency
  description := input.description
  sourceType := input.sourceType
  sourceId := input.sourceId

def invalidNumeric (text : String) : String := "invalid input syntax for type numeric: \"" ++ text ++ "\""

def insertTransaction (session : Nat) (input : CreateTransactionInput) : LedgerCall BalanceTransaction :=
  match Decimal.value input.amount with
  | none => abort session (invalidNumeric input.amount)
  | some amount =>
    .stmt (.insertTransaction session (input.new toLowerCase amount)) fun db =>
      match db.refusal (input.new toLowerCase amount) with
      | some error => abort session error
      | none => .ret {
          input.new toLowerCase amount with
          createdAt := ((db.openOf session).map (·.startedAt)).getD db.now }

def updateBalance (session : Nat) (orgId : OrgId) (change : BalanceChange) : LedgerCall Unit :=
  .perform (.updateBalance session orgId change) fun _ => ()

def adjustmentChange (amount : ℚ) : BalanceChange where
  balance := amount
  lifetimeIn := max amount 0
  lifetimeOut := |min amount 0|

variable (input : CreateTransactionInput)

def CreateTransactionInput.deltas : String × String × String :=
  match input.type with
  | .credit | .refund => (input.amount, input.amount, "0")
  | .charge => ("-" ++ input.amount, "0", input.amount)
  | .adjustment => (input.amount, "0", "0")

def CreateTransactionInput.change : Except String BalanceChange :=
  if input.type = .adjustment then
    match Decimal.value input.amount with
    | none => .error (invalidNumeric input.amount)
    | some amount => .ok (adjustmentChange amount)
  else
    let (balanceDelta, lifetimeInDelta, lifetimeOutDelta) := input.deltas
    match Decimal.value balanceDelta, Decimal.value lifetimeInDelta, Decimal.value lifetimeOutDelta with
    | some balance, some lifetimeIn, some lifetimeOut =>
      .ok { balance, lifetimeIn, lifetimeOut }
    | _, _, _ => .error (invalidNumeric balanceDelta)

def lockBalance (session : Nat) (orgId : OrgId) : LedgerCall (Option OrgBalance) :=
  .perform (.lockBalance session orgId) fun db => db.balanceOf orgId

def createTransaction (session : Nat) (input : CreateTransactionInput) : LedgerCall BalanceTransaction := do
  match ← select fun db => db.bySource (input.orgId, input.sourceType, input.sourceId) with
  | some existing => return existing
  | none =>
    match ← lockBalance session input.orgId with
    | none => abort session ("No org_balances row for org " ++ input.orgId ++ ". Call ensureBalance() first.")
    | some lockedBalance =>
      if lockedBalance.currency ≠ toLowerCase input.currency then
        abort session ("Currency mismatch: org balance is '" ++ lockedBalance.currency ++
          "' but transaction uses '" ++ toLowerCase input.currency ++ "'")
      else
        let txRow ← insertTransaction toLowerCase session input
        match input.change with
        | .error error => abort session error
        | .ok change =>
          updateBalance session input.orgId change
          .perform (.commit session) fun _ => txRow

/-- The calls a client can make, the loss of a session's connection, and the passing
of time. -/
inductive LedgerOperation where
  | ensureBalance (orgId : OrgId) (currency : String)
  | createTransaction (input : CreateTransactionInput)
  | loseConnection (session : Nat)
  | passTime (elapsed : Nat)

inductive LedgerReply where
  | balance (row : Option OrgBalance)
  | transaction (row : BalanceTransaction)
  | nothing

def LedgerOperation.call (session : Nat) : LedgerOperation → LedgerCall LedgerReply
  | .ensureBalance orgId currency =>
    return .balance (← Ledger.ensureBalance toLowerCase orgId currency)
  | .createTransaction input =>
    return .transaction (← Ledger.createTransaction toLowerCase session input)
  | .loseConnection lost => .perform (.rollback lost) fun _ => .nothing
  | .passTime elapsed => .perform (.passTime elapsed) fun _ => .nothing

def runLedger (db : LedgerDb) (schedule : List (Choice LedgerOperation)) :
    System LedgerStatement LedgerDb String LedgerReply :=
  System.run (LedgerOperation.call toLowerCase) db schedule

end EveHorizon.Ledger
