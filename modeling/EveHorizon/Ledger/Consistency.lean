import EveHorizon.Ledger.Soundness
import EveHorizon.Library.RelyGuarantee

/-! Consistency of the ledger over whole runs. Every call keeps to the discipline of
`allowed` statements, so balances and transaction rows always agree; a currency is
changed without the row lock, and agrees only when no row came in meanwhile. -/

namespace EveHorizon.Ledger

open Interleaving List Call Option
open LedgerStatement (effect ready)
open LedgerDb (close openOf publish)

/-- What a session relies on: nobody else opens, changes or commits its transaction or
writes the balance row it has locked, and transaction rows are only added. -/
structure Rely (session : Nat) (before after : LedgerDb) : Prop where
  grows : before.transactions ⊆ after.transactions
  closed : before.openOf session = none → after.openOf session = none
  held : ∀ transaction, before.openOf session = some transaction →
    after.openOf session = none ∨ after.openOf session = some transaction ∧
      ∀ orgId balance, transaction.locked = some orgId → before.balanceOf orgId = some balance →
        after.balanceOf orgId = some balance

theorem Rely.refl (session : Nat) (db : LedgerDb) : Rely session db db where
  grows := List.Subset.refl _
  closed := id
  held _ opened := .inr ⟨opened, fun _ _ _ found => found⟩

variable {session : Nat}

theorem Rely.trans {first second third : LedgerDb} (before : Rely session first second)
    (after : Rely session second third) :
    Rely session first third where
  grows := List.Subset.trans before.grows after.grows
  closed isClosed := after.closed (before.closed isClosed)
  held transaction opened := by
    rcases before.held transaction opened with gone | ⟨still, kept⟩
    · exact .inl (after.closed gone)
    · rcases after.held transaction still with gone | ⟨longer, keeps⟩
      · exact .inl gone
      · exact .inr ⟨longer, fun orgId balance locked found =>
          keeps orgId balance locked (kept orgId balance locked found)⟩

variable {change : OpenTransaction → OpenTransaction}

theorem openOf_changeOpen (db : LedgerDb) (session other : Nat)
    (same : ∀ transaction, (change transaction).session = transaction.session) :
    (db.changeOpen session change).openOf other = (db.openOf other).map fun transaction =>
      if transaction.session == session then change transaction else transaction :=
  Table.find?_updateWhere OpenTransaction.session (·.session == session) change
    (fun transaction _ => same transaction) db.opened other

variable {db : LedgerDb} {other : Nat}

theorem openOf_changeOpen_other (different : session ≠ other)
    (same : ∀ transaction, (change transaction).session = transaction.session) :
    (db.changeOpen session change).openOf other = db.openOf other := by
  rw [openOf_changeOpen db session other same]
  cases opened : db.openOf other with
  | none => rfl
  | some transaction =>
    have foreign : (transaction.session == session) = false := by
      rw [(openOf_mem opened).2]
      exact beq_eq_false_iff_ne.mpr different.symm
    simp only [map_some, foreign, Bool.false_eq_true, ↓reduceIte]

theorem openOf_close_other (different : session ≠ other) : (db.close session).openOf other = db.openOf other := by
  simp only [openOf, close, find?_filter]
  congr 1
  funext transaction
  by_cases own : transaction.session = other
  · simp [own, different.symm]
  · simp [own]

theorem openOf_close_self (db : LedgerDb) (session : Nat) : (db.close session).openOf session = none := by
  simp [openOf, close, find?_filter]

variable {before after : LedgerDb}

theorem Rely.of_openOf (grows : before.transactions ⊆ after.transactions)
    (same : after.openOf session = before.openOf session)
    (held : ∀ transaction, before.openOf session = some transaction → ∀ orgId balance, transaction.locked = some orgId →
      before.balanceOf orgId = some balance → after.balanceOf orgId = some balance) :
    Rely session before after where
  grows := grows
  closed isClosed := same.trans isClosed
  held transaction opened := .inr ⟨same.trans opened, held transaction opened⟩

theorem respects_commit (sound : db.Sound) (different : session ≠ other)
    (isAllowed : allowed session (.commit session) db) : Rely other db (effect (.commit session) db) := by
  cases opened : db.openOf session with
  | none =>
    simp only [effect, opened]
    exact .refl other db
  | some transaction =>
    simp only [effect, opened]
    obtain ⟨member, own⟩ := openOf_mem opened
    obtain ⟨_, hasBalance⟩ := isAllowed.2 transaction opened
    obtain ⟨written, isWritten⟩ := isSome_iff_exists.mp hasBalance
    obtain ⟨row, old, time, inserted, present, rfl⟩ := sound.staged transaction member written isWritten
    have pending := sound.pending transaction member row inserted
    refine .of_openOf (subset_append_left _ _) (openOf_close_other different) ?_
    intro foreign theirs orgId balance locked found
    obtain ⟨joined, their⟩ := openOf_mem theirs
    have apart : orgId ≠ old.orgId := by
      rintro rfl
      rw [balanceOf_orgId present] at locked
      have same := sound.locks foreign joined transaction member row.orgId locked pending.locked
      rw [same, own] at their
      exact different their
    have kept := balanceOf_publish db isWritten orgId
    rw [found, map_some, balanceOf_orgId found] at kept
    simp only [BalanceChange.apply, beq_eq_false_iff_ne.mpr apart, Bool.false_eq_true, ↓reduceIte] at kept
    exact kept

theorem respects_effect (sound : db.Sound) (different : session ≠ other)
    {stmt : LedgerStatement} (isReady : stmt.ready db = true)
    (isAllowed : allowed session stmt db) : Rely other db (stmt.effect db) := by
  cases stmt with
  | select => exact .refl other db
  | updateCurrency orgId currency =>
    refine .of_openOf (List.Subset.refl _) rfl ?_
    intro transaction opened held balance locked found
    rw [balanceOf_updateCurrency_other _ currency, found]
    rintro rfl
    have isLocked := isLocked_of_mem (openOf_mem opened).1 locked
    simp [ready, isLocked] at isReady
  | insertBalance orgId currency =>
    simp only [effect]
    split
    · exact .of_openOf (List.Subset.refl _) rfl fun _ _ _ _ _ found => balanceOf_append found _
    · exact .refl other db
  | lockBalance owner orgId =>
    obtain ⟨rfl, _⟩ := isAllowed
    refine .of_openOf (List.Subset.refl _) ?_ fun _ _ _ _ _ found => found
    have foreign : (owner == other) = false := beq_eq_false_iff_ne.mpr different
    simp [effect, openOf, find?_append, foreign]
  | insertTransaction owner new =>
    obtain rfl := isAllowed.1
    simp only [effect]
    split
    · exact .refl other db
    · exact .of_openOf (List.Subset.refl _)
        (openOf_changeOpen_other different fun _ => rfl) fun _ _ _ _ _ found => found
  | updateBalance owner orgId change =>
    obtain rfl := isAllowed.1
    exact .of_openOf (List.Subset.refl _) (openOf_changeOpen_other different fun _ => rfl) fun _ _ _ _ _ found => found
  | commit owner =>
    obtain rfl := isAllowed.1
    exact respects_commit sound different isAllowed
  | rollback owner =>
    by_cases own : owner = other
    · subst own
      exact {
        grows := List.Subset.refl _
        closed := fun _ => openOf_close_self db owner
        held := fun _ _ => .inl (openOf_close_self db owner) }
    · exact .of_openOf (List.Subset.refl _) (openOf_close_other own) fun _ _ _ _ _ found => found
  | passTime elapsed => exact .of_openOf (List.Subset.refl _) rfl fun _ _ _ _ _ found => found

def ledgerDiscipline : Discipline LedgerStatement LedgerDb where
  inv := LedgerDb.Sound
  allowed := allowed
  rely := Rely
  rely_refl := Rely.refl
  rely_trans := Rely.trans
  keeps sound isReady isAllowed := sound_effect sound isReady isAllowed
  respects different sound isReady isAllowed := respects_effect sound different isReady isAllowed

variable (toLowerCase : String → String)

/-- A row that is returned has been committed, under the source it was asked for. -/
def Committed (source : OrgId × SourceType × String) : Except String BalanceTransaction → LedgerDb → Prop
  | .ok row, db => row ∈ db.transactions ∧ row.source = source
  | .error _, _ => True

theorem safe_abort {source : OrgId × SourceType × String} (session : Nat) (error : String) (db : LedgerDb) :
    (abort session error).Safe ledgerDiscipline session (Committed source) db := by
  intro found _ _ _ _
  exact ⟨trivial, trivial⟩

variable {transaction : OpenTransaction}

theorem Rely.still_open (relied : Rely session before after) (opened : before.openOf session = some transaction)
    (isOpen : (after.openOf session).isSome = true) :
    after.openOf session = some transaction ∧
      ∀ orgId balance, transaction.locked = some orgId → before.balanceOf orgId = some balance →
        after.balanceOf orgId = some balance := by
  rcases relied.held transaction opened with gone | still
  · rw [gone] at isOpen
    cases isOpen
  · exact still

section

variable (opened : db.openOf session = some transaction)
include opened

theorem openOf_changeOpen_self (change : OpenTransaction → OpenTransaction)
    (same : ∀ transaction, (change transaction).session = transaction.session) :
    (db.changeOpen session change).openOf session = some (change transaction) := by
  rw [openOf_changeOpen db session session same, opened, map_some, (openOf_mem opened).2, beq_self_eq_true, if_pos rfl]

theorem safe_settle {row : BalanceTransaction} (inserted : transaction.inserted = some row)
    (unwritten : transaction.written = none) :
    (do
      updateBalance session row.orgId row.posting
      .perform (.commit session) fun _ => row : LedgerCall BalanceTransaction).Safe
        ledgerDiscipline session (Committed row.source) db := by
  intro found relied sound isOpen _
  obtain ⟨still, _⟩ := relied.still_open opened isOpen
  refine ⟨⟨rfl, ?_⟩, ?_⟩
  · intro other isOther
    rw [still, Option.some.injEq] at isOther
    subst isOther
    exact ⟨unwritten, row, inserted, rfl, rfl⟩
  · intro later relies _ remains _
    obtain ⟨balance, present, _⟩ := (sound.pending transaction (openOf_mem still).1 row inserted).currency
    have changed : (effect (.updateBalance session row.orgId row.posting)
        found).openOf session = some { transaction with
          written := some (row.posting.apply transaction.startedAt balance) } := by
      refine (openOf_changeOpen_self still (fun transaction => { transaction with
        written := ((transaction.written.filter (·.orgId == row.orgId)) <|>
          found.balanceOf row.orgId).map (row.posting.apply transaction.startedAt) }) fun _ => rfl).trans ?_
      simp [unwritten, present]
    obtain ⟨open_, _⟩ := relies.still_open changed remains
    refine ⟨⟨rfl, ?_⟩, ?_⟩
    · intro other isOther
      rw [open_, Option.some.injEq] at isOther
      subst isOther
      exact ⟨by simp [inserted], rfl⟩
    · have published : row ∈ (effect (.commit session) later).transactions := by
        simp [effect, open_, close, publish, inserted]
      exact ⟨published, rfl⟩

theorem safe_insertAndSettle {input : CreateTransactionInput} {balance : OrgBalance}
    (locked : transaction.locked = some input.orgId) (unwritten : transaction.written = none)
    (present : db.balanceOf input.orgId = some balance) (currency : balance.currency = toLowerCase input.currency) :
    (do
      let txRow ← insertTransaction toLowerCase session input
      match input.change with
      | .error error => abort session error
      | .ok change =>
          updateBalance session input.orgId change
          .perform (.commit session) fun _ => txRow : LedgerCall BalanceTransaction).Safe
        ledgerDiscipline session (Committed (input.orgId, input.sourceType, input.sourceId)) db := by
  cases parsed : Decimal.value input.amount with
  | none =>
    simp only [insertTransaction, parsed, abort_bind]
    exact safe_abort session _ db
  | some amount =>
    simp only [insertTransaction, parsed, stmt_bind]
    intro found relied sound isReady _
    have isOpen : (found.openOf session).isSome = true := by
      simp only [Statement.ready, ready, Bool.and_eq_true] at isReady
      exact isReady.1
    obtain ⟨still, kept⟩ := relied.still_open opened isOpen
    refine ⟨⟨rfl, ?_⟩, ?_⟩
    · intro other isOther
      rw [still, Option.some.injEq] at isOther
      subst isOther
      exact ⟨locked, unwritten, balance, kept input.orgId balance locked present, currency⟩
    · cases refused : found.refusal (input.new toLowerCase amount) with
      | some error =>
        simp only [refused, abort_bind]
        exact safe_abort session error _
      | none =>
        simp only [refused, ret_bind]
        cases accepted : input.change with
        | error error => exact safe_abort session error _
        | ok change =>
          rw [change_eq_posting toLowerCase accepted parsed]
          have inserted : (effect (.insertTransaction session
              (input.new toLowerCase amount)) found).openOf session = some { transaction with
                inserted := some { input.new toLowerCase amount with
                  createdAt := transaction.startedAt } } := by
            simp only [effect, refused]
            exact openOf_changeOpen_self still (fun transaction => { transaction with
              inserted := some { input.new toLowerCase amount with
                createdAt := transaction.startedAt } }) fun _ => rfl
          have settles := safe_settle inserted rfl unwritten
          simp only [still, map_some, getD_some]
          exact settles

end

theorem safe_createTransaction (input : CreateTransactionInput) (closed : db.openOf session = none) :
    (createTransaction toLowerCase session input).Safe ledgerDiscipline session
      (Committed (input.orgId, input.sourceType, input.sourceId)) db := by
  intro found relied _ _ _
  refine ⟨trivial, ?_⟩
  cases existing : found.bySource (input.orgId, input.sourceType, input.sourceId) with
  | some row =>
    simp only [existing]
    exact ⟨mem_of_find?_eq_some existing, by simpa using find?_some existing⟩
  | none =>
    simp only [existing]
    intro later relies _ _ _
    have stillClosed : later.openOf session = none := relies.closed (relied.closed closed)
    refine ⟨⟨rfl, stillClosed⟩, ?_⟩
    cases present : later.balanceOf input.orgId with
    | none =>
      simp only [present]
      exact safe_abort session _ _
    | some lockedBalance =>
      simp only [present, bind_eq, ret_bind]
      split
      · exact safe_abort session _ _
      · next agrees =>
        have opened : (effect (.lockBalance session input.orgId)
            later).openOf session = some {
              session, startedAt := later.now, locked := some input.orgId } := by
          have none := stillClosed
          simp only [openOf] at none
          simp [effect, openOf, find?_append, none, present, balanceOf_orgId present]
        exact safe_insertAndSettle toLowerCase opened rfl rfl present (not_not.mp agrees)

theorem safe_ensureBalance (orgId : OrgId) (currency : String) (db : LedgerDb) :
    (ensureBalance toLowerCase orgId currency).Safe ledgerDiscipline session (fun _ _ => True) db := by
  intro found _ _ _ _
  refine ⟨trivial, ?_⟩
  cases existing : found.balanceOf orgId with
  | some row =>
    simp only [existing, bind_eq, ret_bind]
    split
    · intro counted _ _ _ _
      refine ⟨trivial, ?_⟩
      simp only [bind_eq, ret_bind]
      split
      · trivial
      · intro updated _ _ _ _
        exact ⟨trivial, trivial⟩
    · trivial
  | none =>
    simp only [existing]
    intro inserting _ _ _ _
    refine ⟨trivial, ?_⟩
    simp only [bind_eq]
    split
    · cases inserting.balanceOf orgId with
      | some race =>
        intro reread _ _ _ _
        exact ⟨trivial, trivial⟩
      | none => trivial
    · trivial

theorem safe_operation (session : Nat) (operation : LedgerOperation) (closed : db.openOf session = none) :
    (operation.call toLowerCase session).Safe ledgerDiscipline session (fun _ _ => True) db := by
  cases operation with
  | ensureBalance orgId currency =>
    exact (safe_ensureBalance toLowerCase orgId currency db).bind (fun _ _ _ => trivial) fun _ _ _ => trivial
  | createTransaction input =>
    exact (safe_createTransaction toLowerCase input closed).bind (fun _ _ _ => trivial) fun _ _ _ => trivial
  | loseConnection lost | passTime elapsed =>
    intro found _ _ _ _
    exact ⟨trivial, trivial⟩

theorem runLedger_kept (sound : db.Sound) (quiet : db.opened = []) (schedule : List (Choice LedgerOperation)) :
    System.Kept ledgerDiscipline (fun _ _ _ => True) (fun _ _ _ _ => True) (LedgerOperation.call toLowerCase)
      (operations schedule) (runLedger toLowerCase db schedule).trace (runLedger toLowerCase db schedule).store := by
  refine System.run_kept _ _ (fun session operation _ => ?_) sound fun _ _ => trivial
  exact safe_operation toLowerCase session operation (by simp [openOf, quiet])

def LedgerStatement.CurrencyAgrees : LedgerStatement → LedgerDb → Prop
  | .updateCurrency orgId currency, db =>
    ∀ row ∈ db.transactions, row.orgId = orgId → row.currency = currency
  | _, _ => True

instance (db : LedgerDb) : (stmt : LedgerStatement) → Decidable (stmt.CurrencyAgrees db)
  | .updateCurrency orgId currency => inferInstanceAs (Decidable
      (∀ row ∈ db.transactions, row.orgId = orgId → row.currency = currency))
  | .select => .isTrue trivial
  | .insertBalance _ _ => .isTrue trivial
  | .lockBalance _ _ => .isTrue trivial
  | .insertTransaction _ _ => .isTrue trivial
  | .updateBalance _ _ _ => .isTrue trivial
  | .commit _ => .isTrue trivial
  | .rollback _ => .isTrue trivial
  | .passTime _ => .isTrue trivial

theorem currencies_updateCurrency (agree : ∀ row ∈ db.transactions, ∃ balance, db.balanceOf row.orgId = some balance ∧
      balance.currency = row.currency) (orgId : OrgId) (currency : String) : (∀ row ∈ db.transactions, ∃ balance,
      (effect (.updateCurrency orgId currency) db).balanceOf row.orgId =
        some balance ∧ balance.currency = row.currency) ↔
    LedgerStatement.CurrencyAgrees (.updateCurrency orgId currency) db := by
  refine forall₂_congr fun row member => ?_
  obtain ⟨balance, found, same⟩ := agree row member
  rw [balanceOf_updateCurrency, found, map_some, balanceOf_orgId found]
  by_cases own : row.orgId = orgId
  · simp [own, eq_comm]
  · simp [own, same]

theorem consistent_effect_iff (sound : db.Sound) (consistent : db.Consistent)
    {stmt : LedgerStatement} (isReady : stmt.ready db = true) (isAllowed : allowed session stmt db) :
    (stmt.effect db).Consistent ↔ stmt.CurrencyAgrees db := by
  have after := sound_effect sound isReady isAllowed
  have reduces : (stmt.effect db).Consistent ↔ ∀ row ∈ (stmt.effect db).transactions, ∃ balance,
        (stmt.effect db).balanceOf row.orgId = some balance ∧ balance.currency = row.currency :=
    ⟨LedgerDb.Consistent.currencies, fun currencies => ⟨after.balanced, after.sources, currencies⟩⟩
  rw [reduces]
  have agree := consistent.currencies
  cases stmt with
  | updateCurrency orgId currency => exact currencies_updateCurrency agree orgId currency
  | insertBalance orgId currency =>
    refine iff_of_true ?_ trivial
    simp only [effect]
    split
    · intro row member
      obtain ⟨balance, found, same⟩ := agree row member
      exact ⟨balance, balanceOf_append found _, same⟩
    · exact agree
  | insertTransaction owner new =>
    refine iff_of_true ?_ trivial
    simp only [effect]
    split
    · exact agree
    · exact agree
  | commit owner =>
    refine iff_of_true ?_ trivial
    cases opened : db.openOf owner with
    | none => simpa only [effect, opened] using agree
    | some transaction =>
      obtain rfl := isAllowed.1
      obtain ⟨member, _⟩ := openOf_mem opened
      obtain ⟨_, hasBalance⟩ := isAllowed.2 transaction opened
      obtain ⟨written, isWritten⟩ := isSome_iff_exists.mp hasBalance
      obtain ⟨row, old, time, inserted, present, rfl⟩ := sound.staged transaction member written isWritten
      simp only [effect, opened]
      have kept : ∀ orgId balance, db.balanceOf orgId = some balance → ∃ newer,
          ((db.publish transaction).close owner).balanceOf orgId = some newer ∧ newer.currency = balance.currency := by
        intro orgId balance found
        refine ⟨_, (balanceOf_publish db isWritten orgId).trans (by rw [found]; rfl), ?_⟩
        by_cases same : balance.orgId = old.orgId
        · have equal : balance = old := by
            rw [balanceOf_orgId found, balanceOf_orgId present] at same
            rw [same, present] at found
            exact (Option.some.inj found).symm
          simp [equal, BalanceChange.apply]
        · simp [same, BalanceChange.apply]
      intro added joined
      have inRows : added ∈ db.transactions ∨ added = row := by
        simpa [close, publish, inserted] using joined
      rcases inRows with earlier | rfl
      · obtain ⟨balance, found, same⟩ := agree added earlier
        obtain ⟨newer, isNewer, currency⟩ := kept added.orgId balance found
        exact ⟨newer, isNewer, currency.trans same⟩
      · obtain ⟨balance, found, same⟩ := (sound.pending transaction member added inserted).currency
        obtain ⟨newer, isNewer, currency⟩ := kept added.orgId balance found
        exact ⟨newer, isNewer, currency.trans same⟩
  | _ => exact iff_of_true agree trivial

/-- A row that comes in leaves its balance at the signed sum of the rows up to it. -/
def PostsRunningSum (execution : Execution LedgerStatement LedgerDb) : Prop :=
  ∀ row, execution.after.transactions = execution.before.transactions ++ [row] →
    ∃ balance, execution.after.balanceOf row.orgId = some balance ∧
      balance.balance = signedSum row.orgId execution.after.transactions

theorem sound_postsRunningSum {execution : Execution LedgerStatement LedgerDb}
    (after : execution.after.Sound) : PostsRunningSum execution := by
  intro row added
  have member : row ∈ execution.after.transactions := by simp [added]
  obtain ⟨balance, found⟩ := isSome_iff_exists.mp (after.owned row member)
  have balanced := after.balanced balance (mem_of_find?_eq_some found)
  refine ⟨balance, found, ?_⟩
  rw [balanced.sum, balanceOf_orgId found]

/-- In every interleaving of the ledger calls, from a consistent ledger with no open
transaction, the ledger stays consistent exactly when every change of currency finds
only rows that already have the new currency. -/
theorem ledger_consistent_iff {db : LedgerDb} (consistent : db.Consistent)
    (quiet : db.opened = []) (schedule : List (Choice LedgerOperation)) :
    (∀ execution ∈ (runLedger toLowerCase db schedule).trace, execution.after.Consistent ∧ PostsRunningSum execution) ↔
    ∀ execution ∈ (runLedger toLowerCase db schedule).trace, execution.statement.CurrencyAgrees execution.before := by
  have kept := runLedger_kept toLowerCase (consistent.sound quiet) quiet schedule
  have exact_condition := System.run_invariant_iff (LedgerOperation.call toLowerCase) consistent
    (fun execution => execution.statement.CurrencyAgrees execution.before) schedule
    fun execution member before => by
      obtain ⟨isReady, executed⟩ := System.run_executes _ db schedule execution member
      obtain ⟨sound, isAllowed⟩ := kept.executed execution member
      rw [executed]
      exact consistent_effect_iff sound before isReady isAllowed
  rw [← runLedger] at exact_condition
  rw [← exact_condition]
  refine forall₂_congr fun execution member => and_iff_left ?_
  exact sound_postsRunningSum (kept.after member)

def dollarLedger : LedgerDb :=
  { orgs := ["org"], balances := [.empty "org" "usd" 0] }

theorem dollarLedger_consistent : dollarLedger.Consistent where
  balanced := by
    intro row member
    rw [mem_singleton.mp member]
    exact ⟨by simp [OrgBalance.empty], by simp [OrgBalance.empty, signedSum, dollarLedger]⟩
  sources := nodup_nil
  currencies := by simp [dollarLedger]

def dollarCredit : CreateTransactionInput where
  id := "bt_1"
  orgId := "org"
  type := .credit
  amount := "12.50"
  currency := "usd"
  sourceType := .manual
  sourceId := "bt_1"

def callsInTurn : List (Choice LedgerOperation) :=
  [.start (.ensureBalance "org" "eur"), .advance 0, .advance 0, .advance 0, .advance 0,
    .start (.createTransaction { dollarCredit with currency := "eur" }),
    .advance 0, .advance 0, .advance 0, .advance 0, .advance 0, .advance 0]

theorem calls_in_turn_consistent : dollarLedger.Consistent ∧ dollarLedger.opened = [] ∧
    (runLedger id dollarLedger callsInTurn).store.transactions.length = 1 ∧
    ∀ execution ∈ (runLedger id dollarLedger callsInTurn).trace,
      execution.after.Consistent ∧ PostsRunningSum execution := by
  refine ⟨dollarLedger_consistent, rfl, by decide +kernel, ?_⟩
  apply (ledger_consistent_iff id dollarLedger_consistent rfl callsInTurn).mpr
  decide +kernel

/-- `ensureBalance` counts no transaction; a credit in dollars commits; then the currency
becomes euros. -/
def currencyRace : List (Choice LedgerOperation) :=
  [.start (.ensureBalance "org" "eur"), .advance 0, .advance 0, .start (.createTransaction dollarCredit),
    .advance 1, .advance 1, .advance 1, .advance 1, .advance 1, .advance 0]

theorem currency_changes_behind_credit :
    dollarLedger.Consistent ∧ dollarLedger.opened = [] ∧ ¬ ∀ execution ∈ (runLedger id dollarLedger currencyRace).trace,
      execution.after.Consistent ∧ PostsRunningSum execution := by
  refine ⟨dollarLedger_consistent, rfl, ?_⟩
  intro consistent
  have mixed : ∃ execution ∈ (runLedger id dollarLedger currencyRace).trace,
      (execution.after.balanceOf "org").map (·.currency) = some "eur" ∧
        execution.after.transactions.map (fun row => (row.orgId, row.currency)) = [("org", "usd")] := by
    decide +kernel
  obtain ⟨execution, member, euros, rows⟩ := mixed
  obtain ⟨row, isRow, entry⟩ := mem_map.mp (by rw [rows]; exact mem_singleton_self _)
  rw [Prod.mk.injEq] at entry
  obtain ⟨balance, found, same⟩ := (consistent execution member).1.currencies row isRow
  rw [entry.1] at found
  rw [found, map_some, Option.some.injEq, same, entry.2] at euros
  revert euros
  decide

end EveHorizon.Ledger
