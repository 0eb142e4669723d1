import EveHorizon.Ledger.Operations
import Mathlib.Tactic.Ring

/-! What the statements of the ledger keep. A balance row and the transaction rows
of its organization move together, because the row is locked from the currency check
to the commit. -/

namespace EveHorizon.Ledger

open Interleaving List Option
open LedgerStatement (effect ready)

def NewTransaction.posting (row : NewTransaction) : BalanceChange :=
  match row.type with
  | .credit | .refund => { balance := row.amount, lifetimeIn := row.amount, lifetimeOut := 0 }
  | .charge => { balance := -row.amount, lifetimeIn := 0, lifetimeOut := row.amount }
  | .adjustment => adjustmentChange row.amount

def NewTransaction.signedAmount (row : NewTransaction) : ℚ :=
  match row.type with
  | .charge => -row.amount
  | .credit | .refund | .adjustment => row.amount

def signedSum (orgId : OrgId) (rows : List BalanceTransaction) : ℚ :=
  ((rows.filter fun row => row.orgId == orgId).map fun row => row.signedAmount).sum

theorem posting_balance (row : NewTransaction) : row.posting.balance = row.signedAmount := by
  unfold NewTransaction.posting NewTransaction.signedAmount
  cases row.type <;> rfl

theorem posting_net (row : NewTransaction) :
    row.posting.balance = row.posting.lifetimeIn - row.posting.lifetimeOut := by
  unfold NewTransaction.posting
  cases row.type with
  | credit | refund | charge => simp
  | adjustment =>
    simp only [adjustmentChange]
    rcases le_total row.amount 0 with negative | positive
    · rw [max_eq_right negative, min_eq_left negative, abs_of_nonpos negative]
      ring
    · rw [max_eq_left positive, min_eq_right positive, abs_zero]
      ring

theorem change_eq_posting (toLowerCase : String → String) {input : CreateTransactionInput}
    {change : BalanceChange} {amount : ℚ} (accepted : input.change = .ok change)
    (parsed : Decimal.value input.amount = some amount) : change = (input.new toLowerCase amount).posting := by
  have zero : Decimal.value "0" = some 0 := by decide +kernel
  simp only [CreateTransactionInput.change, NewTransaction.posting,
    CreateTransactionInput.new, CreateTransactionInput.deltas] at accepted ⊢
  cases type : input.type with
  | credit | refund =>
    simp only [type, parsed, zero, reduceCtorEq, ↓reduceIte, Except.ok.injEq] at accepted
    exact accepted.symm
  | charge =>
    simp only [type, reduceCtorEq, ↓reduceIte, parsed, zero] at accepted
    cases negated : Decimal.value ("-" ++ input.amount) with
    | none => simp [negated] at accepted
    | some delta =>
      have same := Decimal.value_of_negated negated
      rw [parsed, Option.some.injEq] at same
      simp only [negated, Except.ok.injEq] at accepted
      rw [← accepted, same, neg_neg]
  | adjustment =>
    simp only [type, ↓reduceIte, parsed, Except.ok.injEq] at accepted
    exact accepted.symm

theorem signedSum_append (orgId : OrgId) (rows : List BalanceTransaction) (row : BalanceTransaction) :
    signedSum orgId (rows ++ [row]) = signedSum orgId rows + if row.orgId = orgId then row.signedAmount else 0 := by
  by_cases same : row.orgId = orgId <;> simp [signedSum, same]

structure OrgBalance.Balanced (row : OrgBalance) (rows : List BalanceTransaction) : Prop where
  net : row.balance = row.lifetimeIn - row.lifetimeOut
  sum : row.balance = signedSum row.orgId rows

structure LedgerDb.Consistent (db : LedgerDb) : Prop where
  balanced : ∀ row ∈ db.balances, row.Balanced db.transactions
  sources : (db.transactions.map fun row => row.source).Nodup
  currencies : ∀ row ∈ db.transactions, ∃ balance, db.balanceOf row.orgId = some balance ∧
    balance.currency = row.currency

/-- A row of an open transaction: its balance row is locked and has its currency, and
its source is new. -/
structure OpenTransaction.Pending (db : LedgerDb) (transaction : OpenTransaction)
    (row : BalanceTransaction) : Prop where
  locked : transaction.locked = some row.orgId
  source : row.source ∉ db.transactions.map fun other => other.source
  currency : ∃ balance, db.balanceOf row.orgId = some balance ∧ balance.currency = row.currency

def OpenTransaction.Staged (db : LedgerDb) (transaction : OpenTransaction)
    (written : OrgBalance) : Prop :=
  ∃ row balance time, transaction.inserted = some row ∧ db.balanceOf row.orgId = some balance ∧
    written = row.posting.apply time balance

/-- What every ledger reached by the calls satisfies, whatever the currencies. -/
structure LedgerDb.Sound (db : LedgerDb) : Prop where
  sessions : ∀ first ∈ db.opened, ∀ second ∈ db.opened, first.session = second.session → first = second
  locks : ∀ first ∈ db.opened, ∀ second ∈ db.opened, ∀ orgId, first.locked = some orgId →
    second.locked = some orgId → first = second
  owned : ∀ row ∈ db.transactions, (db.balanceOf row.orgId).isSome = true
  balanced : ∀ row ∈ db.balances, row.Balanced db.transactions
  sources : (db.transactions.map fun row => row.source).Nodup
  pending : ∀ transaction ∈ db.opened, ∀ row, transaction.inserted = some row → transaction.Pending db row
  staged : ∀ transaction ∈ db.opened, ∀ written, transaction.written = some written → transaction.Staged db written

variable {db : LedgerDb}

theorem LedgerDb.Consistent.sound (consistent : db.Consistent) (quiet : db.opened = []) : db.Sound where
  sessions := by simp [quiet]
  locks := by simp [quiet]
  owned := by
    intro row member
    obtain ⟨balance, found, _⟩ := consistent.currencies row member
    rw [found]
    rfl
  balanced := consistent.balanced
  sources := consistent.sources
  pending := by simp [quiet]
  staged := by simp [quiet]

variable {session : Nat} {transaction : OpenTransaction}

theorem openOf_mem (found : db.openOf session = some transaction) :
    transaction ∈ db.opened ∧ transaction.session = session :=
  ⟨mem_of_find?_eq_some found, by simpa using find?_some found⟩

variable {orgId : OrgId}

theorem balanceOf_orgId {row : OrgBalance} (found : db.balanceOf orgId = some row) : row.orgId = orgId := by
  simpa using find?_some found

theorem isLocked_of_mem (member : transaction ∈ db.opened) (locked : transaction.locked = some orgId) :
    db.isLocked orgId = true :=
  any_eq_true.mpr ⟨transaction, member, by simp [locked]⟩

theorem LedgerDb.Sound.of_tables {after : LedgerDb} (sound : db.Sound)
    (opened : after.opened ⊆ db.opened)
    (held : ∀ transaction ∈ after.opened, ∀ orgId, transaction.locked = some orgId →
      ∀ balance, db.balanceOf orgId = some balance → after.balanceOf orgId = some balance)
    (unused : ∀ transaction ∈ after.opened, ∀ row, transaction.inserted = some row →
      row.source ∉ after.transactions.map fun other => other.source)
    (owned : ∀ row ∈ after.transactions, (after.balanceOf row.orgId).isSome = true)
    (balanced : ∀ row ∈ after.balances, row.Balanced after.transactions)
    (sources : (after.transactions.map fun row => row.source).Nodup) : after.Sound where
  sessions first member second other := sound.sessions first (opened member) second (opened other)
  locks first member second other := sound.locks first (opened member) second (opened other)
  owned := owned
  balanced := balanced
  sources := sources
  pending := by
    intro transaction member row inserted
    have before := sound.pending transaction (opened member) row inserted
    obtain ⟨balance, found, currency⟩ := before.currency
    exact ⟨before.locked, unused transaction member row inserted, balance,
      held transaction member row.orgId before.locked balance found, currency⟩
  staged := by
    intro transaction member written isWritten
    obtain ⟨row, balance, time, inserted, found, rfl⟩ := sound.staged transaction (opened member) written isWritten
    have locked := (sound.pending transaction (opened member) row inserted).locked
    exact ⟨row, balance, time, inserted, held transaction member row.orgId locked balance found, rfl⟩

theorem balanceOf_updateCurrency (db : LedgerDb) (orgId : OrgId) (currency : String) (other : OrgId) :
    (effect (.updateCurrency orgId currency) db).balanceOf other = (db.balanceOf other).map fun row =>
        if row.orgId == orgId then { row with currency, updatedAt := db.now } else row :=
  Table.find?_updateWhere OrgBalance.orgId (·.orgId == orgId)
    (fun row => { row with currency, updatedAt := db.now }) (fun _ _ => rfl) db.balances other

theorem balanceOf_updateCurrency_other {other : OrgId} (different : other ≠ orgId) (currency : String) :
    (effect (.updateCurrency orgId currency) db).balanceOf other = db.balanceOf other := by
  rw [balanceOf_updateCurrency]
  cases found : db.balanceOf other with
  | none => rfl
  | some row =>
    have untouched : (row.orgId == orgId) = false := by
      rw [balanceOf_orgId found]
      exact beq_eq_false_iff_ne.mpr different
    simp only [map_some, untouched, Bool.false_eq_true, ↓reduceIte]

section

variable (sound : db.Sound)
include sound

theorem sound_updateCurrency (unlocked : db.isLocked orgId = false) (currency : String) :
    (effect (.updateCurrency orgId currency) db).Sound := by
  refine sound.of_tables (List.Subset.refl _) ?_ ?_ ?_ ?_ sound.sources
  · intro transaction member other locked balance found
    rw [balanceOf_updateCurrency_other _ currency, found]
    rintro rfl
    have isLocked : db.isLocked other = true := isLocked_of_mem member locked
    rw [unlocked] at isLocked
    cases isLocked
  · intro transaction member row inserted
    exact (sound.pending transaction member row inserted).source
  · intro row member
    rw [balanceOf_updateCurrency, isSome_map]
    exact sound.owned row member
  · intro row member
    obtain ⟨old, present, ⟨_, rfl⟩ | ⟨_, rfl⟩⟩ := Table.mem_updateWhere member
    · have balanced := sound.balanced old present
      exact ⟨balanced.net, balanced.sum⟩
    · exact sound.balanced row present

omit sound in
theorem balanceOf_append {row : OrgBalance} (found : db.balanceOf orgId = some row) (new : OrgBalance) :
    ({ db with balances := db.balances ++ [new] } : LedgerDb).balanceOf orgId = some row := by
  simp only [LedgerDb.balanceOf] at found ⊢
  rw [find?_append, found]
  rfl

theorem sound_insertBalance (orgId : OrgId) (currency : String) :
    (effect (.insertBalance orgId currency) db).Sound := by
  simp only [effect]
  split
  · next inserts =>
    simp only [Bool.and_eq_true, isNone_iff_eq_none] at inserts
    have fresh : ∀ row ∈ db.transactions, row.orgId ≠ orgId := by
      rintro row member rfl
      have present := sound.owned row member
      rw [inserts.2] at present
      cases present
    refine sound.of_tables (List.Subset.refl _) ?_ ?_ ?_ ?_ sound.sources
    · intro transaction member other locked balance found
      exact balanceOf_append found _
    · intro transaction member row inserted
      exact (sound.pending transaction member row inserted).source
    · intro row member
      obtain ⟨balance, found⟩ := isSome_iff_exists.mp (sound.owned row member)
      rw [balanceOf_append found _]
      rfl
    · intro row member
      rcases mem_append.mp member with old | new
      · exact sound.balanced row old
      · rw [mem_singleton.mp new]
        have none : db.transactions.filter (fun row => row.orgId == orgId) = [] := by
          rw [filter_eq_nil_iff]
          intro row member
          simpa using fresh row member
        exact ⟨by simp [OrgBalance.empty], by simp [OrgBalance.empty, signedSum, none]⟩
  · exact sound

variable {change : OpenTransaction → OpenTransaction}

omit sound in
theorem mem_changeOpen (member : transaction ∈ (db.changeOpen session change).opened) :
    ∃ old ∈ db.opened, (old.session = session ∧ transaction = change old) ∨
      (old.session ≠ session ∧ transaction = old) := by
  obtain ⟨old, present, ⟨chosen, rfl⟩ | ⟨other, rfl⟩⟩ := Table.mem_updateWhere member
  · exact ⟨old, present, .inl ⟨beq_iff_eq.mp chosen, rfl⟩⟩
  · exact ⟨transaction, present, .inr ⟨beq_eq_false_iff_ne.mp other, rfl⟩⟩

theorem sound_changeOpen (sameSession : ∀ transaction, (change transaction).session = transaction.session)
    (sameLock : ∀ transaction, (change transaction).locked = transaction.locked)
    (pending : ∀ transaction ∈ db.opened, transaction.session = session →
      ∀ row, (change transaction).inserted = some row → (change transaction).Pending db row)
    (staged : ∀ transaction ∈ db.opened, transaction.session = session →
      ∀ written, (change transaction).written = some written → (change transaction).Staged db written) :
    (db.changeOpen session change).Sound where
  sessions := by
    intro first member second other same
    obtain ⟨old, present, changed⟩ := mem_changeOpen member
    obtain ⟨older, earlier, altered⟩ := mem_changeOpen other
    rcases changed with ⟨own, rfl⟩ | ⟨foreign, rfl⟩ <;> rcases altered with ⟨mine, rfl⟩ | ⟨alien, rfl⟩
    · rw [sound.sessions old present older earlier (own.trans mine.symm)]
    · rw [sameSession, own] at same
      exact absurd same.symm alien
    · rw [sameSession, mine] at same
      exact absurd same foreign
    · exact sound.sessions first present second earlier same
  locks := by
    intro first member second other orgId locked held
    obtain ⟨old, present, changed⟩ := mem_changeOpen member
    obtain ⟨older, earlier, altered⟩ := mem_changeOpen other
    rcases changed with ⟨own, rfl⟩ | ⟨foreign, rfl⟩ <;> rcases altered with ⟨mine, rfl⟩ | ⟨alien, rfl⟩
    · rw [sameLock] at locked held
      rw [sound.locks old present older earlier orgId locked held]
    · rw [sameLock] at locked
      rw [sound.locks old present second earlier orgId locked held] at own
      exact absurd own alien
    · rw [sameLock] at held
      rw [← sound.locks first present older earlier orgId locked held] at mine
      exact absurd mine foreign
    · exact sound.locks first present second earlier orgId locked held
  owned := sound.owned
  balanced := sound.balanced
  sources := sound.sources
  pending := by
    intro transaction member
    obtain ⟨old, present, ⟨own, rfl⟩ | ⟨_, rfl⟩⟩ := mem_changeOpen member
    · intro row inserted
      obtain ⟨locked, source, currency⟩ := pending old present own row inserted
      exact ⟨locked, source, currency⟩
    · intro row inserted
      obtain ⟨locked, source, currency⟩ := sound.pending transaction present row inserted
      exact ⟨locked, source, currency⟩
  staged := by
    intro transaction member
    obtain ⟨old, present, ⟨own, rfl⟩ | ⟨_, rfl⟩⟩ := mem_changeOpen member
    · exact staged old present own
    · exact sound.staged transaction present

theorem sound_lockBalance (unlocked : db.isLocked orgId = false) (closed : db.openOf session = none) :
    (effect (.lockBalance session orgId) db).Sound := by
  have free : ∀ transaction ∈ db.opened, ∀ other,
      (db.balanceOf orgId).map (·.orgId) = some other → transaction.locked ≠ some other := by
    intro transaction member other existing locked
    obtain ⟨row, found, rfl⟩ := map_eq_some_iff.mp existing
    rw [balanceOf_orgId found] at locked
    have isLocked := isLocked_of_mem member locked
    rw [unlocked] at isLocked
    cases isLocked
  have unused : ∀ transaction ∈ db.opened, transaction.session ≠ session := by
    intro transaction member
    simpa using find?_eq_none.mp closed transaction member
  exact {
    sessions := by
      intro first member second other same
      rcases mem_append.mp member with old | new <;> rcases mem_append.mp other with older | newer
      · exact sound.sessions first old second older same
      · rw [mem_singleton.mp newer] at same
        exact absurd same (unused first old)
      · rw [mem_singleton.mp new] at same
        exact absurd same.symm (unused second older)
      · rw [mem_singleton.mp new, mem_singleton.mp newer]
    locks := by
      intro first member second other orgId locked held
      rcases mem_append.mp member with old | new <;> rcases mem_append.mp other with older | newer
      · exact sound.locks first old second older orgId locked held
      · rw [mem_singleton.mp newer] at held
        exact absurd locked (free first old orgId held)
      · rw [mem_singleton.mp new] at locked
        exact absurd held (free second older orgId locked)
      · rw [mem_singleton.mp new, mem_singleton.mp newer]
    owned := sound.owned
    balanced := sound.balanced
    sources := sound.sources
    pending := by
      intro transaction member row inserted
      rcases mem_append.mp member with old | new
      · obtain ⟨locked, source, currency⟩ := sound.pending transaction old row inserted
        exact ⟨locked, source, currency⟩
      · rw [mem_singleton.mp new] at inserted
        cases inserted
    staged := by
      intro transaction member written isWritten
      rcases mem_append.mp member with old | new
      · exact sound.staged transaction old written isWritten
      · rw [mem_singleton.mp new] at isWritten
        cases isWritten }

/-- The statements a session may execute: those of its own transaction, in their order. -/
def allowed (session : Nat) : LedgerStatement → LedgerDb → Prop
  | .lockBalance owner _, db => owner = session ∧ db.openOf session = none
  | .insertTransaction owner new, db => owner = session ∧ ∀ transaction, db.openOf session = some transaction →
        transaction.locked = some new.orgId ∧ transaction.written = none ∧
          ∃ balance, db.balanceOf new.orgId = some balance ∧ balance.currency = new.currency
  | .updateBalance owner orgId change, db => owner = session ∧ ∀ transaction, db.openOf session = some transaction →
        transaction.written = none ∧ ∃ row, transaction.inserted = some row ∧ row.orgId = orgId ∧ change = row.posting
  | .commit owner, db => owner = session ∧ ∀ transaction, db.openOf session = some transaction →
        transaction.inserted.isSome = true ∧ transaction.written.isSome = true
  | _, _ => True

theorem openOf_of_mem (member : transaction ∈ db.opened) : db.openOf transaction.session = some transaction := by
  cases found : db.openOf transaction.session with
  | none => exact absurd (find?_eq_none.mp found transaction member) (by simp)
  | some other =>
    obtain ⟨present, same⟩ := openOf_mem found
    rw [sound.sessions other present transaction member same]

variable {new : NewTransaction}

omit sound in
theorem source_unused (accepted : db.refusal new = none) : ∀ row ∈ db.transactions, row.source ≠ new.source := by
  intro row member same
  unfold LedgerDb.refusal at accepted
  split at accepted
  · cases accepted
  · split at accepted
    · cases accepted
    · next unused => exact unused (any_eq_true.mpr ⟨row, member, beq_iff_eq.mpr same⟩)

theorem sound_insertTransaction (isAllowed : allowed session (.insertTransaction session new) db) :
    (effect (.insertTransaction session new) db).Sound := by
  cases refused : db.refusal new with
  | some error => simpa only [effect, refused] using sound
  | none =>
    simp only [effect, refused]
    refine sound_changeOpen sound (fun _ => rfl) (fun _ => rfl) ?_ ?_
    · intro transaction member own row inserted
      cases inserted
      obtain ⟨locked, _, currency⟩ := isAllowed.2 transaction (own ▸ openOf_of_mem sound member)
      refine ⟨locked, ?_, currency⟩
      intro used
      obtain ⟨other, present, same⟩ := mem_map.mp used
      exact source_unused refused other present same
    · intro transaction member own written isWritten
      obtain ⟨_, unwritten, _⟩ := isAllowed.2 transaction (own ▸ openOf_of_mem sound member)
      simp only [unwritten, reduceCtorEq] at isWritten

theorem sound_updateBalance {change : BalanceChange}
    (isAllowed : allowed session (.updateBalance session orgId change) db) :
    (effect (.updateBalance session orgId change) db).Sound := by
  refine sound_changeOpen sound (fun _ => rfl) (fun _ => rfl) ?_ ?_
  · intro transaction member own row inserted
    obtain ⟨locked, source, currency⟩ := sound.pending transaction member row inserted
    exact ⟨locked, source, currency⟩
  · intro transaction member own written isWritten
    obtain ⟨unwritten, row, inserted, rfl, rfl⟩ := isAllowed.2 transaction (own ▸ openOf_of_mem sound member)
    simp only [unwritten, filter_none, orElse_eq_orElse, orElse_none] at isWritten
    obtain ⟨balance, found, rfl⟩ := map_eq_some_iff.mp isWritten
    exact ⟨row, balance, transaction.startedAt, inserted, found, rfl⟩

variable {written : OrgBalance}

omit sound in
theorem balanceOf_publish (db : LedgerDb) (isWritten : transaction.written = some written) (other : OrgId) :
    (db.publish transaction).balanceOf other =
      (db.balanceOf other).map fun row => if row.orgId == written.orgId then written else row := by
  simp only [LedgerDb.balanceOf, LedgerDb.publish, isWritten]
  exact Table.find?_updateWhere OrgBalance.orgId (·.orgId == written.orgId) (fun _ => written)
    (fun _ chosen => (beq_iff_eq.mp chosen).symm) db.balances other

theorem balanced_publish (member : transaction ∈ db.opened) {row : BalanceTransaction}
    (inserted : transaction.inserted = some row) (isWritten : transaction.written = some written) :
    ∀ balance ∈ (db.publish transaction).balances, balance.Balanced (db.publish transaction).transactions := by
  obtain ⟨posted, old, time, isPosted, found, rfl⟩ := sound.staged transaction member written isWritten
  rw [inserted, Option.some.injEq] at isPosted
  subst isPosted
  have owner := balanceOf_orgId found
  have before := sound.balanced old (mem_of_find?_eq_some found)
  simp only [LedgerDb.publish, isWritten, inserted, toList_some]
  intro balance present
  obtain ⟨earlier, present, ⟨_, rfl⟩ | ⟨other, rfl⟩⟩ := Table.mem_updateWhere present
  · have net := posting_net row.toNewTransaction
    have sum := posting_balance row.toNewTransaction
    refine ⟨?_, ?_⟩
    · simp only [BalanceChange.apply]
      linarith [before.net]
    · simp only [BalanceChange.apply, signedSum_append, owner, ↓reduceIte]
      rw [← owner, ← before.sum, sum]
  · have balanced := sound.balanced balance present
    have different : row.orgId ≠ balance.orgId := by
      intro same
      simp [BalanceChange.apply, owner, same] at other
    refine ⟨balanced.net, ?_⟩
    rw [signedSum_append, if_neg different, add_zero]
    exact balanced.sum

theorem sound_commit (isAllowed : allowed session (.commit session) db) : (effect (.commit session) db).Sound := by
  cases opened : db.openOf session with
  | none => simpa only [effect, opened] using sound
  | some transaction =>
    simp only [effect, opened]
    obtain ⟨member, own⟩ := openOf_mem opened
    obtain ⟨hasRow, hasBalance⟩ := isAllowed.2 transaction opened
    obtain ⟨row, inserted⟩ := isSome_iff_exists.mp hasRow
    obtain ⟨written, isWritten⟩ := isSome_iff_exists.mp hasBalance
    have pending := sound.pending transaction member row inserted
    have target : written.orgId = row.orgId := by
      obtain ⟨posted, old, time, isPosted, found, rfl⟩ := sound.staged transaction member written isWritten
      rw [inserted, Option.some.injEq] at isPosted
      subst isPosted
      have owner := balanceOf_orgId found
      exact owner
    -- A transaction that stays open holds the lock of another organization.
    have apart : ∀ other ∈ ((db.publish transaction).close session).opened, ∀ orgId,
        other.locked = some orgId → orgId ≠ row.orgId := by
      rintro other still orgId locked rfl
      obtain ⟨present, foreign⟩ := mem_filter.mp still
      have same := sound.locks other present transaction member row.orgId locked pending.locked
      simp [same, own] at foreign
    have remains : ((db.publish transaction).close session).opened ⊆ db.opened :=
      fun other still => (mem_filter.mp still).1
    have extended : ((db.publish transaction).close session).transactions = db.transactions ++ [row] := by
      simp [LedgerDb.close, LedgerDb.publish, inserted]
    have exists_balance : ∀ orgId, (((db.publish transaction).close session).balanceOf
        orgId).isSome = (db.balanceOf orgId).isSome := by
      intro orgId
      exact (congrArg Option.isSome (balanceOf_publish db isWritten orgId)).trans isSome_map
    refine sound.of_tables remains ?_ ?_ ?_ ?_ ?_
    · intro other still orgId locked balance found
      have kept := balanceOf_publish db isWritten orgId
      rw [found, map_some, balanceOf_orgId found, target,
        beq_eq_false_iff_ne.mpr (apart other still orgId locked)] at kept
      exact kept
    · intro other still added isAdded
      have earlier := sound.pending other (remains still) added isAdded
      rw [extended, map_append, mem_append]
      rintro (used | same)
      · exact earlier.source used
      · have source : added.source = row.source := by simpa using same
        exact apart other still added.orgId earlier.locked (congrArg Prod.fst source)
    · intro added present
      rw [exists_balance]
      rw [extended] at present
      rcases mem_append.mp present with old | new
      · exact sound.owned added old
      · rw [mem_singleton.mp new]
        obtain ⟨balance, found, _⟩ := pending.currency
        rw [found]
        rfl
    · exact balanced_publish sound member inserted isWritten
    · rw [extended, map_append, nodup_append]
      refine ⟨sound.sources, by simp, ?_⟩
      intro used present added new same
      have source : added = row.source := by simpa using new
      rw [same, source] at present
      exact pending.source present

theorem sound_rollback (session : Nat) : (effect (.rollback session) db).Sound := by
  have remains : (db.close session).opened ⊆ db.opened := fun other still => (mem_filter.mp still).1
  refine sound.of_tables remains (fun _ _ _ _ _ found => found) ?_ sound.owned sound.balanced
    sound.sources
  intro transaction still row inserted
  exact (sound.pending transaction (remains still) row inserted).source

theorem sound_effect {stmt : LedgerStatement} (isReady : stmt.ready db = true)
    (isAllowed : allowed session stmt db) : (stmt.effect db).Sound := by
  cases stmt with
  | select => exact sound
  | updateCurrency orgId currency =>
    exact sound_updateCurrency sound (by simpa [ready] using isReady) currency
  | insertBalance orgId currency => exact sound_insertBalance sound orgId currency
  | lockBalance owner orgId =>
    obtain ⟨rfl, closed⟩ := isAllowed
    exact sound_lockBalance sound (by simpa [ready] using isReady) closed
  | insertTransaction owner new =>
    obtain rfl := isAllowed.1
    exact sound_insertTransaction sound isAllowed
  | updateBalance owner orgId change =>
    obtain rfl := isAllowed.1
    exact sound_updateBalance sound isAllowed
  | commit owner =>
    obtain rfl := isAllowed.1
    exact sound_commit sound isAllowed
  | rollback owner => exact sound_rollback sound owner
  | passTime elapsed =>
    exact sound.of_tables (List.Subset.refl _) (fun _ _ _ _ _ found => found)
      (fun transaction member row inserted =>
        (sound.pending transaction member row inserted).source)
      sound.owned sound.balanced sound.sources

end

end EveHorizon.Ledger
