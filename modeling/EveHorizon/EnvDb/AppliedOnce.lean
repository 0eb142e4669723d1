import EveHorizon.EnvDb.Migrations

/-!
# Migrations are applied once

A transaction that has run a text is committed only with a row of the text's name, and the key of
the row keeps every other transaction from committing one.
-/

namespace EveHorizon.EnvDb

open Interleaving ReadCommitted List Statement
open Database (pending_close pending_close_self pending_push_self view_closed view_open write_open)

variable {change : LedgerWrite}

namespace LedgerWrite

def ran? : LedgerWrite → Option AppliedSql
  | .runSql applied => some applied
  | _ => none

def row? : LedgerWrite → Option MigrationRow
  | .insertRow row => some row
  | _ => none

def isDelete : LedgerWrite → Bool
  | .deleteRow _ => true
  | _ => false

theorem blocks_comm (held other : LedgerWrite) : Write.blocks held other = Write.blocks other held := by
  have symmetric (left right : Text) : (left == right) = (right == left) := BEq.comm
  cases held with
  | createTable | runSql applied => cases other <;> rfl
  | insertRow row =>
    cases other with
    | insertRow second => exact symmetric row.name second.name
    | deleteRow name => exact symmetric row.name name
    | _ => rfl
  | deleteRow name =>
    cases other with
    | insertRow second => exact symmetric name second.name
    | deleteRow second => exact symmetric name second
    | _ => rfl

theorem rows_apply (keeps : change.isDelete = false) (ledger : Ledger) :
    (Write.apply change ledger).rows = ledger.rows ++ change.row?.toList := by
  cases change with
  | createTable | runSql applied => exact (append_nil _).symm
  | insertRow row => rfl
  | deleteRow name => cases keeps

theorem applied_apply (change : LedgerWrite) (ledger : Ledger) :
    (Write.apply change ledger).applied = ledger.applied ++ change.ran?.toList := by
  cases change with
  | runSql applied => rfl
  | createTable | insertRow row | deleteRow name => exact (append_nil _).symm

theorem rows_applyAll {changes : List LedgerWrite}
    (keeps : ∀ change ∈ changes, change.isDelete = false) (ledger : Ledger) :
    (ReadCommitted.applyAll changes ledger).rows = ledger.rows ++ changes.filterMap row? := by
  induction changes generalizing ledger with
  | nil => exact (append_nil _).symm
  | cons change rest ih =>
    rw [applyAll_cons, ih fun other member => keeps other (mem_cons_of_mem _ member),
      rows_apply (keeps change mem_cons_self), append_assoc]
    cases change with
    | insertRow row | createTable | runSql applied | deleteRow name => rfl

theorem applied_applyAll (changes : List LedgerWrite) (ledger : Ledger) :
    (ReadCommitted.applyAll changes ledger).applied = ledger.applied ++ changes.filterMap ran? := by
  induction changes generalizing ledger with
  | nil => exact (append_nil _).symm
  | cons change rest ih =>
    rw [applyAll_cons, ih, applied_apply, append_assoc]
    cases change with
    | runSql applied | createTable | insertRow row | deleteRow name => rfl

end LedgerWrite

open LedgerWrite (ran? row?)

section

variable (sha256 : Text → Text) (lists : Nat → List Migration)

def Recorded (ledger : Ledger) (migration : Migration) : Prop :=
  ∃ row ∈ ledger.rows, row.name = migration.name ∧ row.checksum = sha256 migration.sql

structure Legit (ledger : Ledger) (applied : AppliedSql) : Prop where
  listed : ∃ migration, (lists applied.session)[applied.index]? = some migration ∧
    applied.name = migration.name ∧ applied.sql = migration.sql
  before : ∀ index < applied.index, ∀ migration,
    (lists applied.session)[index]? = some migration → Recorded sha256 ledger migration

structure Orderly (ledger : Ledger) : Prop where
  once : AppliedOnce sha256 ledger
  unique : (ledger.rows.map MigrationRow.name).Nodup
  legit : ∀ applied ∈ ledger.applied, Legit sha256 lists ledger applied

structure Shaped (session : Nat) (committed : Ledger) (changes : List LedgerWrite) : Prop where
  keeps : ∀ change ∈ changes, change.isDelete = false
  runs : changes.filterMap ran? = [] ∧ changes.filterMap row? = [] ∨
    ∃ applied, changes.filterMap ran? = [applied] ∧ applied.session = session ∧ Legit sha256 lists committed applied ∧
      (changes.filterMap row? = [] ∨ ∃ row, changes.filterMap row? = [row] ∧
        row.name = applied.name ∧ row.checksum = sha256 applied.sql ∧ ∀ old ∈ committed.rows, old.name ≠ row.name)

structure Kept (db : LedgerDb) : Prop where
  orderly : Orderly sha256 lists db.committed
  shaped : ∀ session changes, db.pending session = some changes → Shaped sha256 lists session db.committed changes
  apart : db.Apart

def mayChange (session : Nat) (db : LedgerDb) : LedgerWrite → Prop
  | .createTable => ∃ changes, db.pending session = some changes
  | .runSql applied =>
    applied.session = session ∧ Legit sha256 lists db.committed applied ∧
      ∃ changes, db.pending session = some changes ∧ changes.filterMap ran? = [] ∧ changes.filterMap row? = []
  | .insertRow row =>
    ∃ changes applied, db.pending session = some changes ∧
      changes.filterMap ran? = [applied] ∧ changes.filterMap row? = [] ∧
        row.name = applied.name ∧ row.checksum = sha256 applied.sql
  | .deleteRow _ => False

def mayExecute (session : Nat) (stmt : LedgerStatement) (db : LedgerDb) : Prop :=
  stmt.client = session ∧
    match stmt.action with
    | .write change => mayChange sha256 lists session db change
    | .commit => ∀ changes, db.pending session = some changes →
        changes.filterMap ran? ≠ [] → changes.filterMap row? ≠ []
    | _ => True

variable {sha256 lists} in
theorem opened_of_mayChange {session : Nat} {db : LedgerDb} {change : LedgerWrite}
    (may : mayChange sha256 lists session db change) : db.pending session ≠ none := by
  intro closed
  cases change with
  | createTable =>
    obtain ⟨changes, opened⟩ := may
    cases closed.symm.trans opened
  | runSql applied =>
    obtain ⟨-, -, changes, opened, -⟩ := may
    cases closed.symm.trans opened
  | insertRow row =>
    obtain ⟨changes, _, opened, -⟩ := may
    cases closed.symm.trans opened
  | deleteRow name => exact may

structure Undeleted (session : Nat) (before after : LedgerDb) : Prop where
  own : after.pending session = before.pending session
  grows : before.committed.rows <+: after.committed.rows

end

section

variable {sha256 : Text → Text} {lists : Nat → List Migration} {before after : Ledger}

theorem Recorded.grow {migration : Migration} (recorded : Recorded sha256 before migration)
    (grows : before.rows <+: after.rows) : Recorded sha256 after migration := by
  obtain ⟨row, member, same⟩ := recorded
  exact ⟨row, grows.subset member, same⟩

variable {applied : AppliedSql}

theorem Legit.grow (legit : Legit sha256 lists before applied) (grows : before.rows <+: after.rows) :
    Legit sha256 lists after applied where
  listed := legit.listed
  before index earlier migration found := (legit.before index earlier migration found).grow grows

theorem Undeleted.refl (session : Nat) (db : LedgerDb) : Undeleted session db db where
  own := rfl
  grows := prefix_rfl

variable {session : Nat}

theorem Undeleted.trans {first second third : LedgerDb} (before : Undeleted session first second)
    (after : Undeleted session second third) :
    Undeleted session first third where
  own := after.own.trans before.own
  grows := before.grows.trans after.grows

variable {row : MigrationRow}

theorem Orderly.record {ledger : Ledger} (orderly : Orderly sha256 lists ledger)
    (legit : Legit sha256 lists ledger applied) (named : row.name = applied.name)
    (checksum : row.checksum = sha256 applied.sql) (fresh : ∀ old ∈ ledger.rows, old.name ≠ row.name)
    (rows : after.rows = ledger.rows ++ [row]) (runs : after.applied = ledger.applied ++ [applied]) :
    Orderly sha256 lists after := by
  have grows : ledger.rows <+: after.rows := by
    rw [rows]
    exact prefix_append _ _
  constructor
  · constructor
    · intro old member
      rw [runs, filter_append]
      rw [rows] at member
      cases mem_append.mp member with
      | inl earlier =>
        obtain ⟨found, single, same⟩ := orderly.once.recorded old earlier
        have other : (applied.name == old.name) = false := by
          rw [← named]
          simpa using (fresh old earlier).symm
        refine ⟨found, ?_, same⟩
        rw [single, filter_cons_of_neg (by simpa using other)]
        rfl
      | inr new =>
        rw [mem_singleton.mp new]
        have none : ledger.applied.filter (·.name == row.name) = [] := by
          refine filter_eq_nil_iff.mpr fun found present isName => ?_
          obtain ⟨old, isOld, isNamed⟩ := orderly.once.unrecorded found present
          exact fresh old isOld (isNamed.trans (beq_iff_eq.mp isName))
        refine ⟨applied, ?_, checksum⟩
        rw [none, nil_append, filter_cons_of_pos (by simp [named])]
        rfl
    · intro found member
      rw [runs] at member
      rw [rows]
      cases mem_append.mp member with
      | inl earlier =>
        obtain ⟨old, isOld, isNamed⟩ := orderly.once.unrecorded found earlier
        exact ⟨old, mem_append_left _ isOld, isNamed⟩
      | inr new =>
        rw [mem_singleton.mp new]
        exact ⟨row, mem_append_right _ (mem_singleton_self row), named⟩
  · rw [rows, map_append, nodup_append]
    refine ⟨orderly.unique, nodup_singleton _, ?_⟩
    intro name isOld other isNew same
    obtain ⟨old, member, isName⟩ := mem_map.mp isOld
    have isRow : other = row.name := mem_singleton.mp isNew
    exact fresh old member (isName.trans (same.trans isRow))
  · intro found member
    rw [runs] at member
    cases mem_append.mp member with
    | inl earlier => exact (orderly.legit found earlier).grow grows
    | inr new =>
      rw [mem_singleton.mp new]
      exact legit.grow grows

variable {db : LedgerDb} {changes : List LedgerWrite}

theorem rows_view (opened : db.pending session = some changes) (keeps : ∀ change ∈ changes, change.isDelete = false) :
    (db.view session).rows = db.committed.rows ++ changes.filterMap row? := by
  rw [view_open opened, LedgerWrite.rows_applyAll keeps]

variable {stmt : LedgerStatement}

theorem rows_effect (kept : Kept sha256 lists db) (allowed : mayExecute sha256 lists session stmt db) :
    db.committed.rows <+: (effect stmt db).committed.rows := by
  rcases Database.committed_effect stmt db with
    same | ⟨change, isWrite, closed, -, -⟩ | ⟨-, isCommitted⟩
  · rw [same]
  · obtain ⟨own, allowed⟩ := allowed
    rw [isWrite] at allowed
    exact absurd (own ▸ closed) (opened_of_mayChange allowed)
  · rw [isCommitted]
    cases opened : db.pending stmt.client with
    | none => rw [view_closed opened]
    | some changes =>
      rw [rows_view opened (kept.shaped _ changes opened).keeps]
      exact prefix_append _ _

theorem undeleted_effect {other : Nat} (different : session ≠ other) (kept : Kept sha256 lists db)
    (allowed : mayExecute sha256 lists session stmt db) :
    Undeleted other db (effect stmt db) where
  own := Database.pending_effect stmt db fun same => different (allowed.1.symm.trans same.symm)
  grows := rows_effect kept allowed

theorem Shaped.grow (shaped : Shaped sha256 lists session before changes)
    (grows : before.rows <+: after.rows)
    (free : ∀ row ∈ changes.filterMap row?, ∀ new ∈ after.rows, new ∈ before.rows ∨
      new.name ≠ row.name) : Shaped sha256 lists session after changes where
  keeps := shaped.keeps
  runs := by
    rcases shaped.runs with nothing | ⟨applied, single, own, legit, rows⟩
    · exact .inl nothing
    · refine .inr ⟨applied, single, own, legit.grow grows, ?_⟩
      rcases rows with nothing | ⟨row, isRow, named, checksum, fresh⟩
      · exact .inl nothing
      · refine .inr ⟨row, isRow, named, checksum, fun new member => ?_⟩
        have inserted : row ∈ changes.filterMap row? := by
          rw [isRow]
          exact mem_singleton_self row
        cases free row inserted new member with
        | inl old => exact fresh new old
        | inr other => exact other

theorem mem_of_mem_rows (member : row ∈ changes.filterMap row?) : LedgerWrite.insertRow row ∈ changes := by
  obtain ⟨change, present, isRow⟩ := mem_filterMap.mp member
  cases change with
  | insertRow other =>
    cases isRow
    exact present
  | createTable | runSql applied | deleteRow name => cases isRow

section

variable (kept : Kept sha256 lists db)
include kept

theorem Shaped.push (opened : db.pending session = some changes) (allowed : mayChange sha256 lists session db change)
    (accepted : Write.rejected change (db.view session) = false) :
    Shaped sha256 lists session db.committed (changes ++ [change]) := by
  have shaped := kept.shaped session changes opened
  have keeps (isKept : change.isDelete = false) : ∀ other ∈ changes ++ [change], other.isDelete = false := by
    intro other member
    cases mem_append.mp member with
    | inl earlier => exact shaped.keeps other earlier
    | inr new =>
      rw [mem_singleton.mp new]
      exact isKept
  have ran : (changes ++ [change]).filterMap ran? = changes.filterMap ran? ++ change.ran?.toList := by
    rw [filterMap_append]
    cases change <;> rfl
  have rows : (changes ++ [change]).filterMap row? = changes.filterMap row? ++ change.row?.toList := by
    rw [filterMap_append]
    cases change <;> rfl
  cases change with
  | createTable =>
    have sameRuns := ran.trans (append_nil _)
    have sameRows := rows.trans (append_nil _)
    refine ⟨keeps rfl, ?_⟩
    rw [sameRuns, sameRows]
    exact shaped.runs
  | runSql applied =>
    obtain ⟨own, legit, found, isFound, noRuns, noRows⟩ := allowed
    rw [opened] at isFound
    cases isFound
    refine ⟨keeps rfl, .inr ⟨applied, ?_, own, legit, .inl ?_⟩⟩
    · rw [ran, noRuns]
      rfl
    · rw [rows, noRows]
      rfl
  | insertRow row =>
    obtain ⟨found, applied, isFound, isRun, noRows, named, checksum⟩ := allowed
    rw [opened] at isFound
    cases isFound
    have unnamed : ∀ old ∈ db.committed.rows, old.name ≠ row.name := by
      intro old member same
      have free := (Bool.or_eq_false_iff.mp accepted).2
      rw [rows_view opened shaped.keeps, noRows, append_nil] at free
      have different := any_eq_false.mp free old member
      exact different (by simpa using same)
    rcases shaped.runs with ⟨nothing, -⟩ | ⟨known, single, own, legit, -⟩
    · rw [nothing] at isRun
      cases isRun
    · rw [single] at isRun
      cases isRun
      refine ⟨keeps rfl, .inr ⟨applied, ?_, own, legit, .inr ⟨row, ?_, named, checksum, unnamed⟩⟩⟩
      · rw [ran, single]
        rfl
      · rw [rows, noRows]
        rfl
  | deleteRow name => exact allowed.elim

theorem Orderly.commit (opened : db.pending session = some changes)
    (complete : changes.filterMap ran? ≠ [] → changes.filterMap row? ≠ []) :
    Orderly sha256 lists (db.view session) := by
  have shaped := kept.shaped session changes opened
  have rows := rows_view opened shaped.keeps
  have runs : (db.view session).applied = db.committed.applied ++ changes.filterMap ran? := by
    rw [view_open opened, LedgerWrite.applied_applyAll]
  rcases shaped.runs with ⟨noRuns, noRows⟩ | ⟨applied, single, own, legit, found⟩
  · rw [noRows, append_nil] at rows
    rw [noRuns, append_nil] at runs
    have grows : db.committed.rows <+: (db.view session).rows := by rw [rows]
    constructor
    · constructor
      · rw [rows, runs]
        exact kept.orderly.once.recorded
      · rw [rows, runs]
        exact kept.orderly.once.unrecorded
    · rw [rows]
      exact kept.orderly.unique
    · intro applied member
      rw [runs] at member
      exact (kept.orderly.legit applied member).grow grows
  · rcases found with none | ⟨row, isRow, named, checksum, fresh⟩
    · exact absurd none (complete (by rw [single]; exact cons_ne_nil _ _))
    · rw [isRow] at rows
      rw [single] at runs
      exact kept.orderly.record legit named checksum fresh rows runs

theorem Shaped.committed {other : Nat} {pending : List LedgerWrite} (opened : db.pending session = some changes)
    (different : other ≠ session) (isPending : db.pending other = some pending) :
    Shaped sha256 lists other (db.view session) pending := by
  have rows := rows_view opened (kept.shaped session changes opened).keeps
  refine (kept.shaped other pending isPending).grow ?_ fun row member new present => ?_
  · rw [rows]
    exact prefix_append _ _
  · rw [rows] at present
    cases mem_append.mp present with
    | inl old => exact .inl old
    | inr inserted =>
      have free := kept.apart other session different pending changes isPending opened _
        (mem_of_mem_rows member) _ (mem_of_mem_rows inserted)
      right
      intro same
      have taken : Write.blocks (LedgerWrite.insertRow row) (.insertRow new) = true := beq_iff_eq.mpr same.symm
      rw [taken] at free
      cases free

theorem kept_effect (isReady : ready stmt db = true)
    (allowed : mayExecute sha256 lists session stmt db) : Kept sha256 lists (effect stmt db) := by
  have apart := Database.apart_effect LedgerWrite.blocks_comm isReady kept.apart
  obtain ⟨client, action⟩ := stmt
  obtain ⟨own, allowed⟩ := allowed
  cases own
  obtain ⟨after, isEffect, effects⟩ := Database.effect_cases client action db
  rw [isEffect] at apart ⊢
  cases effects with
  | same => exact kept
  | begun closed =>
    refine ⟨kept.orderly, fun other changes isPending => ?_, apart⟩
    rcases Database.pending_of_start closed isPending with ⟨-, rfl⟩ | ⟨-, wasPending⟩
    · exact ⟨fun _ member => absurd member not_mem_nil, .inl ⟨rfl, rfl⟩⟩
    · exact kept.shaped other changes wasPending
  | written closed => exact absurd closed (opened_of_mayChange allowed)
  | held opened accepted =>
    refine ⟨kept.orderly, fun other pending isPending => ?_, apart⟩
    rcases Database.pending_of_push opened isPending with ⟨rfl, rfl⟩ | ⟨-, wasPending⟩
    · have shaped := Shaped.push kept opened allowed accepted
      exact shaped
    · exact kept.shaped other pending wasPending
  | committed =>
    refine ⟨?_, fun other pending isPending => ?_, apart⟩
    · cases opened : db.pending client with
      | none =>
        change Orderly sha256 lists (db.view client)
        rw [view_closed opened]
        exact kept.orderly
      | some changes => exact Orderly.commit kept opened (allowed changes opened)
    · change (db.close client).pending other = some pending at isPending
      obtain ⟨same, isPending⟩ := Database.pending_of_close isPending
      change Shaped sha256 lists other (db.view client) pending
      cases opened : db.pending client with
      | none =>
        rw [view_closed opened]
        exact kept.shaped other pending isPending
      | some changes => exact Shaped.committed kept opened same isPending
  | undone =>
    refine ⟨kept.orderly, fun other pending isPending => ?_, apart⟩
    change (db.close client).pending other = some pending at isPending
    exact kept.shaped other pending (Database.pending_of_close isPending).2

end

variable (sha256 lists) in
def ledgerDiscipline : Discipline LedgerStatement LedgerDb where
  inv := Kept sha256 lists
  allowed := mayExecute sha256 lists
  rely := Undeleted
  rely_refl := Undeleted.refl
  rely_trans := Undeleted.trans
  keeps := kept_effect
  respects different kept _ allowed := undeleted_effect different kept allowed

end

section

variable {reading : TextReading} {lists : Nat → List Migration} {session : Nat} {α : Type}

/-- The call keeps to the discipline and ends as the postcondition says. -/
def Follows (reading : TextReading) (lists : Nat → List Migration) (session : Nat)
    (post : Except EnvDbError α → LedgerDb → Prop) (call : LedgerCall α) (store : LedgerDb) : Prop :=
  call.SafeWhile (ledgerDiscipline reading.sha256 lists) (fun _ _ => True) session post store

variable {post : Except EnvDbError α → LedgerDb → Prop} {store : LedgerDb}

theorem follows_query {β : Type} {label : LedgerQuery} {report : Ledger → β} {cont : β → LedgerCall α}
    (rest : ∀ found, Undeleted session store found → Kept reading.sha256 lists found →
      Follows reading lists session post (cont (report (found.view session))) found) :
    Follows reading lists session post (query session label report >>= cont) store := by
  intro found relied kept _ _
  exact ⟨⟨rfl, trivial⟩, rest found relied kept⟩

variable {violation : EnvDbError}

theorem follows_write {ended : Except EnvDbError Unit → LedgerDb → Prop}
    (allowed : ∀ found, Undeleted session store found → mayChange reading.sha256 lists session found change)
    (writes : ∀ found, Undeleted session store found → Write.rejected change (found.view session) = false →
      ended (.ok ()) (found.write session change))
    (fails : ∀ error reached, ended (.error error) reached) :
    Follows reading lists session ended (write session change violation) store := by
  refine write_safe (fun found relied _ _ => ⟨rfl, allowed found relied⟩) ?_ fun _ _ => fails _ _
  exact fun found relied _ accepted => writes found relied accepted

theorem follows_write_bind {cont : Unit → LedgerCall α}
    (allowed : ∀ found, Undeleted session store found → mayChange reading.sha256 lists session found change)
    (rest : ∀ found, Undeleted session store found → Write.rejected change (found.view session) = false →
      Follows reading lists session post (cont ()) (found.write session change))
    (fails : ∀ error reached, post (.error error) reached) :
    Follows reading lists session post (write session change violation >>= cont) store := by
  have first : Follows reading lists session (fun result reached => match result with
      | .ok _ => Follows reading lists session post (cont ()) reached
      | .error _ => True) (write session change violation) store :=
    follows_write allowed rest fun _ _ => trivial
  exact first.bind (fun _ _ safe => safe) fun error reached _ => fails error reached

structure Opened (reading : TextReading) (lists : Nat → List Migration) (session index : Nat)
    (store : LedgerDb) : Prop where
  pending : ∃ changes, store.pending session = some changes ∧ changes.filterMap ran? = [] ∧ changes.filterMap row? = []
  before : ∀ earlier < index, ∀ migration, (lists session)[earlier]? = some migration →
    Recorded reading.sha256 store.committed migration

variable {index : Nat}

section

variable (opened : Opened reading lists session index store)
include opened

variable {found : LedgerDb}

theorem Opened.later (relied : Undeleted session store found) :
    Opened reading lists session index found where
  pending := by
    obtain ⟨changes, isOpen, nothing⟩ := opened.pending
    exact ⟨changes, relied.own.trans isOpen, nothing⟩
  before earlier less migration listed := (opened.before earlier less migration listed).grow relied.grows

/-- Where the body of a transaction ends: what it has run has a row, and the migration has one,
committed or of the transaction. -/
structure Migrated (reading : TextReading) (lists : Nat → List Migration) (session index : Nat)
    (migration : Migration) (reached : LedgerDb) : Prop where
  pending : ∃ changes, reached.pending session = some changes ∧
    (changes.filterMap ran? ≠ [] → changes.filterMap row? ≠ []) ∧
      ∃ row ∈ reached.committed.rows ++ changes.filterMap row?,
        row.name = migration.name ∧ row.checksum = reading.sha256 migration.sql
  before : ∀ earlier < index, ∀ migration, (lists session)[earlier]? = some migration →
    Recorded reading.sha256 reached.committed migration

variable {migration : Migration}

omit opened in
theorem Migrated.later (migrated : Migrated reading lists session index migration store)
    (relied : Undeleted session store found) :
    Migrated reading lists session index migration found where
  pending := by
    obtain ⟨changes, isOpen, complete, row, member, same⟩ := migrated.pending
    refine ⟨changes, relied.own.trans isOpen, complete, row, ?_, same⟩
    cases mem_append.mp member with
    | inl committed => exact mem_append_left _ (relied.grows.subset committed)
    | inr own => exact mem_append_right _ own
  before earlier less other listed := (migrated.before earlier less other listed).grow relied.grows

theorem ensureTable_follows : Follows reading lists session (fun result reached => match result with
      | .ok _ => Opened reading lists session index reached
      | .error _ => True) (ensureTable session) store := by
  refine follows_query fun found relied kept => ?_
  have still := opened.later relied
  cases present : (found.view session).schemaMigrations.isSome with
  | true => exact still
  | false =>
    refine follows_write (fun later since => ?_) (fun later since accepted => ?_) fun _ _ => trivial
    · obtain ⟨changes, isOpen, -⟩ := (still.later since).pending
      exact ⟨changes, isOpen⟩
    · have known := still.later since
      obtain ⟨changes, isOpen, noRuns, noRows⟩ := known.pending
      rw [write_open isOpen accepted]
      refine ⟨⟨changes ++ [.createTable], pending_push_self isOpen, ?_, ?_⟩, known.before⟩
      · rw [filterMap_append, noRuns]
        rfl
      · rw [filterMap_append, noRows]
        rfl

structure Between (reading : TextReading) (lists : Nat → List Migration) (session index : Nat)
    (store : LedgerDb) : Prop where
  closed : store.pending session = none
  before : ∀ earlier < index, ∀ migration, (lists session)[earlier]? = some migration →
    Recorded reading.sha256 store.committed migration

theorem migrationBody_follows (listed : (lists session)[index]? = some migration)
    (untouched : reading.rewrites migration.sql = []) :
    Follows reading lists session (fun result reached => match result with
      | .ok _ => Migrated reading lists session index migration reached
      | .error _ => True) (migrationBody reading session index migration) store := by
  refine follows_query fun first relied _ => ?_
  refine Call.SafeWhile.bind (ensureTable_follows (opened.later relied)) (fun _ ensured known => ?_)
    fun _ _ _ => trivial
  refine follows_query fun found since kept => ?_
  have known := known.later since
  obtain ⟨changes, isOpen, noRuns, noRows⟩ := known.pending
  have rows := rows_view isOpen (kept.shaped session changes isOpen).keeps
  cases existing : (found.view session).rows.find? (·.name == migration.name) with
  | some row =>
    by_cases same : row.checksum = reading.sha256 migration.sql
    · have member := mem_of_find?_eq_some existing
      have named := find?_some existing
      dsimp only at named ⊢
      rw [rows] at member
      rw [if_pos same]
      exact ⟨⟨changes, isOpen, fun ran => absurd noRuns ran, row, member, beq_iff_eq.mp named, same⟩, known.before⟩
    · dsimp only
      rw [if_neg same]
      trivial
  | none =>
    dsimp only
    refine follows_write_bind (fun later since => ?_) (fun later since accepted => ?_)
      fun _ _ => trivial
    · have known := known.later since
      exact ⟨rfl, ⟨⟨migration, listed, rfl, rfl⟩, known.before⟩, known.pending⟩
    · obtain ⟨held, isHeld, noRuns, noRows⟩ := (known.later since).pending
      rw [write_open isHeld accepted, untouched]
      have running : (later.push session (.runSql ⟨session, index, migration.name, migration.sql⟩)).pending session =
          some (held ++ [.runSql ⟨session, index, migration.name, migration.sql⟩]) :=
        pending_push_self isHeld
      have ran : (held ++ [LedgerWrite.runSql ⟨session, index, migration.name, migration.sql⟩]).filterMap ran? =
          [⟨session, index, migration.name, migration.sql⟩] := by
        rw [filterMap_append, noRuns]
        rfl
      have unrecorded : (held ++ [LedgerWrite.runSql
          ⟨session, index, migration.name, migration.sql⟩]).filterMap row? = [] := by
        rw [filterMap_append, noRows]
        rfl
      refine follows_write_bind (fun last after => ?_) (fun last after accepted => ?_)
        fun _ _ => trivial
      · exact ⟨_, _, after.own.trans running, ran, unrecorded, rfl, rfl⟩
      · have stillRunning := after.own.trans running
        have recorded : ((held ++ [LedgerWrite.runSql
            ⟨session, index, migration.name, migration.sql⟩]) ++ [LedgerWrite.insertRow
            ⟨migration.name, reading.sha256 migration.sql, reading.now session index⟩]).filterMap
            row? = [⟨migration.name, reading.sha256 migration.sql, reading.now session index⟩] := by
          rw [filterMap_append, unrecorded]
          rfl
        rw [write_open stillRunning accepted]
        refine ⟨⟨_, pending_push_self stillRunning, ?_, ?_⟩, ?_⟩
        · rw [recorded]
          exact fun _ => cons_ne_nil _ _
        · rw [recorded]
          exact ⟨_, mem_append_right _ (mem_singleton_self _), rfl, rfl⟩
        · exact fun earlier less other isListed =>
            ((known.later since).before earlier less other isListed).grow after.grows

end

theorem failing_follows {fault : Option (Nat × EnvDbError)} {call : LedgerCall α}
    (follows : Follows reading lists session post call store) (fails : ∀ error reached, post (.error error) reached) :
    Follows reading lists session post (failing fault call) store := by
  cases fault with
  | none => exact follows
  | some found => exact Call.SafeWhile.failingAt follows (fails found.2) found.1

theorem transaction_follows (between : Between reading lists session index store)
    (listed : (lists session)[index]? = some migration)
    (untouched : reading.rewrites migration.sql = []) (fault : Option (Nat × EnvDbError)) :
    Follows reading lists session (fun result reached => match result with
      | .ok _ => Between reading lists session (index + 1) reached
      | .error _ => True)
      (transaction session (failing fault (migrationBody reading session index migration))) store := by
  refine transaction_safe (fun result reached => match result with
      | .ok _ => Migrated reading lists session index migration reached
      | .error _ => True) ?_ ?_ (fun found => ⟨rfl, trivial⟩) fun _ _ => trivial
  · intro found relied _
    have closed := relied.own.trans between.closed
    refine ⟨⟨rfl, trivial⟩, ?_⟩
    have begun : effect (⟨session, .begin⟩ : LedgerStatement) found = found.start session := by
      dsimp only [effect]
      rw [closed, Option.isSome_none, if_neg Bool.false_ne_true]
    rw [begun]
    refine failing_follows (migrationBody_follows ⟨⟨[], ?_, rfl, rfl⟩, ?_⟩ listed untouched) fun _ _ => trivial
    · exact Database.pending_start_self closed
    · exact fun earlier less other isListed =>
        (between.before earlier less other isListed).grow relied.grows
  · intro _ reached migrated found relied kept
    obtain ⟨changes, isOpen, complete, row, member, same⟩ := (migrated.later relied).pending
    have rows := rows_view isOpen (kept.shaped session changes isOpen).keeps
    refine ⟨⟨rfl, fun other isOther => ?_⟩, pending_close_self, ?_⟩
    · rw [isOpen] at isOther
      cases isOther
      exact complete
    · intro earlier less other isListed
      change Recorded reading.sha256 (found.view session) other
      rcases Nat.lt_succ_iff_lt_or_eq.mp less with older | isLast
      · refine ((migrated.later relied).before earlier older other isListed).grow ?_
        rw [rows]
        exact prefix_append _ _
      · rw [isLast, listed] at isListed
        cases isListed
        exact ⟨row, by rw [rows]; exact member, same⟩

theorem migrateFrom_follows (faults : Nat → Option (Nat × EnvDbError)) (rest : List Migration) :
    ∀ {index : Nat} {store : LedgerDb}, Between reading lists session index store → (lists session).drop index = rest →
      (∀ migration ∈ lists session, reading.rewrites migration.sql = []) →
      Follows reading lists session (fun result reached => match result with
        | .ok _ => Between reading lists session (lists session).length reached
        | .error _ => True) (migrateFrom reading session faults index rest) store := by
  induction rest with
  | nil =>
    intro index store between isRest untouched
    refine ⟨between.closed, fun earlier less migration listed => ?_⟩
    exact between.before earlier (Nat.lt_of_lt_of_le less (drop_eq_nil_iff.mp isRest)) migration listed
  | cons migration rest ih =>
    intro index store between isRest untouched
    have listed : (lists session)[index]? = some migration := by
      have first := congrArg List.head? isRest
      rwa [head?_drop] at first
    have later : (lists session).drop (index + 1) = rest := by
      have tail := congrArg List.tail isRest
      rwa [tail_drop] at tail
    refine Call.SafeWhile.bind (transaction_follows between listed
      (untouched migration (mem_of_getElem? listed)) (faults index)) (fun row reached known => ?_)
      fun _ _ _ => trivial
    refine Call.SafeWhile.bind (ih known later untouched) (fun _ _ done => done) fun _ _ _ => trivial

end

section

variable (reading : TextReading) (schedule : List (Choice MigrateRequest))

def listOf (session : Nat) : List Migration :=
  ((operations schedule)[session]?.map MigrateRequest.migrations).getD []

def LeaveTableAlone : Prop :=
  ∀ request ∈ operations schedule, ∀ migration ∈ request.migrations, reading.rewrites migration.sql = []

theorem kept_new (lists : Nat → List Migration) : Kept reading.sha256 lists { committed := {} } where
  orderly :=
    { once := ⟨fun _ member => absurd member not_mem_nil,
        fun _ member => absurd member not_mem_nil⟩
      unique := nodup_nil
      legit := fun _ member => absurd member not_mem_nil }
  shaped _ _ opened := by cases opened
  apart _ _ _ _ _ opened := by cases opened

variable {reading schedule}

theorem run_migrations (alone : LeaveTableAlone reading schedule) :
    System.Kept (ledgerDiscipline reading.sha256 (listOf schedule)) (fun _ _ _ => True)
      (fun session _ result reached => match result with
        | .ok _ => Between reading (listOf schedule) session (listOf schedule session).length reached
        | .error _ => True)
      (fun session request => migrateCall reading session request) (operations schedule)
      (runMigrations reading schedule).trace (runMigrations reading schedule).store := by
  refine System.run_kept _ _ ?_ (kept_new reading (listOf schedule)) fun _ _ => trivial
  intro session request named
  have isList : listOf schedule session = request.migrations := by
    rw [listOf, named]
    rfl
  have start : Between reading (listOf schedule) session 0 { committed := {} } :=
    ⟨rfl, fun _ less => absurd less (Nat.not_lt_zero _)⟩
  exact migrateFrom_follows request.faults request.migrations start (by rw [drop_zero, isList])
    (by rw [isList]; exact alone request (mem_of_getElem? named))

/-- Where no text touches `schema_migrations`, migrations are applied exactly once. -/
theorem migrations_sound (reading : TextReading) (schedule : List (Choice MigrateRequest))
    (alone : LeaveTableAlone reading schedule) : MigrationsSound reading schedule := by
  have run := run_migrations alone
  have orderly := run.inv.orderly
  refine ⟨orderly.once, fun session request named index migration listed row member same changed => ?_⟩
  have isList : (listOf schedule session)[index]? = some migration := by
    rw [listOf, named]
    exact listed
  -- A row of the name and the digest would be another row of the name.
  have unrecorded : ¬ Recorded reading.sha256 (runMigrations reading schedule).store.committed migration := by
    intro recorded
    obtain ⟨other, isOther, named, checksum⟩ := recorded
    have one := inj_on_of_nodup_map orderly.unique isOther member (named.trans same.symm)
    rw [← one] at changed
    exact changed checksum
  constructor
  · intro applied isApplied own
    have legit := orderly.legit applied isApplied
    by_contra beyond
    rcases Nat.lt_or_eq_of_le (Nat.not_lt.mp beyond) with later | here
    · rw [← own] at isList
      exact unrecorded (legit.before index later migration isList)
    · obtain ⟨found, isFound, isName, isSql⟩ := legit.listed
      rw [← here, own, isList] at isFound
      cases isFound
      obtain ⟨row, isRow, named⟩ := orderly.once.unrecorded applied isApplied
      obtain ⟨only, single, checksum⟩ := orderly.once.recorded row isRow
      have isOnly : applied ∈ (runMigrations reading schedule).store.committed.applied.filter
          (·.name == row.name) := mem_filter.mpr ⟨isApplied, beq_iff_eq.mpr named.symm⟩
      rw [single, mem_singleton] at isOnly
      exact unrecorded ⟨row, isRow, named.trans isName, by rw [checksum, ← isOnly, isSql]⟩
  · intro ending ended own
    cases result : ending.result with
    | error error => exact ⟨error, rfl⟩
    | ok rows =>
      obtain ⟨_, _, reached, known, relied⟩ := System.Kept.ended run ended
      rw [result, own] at known
      rw [own] at relied
      have inside := (List.getElem?_eq_some_iff.mp isList).1
      exact absurd ((known.before index inside migration isList).grow relied.grows) unrecorded

end

def usersMigration : Migration where
  name := "001_users".toList
  sql := "CREATE TABLE users (id TEXT)".toList

def forgettingMigration : Migration where
  name := "002_forget".toList
  sql := "DELETE FROM schema_migrations WHERE name = '001_users'".toList

def deployReading : TextReading where
  sha256 text := text
  rewrites sql := if sql = forgettingMigration.sql then [.deleteRow usersMigration.name] else []
  now _ _ := 0

def runFirst : List (Choice MigrateRequest) := List.replicate 24 (.advance 0)

def twoDeployers : List (Choice MigrateRequest) :=
  [.start { migrations := [usersMigration] }, .start { migrations := [usersMigration] },
    .advance 0, .advance 1, .advance 0, .advance 1, .advance 0] ++ runFirst ++ runFirst

/-- Both deployers end, one of them with an error, and the migration is applied once. -/
theorem two_deployers_apply_once :
    MigrationsSound deployReading twoDeployers ∧ (runMigrations deployReading twoDeployers).ended.length = 2 ∧
      (runMigrations deployReading twoDeployers).store.committed.applied.length = 1 := by
  refine ⟨migrations_sound deployReading twoDeployers ?_, by decide +kernel, by decide +kernel⟩
  have lists : operations twoDeployers = [{ migrations := [usersMigration] }, { migrations := [usersMigration] }] := rfl
  intro request member migration listed
  rw [lists] at member
  simp only [mem_cons, not_mem_nil, or_false, or_self] at member
  rw [member] at listed
  rw [mem_singleton.mp listed]
  decide +kernel

def forgetful : List (Choice MigrateRequest) :=
  .start { migrations := [usersMigration, forgettingMigration] } :: runFirst ++
    .start { migrations := [usersMigration] } :: runFirst

theorem forgotten_migration_applied_twice : ¬ MigrationsSound deployReading forgetful := by
  intro sound
  have texts : (runMigrations deployReading forgetful).store.committed.applied.map AppliedSql.name =
      [usersMigration.name, forgettingMigration.name, usersMigration.name] := by decide +kernel
  have rows : (runMigrations deployReading forgetful).store.committed.rows.any
      (·.name == usersMigration.name) = true := by decide +kernel
  obtain ⟨row, member, named⟩ := any_eq_true.mp rows
  obtain ⟨applied, single, -⟩ := sound.once.recorded row member
  have counted := congrArg List.length single
  have again := congrArg (List.countP (· == usersMigration.name)) texts
  rw [beq_iff_eq.mp named, ← countP_eq_length_filter] at counted
  rw [countP_map] at again
  have two : List.countP (· == usersMigration.name)
      [usersMigration.name, forgettingMigration.name, usersMigration.name] = 2 := by decide +kernel
  rw [two] at again
  cases again.symm.trans counted

end EveHorizon.EnvDb
