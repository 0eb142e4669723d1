import EveHorizon.Loop.Finalization
import EveHorizon.Jobs.LiveAttempts
import EveHorizon.Library.RelyGuarantee

/-! Whether a finalized attempt is charged. The charge looks for the receipt in the
attempt it is handed, and that attempt was read before the receipt was written. -/

namespace EveHorizon.Loop

open Interleaving List Call Table
open Jobs (JobId AttemptId Timestamp Job JobAttempt JobsDb JobStatement JobCall JobOperation
  AttemptUpdate NewAttempt Outcome AttemptResult)
open Ledger (OrgId LedgerDb LedgerStatement LedgerCall LedgerOperation NewTransaction CreateTransactionInput)

/-- Attempt ids are unique and never reused, and an attempt has no end and no receipt
while it is pending or running. -/
structure Unreceipted (db : JobsDb) : Prop where
  distinct : (db.attempts.map (·.id)).Nodup
  numbered : ∀ row ∈ db.attempts, row.id < db.nextAttempt
  unended : ∀ row ∈ db.attempts, row.status.live = true → row.endedAt = none ∧ row.receiptJson = none

structure Ended (db : JobsDb) (attemptId : AttemptId) : Prop where
  known : attemptId < db.nextAttempt
  final : ∀ row ∈ db.attempts, row.id = attemptId → row.status.live = false

theorem attemptUpdate_changes_id (now : Timestamp) (update : AttemptUpdate) (row : JobAttempt) :
    (update.changes now row).id = row.id := by
  cases update <;> rfl

variable {update : AttemptUpdate}

theorem attemptUpdate_keeps {now : Timestamp} {row : JobAttempt} (chosen : update.selects row = true)
    (live : (update.changes now row).status.live = true) :
    row.status.live = true ∧ (update.changes now row).endedAt = row.endedAt ∧
      (update.changes now row).receiptJson = row.receiptJson := by
  refine ⟨Jobs.attemptUpdate_live chosen live, ?_⟩
  cases update with
  | startedPending => exact ⟨rfl, rfl⟩
  | ended attemptId status summary isFinal | completed attemptId status result isFinal =>
    simp only [AttemptUpdate.changes, isFinal] at live
    cases live
  | submitted attemptId summary => cases live

variable {selected : JobAttempt → Bool} {change : JobAttempt → JobAttempt}

theorem updateWhere_ids (same : ∀ row, (change row).id = row.id) (rows : List JobAttempt) :
    (updateWhere selected change rows).map (·.id) = rows.map (·.id) := by
  rw [updateWhere, map_map]
  apply map_congr_left
  intro row _
  cases chosen : selected row with
  | true => simp [chosen, same]
  | false => simp [chosen]

/-- Attempt ids are unique and never reused, and a pending or running attempt is as no
statement has touched it. -/
structure Unended (untouched : JobAttempt → Prop) (db : JobsDb) : Prop where
  distinct : (db.attempts.map (·.id)).Nodup
  numbered : ∀ row ∈ db.attempts, row.id < db.nextAttempt
  unended : ∀ row ∈ db.attempts, row.status.live = true → untouched row

variable {db : JobsDb}

theorem unreceipted_iff : Unreceipted db ↔ Unended (fun row => row.endedAt = none ∧ row.receiptJson = none) db :=
  ⟨fun kept => ⟨kept.distinct, kept.numbered, kept.unended⟩, fun kept => ⟨kept.distinct, kept.numbered, kept.unended⟩⟩

variable {untouched : JobAttempt → Prop}

theorem Unended.updateWhere (kept : Unended untouched db) (same : ∀ row, (change row).id = row.id)
    (keeps : ∀ row ∈ db.attempts, selected row = true → (change row).status.live = true →
      row.status.live = true ∧ (untouched row → untouched (change row))) :
    Unended untouched { db with attempts := updateWhere selected change db.attempts } where
  distinct := by
    rw [updateWhere_ids same]
    exact kept.distinct
  numbered := by
    intro row member
    obtain ⟨old, present, ⟨_, rfl⟩ | ⟨_, rfl⟩⟩ := mem_updateWhere member
    · rw [same]
      exact kept.numbered old present
    · exact kept.numbered row present
  unended := by
    intro row member live
    obtain ⟨old, present, ⟨chosen, rfl⟩ | ⟨_, rfl⟩⟩ := mem_updateWhere member
    · obtain ⟨before, stays⟩ := keeps old present chosen live
      exact stays (kept.unended old present before)
    · exact kept.unended row present live

variable {attemptId : AttemptId}

theorem Ended.updateWhere (ended : Ended db attemptId) (same : ∀ row, (change row).id = row.id)
    (keeps : ∀ row, selected row = true → (change row).status.live = true → row.status.live = true) :
    Ended { db with attempts := updateWhere selected change db.attempts } attemptId where
  known := ended.known
  final := by
    intro row member named
    obtain ⟨old, present, ⟨chosen, rfl⟩ | ⟨_, rfl⟩⟩ := mem_updateWhere member
    · rw [same] at named
      have closed := ended.final old present named
      cases live : (change old).status.live with
      | false => rfl
      | true =>
        rw [keeps old chosen live] at closed
        cases closed
    · exact ended.final row present named

theorem unended_effect (kept : Unended untouched db)
    (updated : ∀ now (update : AttemptUpdate) row, update.selects row = true →
      (update.changes now row).status.live = true → untouched row → untouched (update.changes now row))
    (inserted : ∀ (new : NewAttempt) id now, untouched (new.row id now)) (stmt : JobStatement) :
    Unended untouched (stmt.effect db) := by
  cases stmt with
  | updateAttempts update =>
    exact kept.updateWhere (attemptUpdate_changes_id db.now update)
      fun row _ chosen live => ⟨Jobs.attemptUpdate_live chosen live, updated db.now update row chosen live⟩
  | insertAttempt new =>
    simp only [JobStatement.effect]
    split
    · exact kept
    · refine ⟨?_, ?_, ?_⟩
      · rw [map_append, nodup_append]
        refine ⟨kept.distinct, by simp, ?_⟩
        intro older member newer added same
        obtain ⟨row, present, rfl⟩ := mem_map.mp member
        have below := kept.numbered row present
        have next : newer = db.nextAttempt := by simpa [NewAttempt.row] using added
        rw [same, next] at below
        exact Nat.lt_irrefl _ below
      · intro row member
        rcases mem_append.mp member with old | added
        · exact Nat.lt_succ_of_lt (kept.numbered row old)
        · rw [mem_singleton.mp added]
          exact Nat.lt_succ_self _
      · intro row member live
        rcases mem_append.mp member with old | added
        · exact kept.unended row old live
        · rw [mem_singleton.mp added]
          exact inserted new db.nextAttempt db.now
  | _ => exact ⟨kept.distinct, kept.numbered, kept.unended⟩

theorem unreceipted_effect (kept : Unreceipted db) (stmt : JobStatement) : Unreceipted (stmt.effect db) := by
  refine unreceipted_iff.mpr (unended_effect (unreceipted_iff.mp kept) ?_ ?_ stmt)
  · intro now update row chosen live unwritten
    obtain ⟨_, endedAt, receipt⟩ := attemptUpdate_keeps chosen live
    rw [endedAt, receipt]
    exact unwritten
  · exact fun new id now => ⟨rfl, rfl⟩

theorem ended_effect (ended : Ended db attemptId) (stmt : JobStatement) :
    Ended (stmt.effect db) attemptId := by
  cases stmt with
  | updateAttempts update =>
    exact ended.updateWhere (attemptUpdate_changes_id db.now update)
      fun row chosen live => Jobs.attemptUpdate_live chosen live
  | insertAttempt new =>
    simp only [JobStatement.effect]
    split
    · exact ended
    · refine ⟨Nat.lt_succ_of_lt ended.known, ?_⟩
      intro row member named
      rcases mem_append.mp member with old | added
      · exact ended.final row old named
      · rw [mem_singleton.mp added] at named
        have known := ended.known
        rw [← named] at known
        exact absurd known (Nat.lt_irrefl _)
  | _ => exact ⟨ended.known, ended.final⟩

def chargesReceipt (row : NewTransaction) : Bool := row.type == .charge && row.sourceType == .receipt

structure Unbilled (db : LoopDb) : Prop where
  attempts : Unreceipted db.jobs
  uncharged : ∀ row ∈ db.ledger.transactions, chargesReceipt row.toNewTransaction = false
  unposted : ∀ transaction ∈ db.ledger.opened, ∀ row, transaction.inserted = some row →
    chargesReceipt row.toNewTransaction = false

def posts (charged : NewTransaction → Bool) : LedgerStatement → Bool
  | .insertTransaction _ new => charged new
  | _ => false

def allowed : LoopStatement → LoopDb → Prop
  | .writeReceipt attemptId _, db => Ended db.jobs attemptId
  | .ledger statement, _ => posts chargesReceipt statement = false
  | _, _ => True

section

variable {db : LoopDb}

theorem ledger_effect_uncharged (unbilled : Unbilled db) {stmt : LedgerStatement}
    (isAllowed : posts chargesReceipt stmt = false) : Unbilled { db with ledger := stmt.effect db.ledger } := by
  refine ⟨unbilled.attempts, ?_, ?_⟩
  · cases stmt with
    | insertTransaction session new | insertBalance orgId currency =>
      simp only [LedgerStatement.effect]
      split <;> exact unbilled.uncharged
    | commit session =>
      simp only [LedgerStatement.effect]
      split
      · exact unbilled.uncharged
      · next transaction opened =>
        intro row member
        rcases mem_append.mp member with old | added
        · exact unbilled.uncharged row old
        · exact unbilled.unposted transaction (mem_of_find?_eq_some opened) row (Option.mem_toList.mp added)
    | _ => exact unbilled.uncharged
  · cases stmt with
    | insertTransaction session new =>
      simp only [LedgerStatement.effect]
      split
      · exact unbilled.unposted
      · intro transaction member row inserted
        obtain ⟨old, present, ⟨_, rfl⟩ | ⟨_, rfl⟩⟩ := mem_updateWhere member
        · cases inserted
          exact isAllowed
        · exact unbilled.unposted transaction present row inserted
    | updateBalance session orgId change =>
      intro transaction member row inserted
      obtain ⟨old, present, ⟨_, rfl⟩ | ⟨_, rfl⟩⟩ := mem_updateWhere member
      · exact unbilled.unposted old present row inserted
      · exact unbilled.unposted transaction present row inserted
    | lockBalance session orgId =>
      intro transaction member row inserted
      rcases mem_append.mp member with old | added
      · exact unbilled.unposted transaction old row inserted
      · rw [mem_singleton.mp added] at inserted
        cases inserted
    | insertBalance orgId currency =>
      simp only [LedgerStatement.effect]
      split <;> exact unbilled.unposted
    | commit session =>
      simp only [LedgerStatement.effect]
      split
      · exact unbilled.unposted
      · intro transaction member
        exact unbilled.unposted transaction (mem_filter.mp member).1
    | rollback session =>
      intro transaction member
      exact unbilled.unposted transaction (mem_filter.mp member).1
    | _ => exact unbilled.unposted

theorem unbilled_effect (unbilled : Unbilled db) {stmt : LoopStatement} (isAllowed : allowed stmt db) :
    Unbilled (stmt.effect db) := by
  cases stmt with
  | jobs stmt =>
    exact ⟨unreceipted_effect unbilled.attempts stmt, unbilled.uncharged, unbilled.unposted⟩
  | ledger stmt => exact ledger_effect_uncharged unbilled isAllowed
  | writeReceipt attemptId receipt =>
    refine ⟨?_, unbilled.uncharged, unbilled.unposted⟩
    refine unreceipted_iff.mpr ((unreceipted_iff.mp unbilled.attempts).updateWhere (fun _ => rfl) ?_)
    intro row member chosen live
    have closed := isAllowed.final row member (beq_iff_eq.mp chosen)
    have open_ : row.status.live = true := live
    rw [closed] at open_
    cases open_
  | promoteChildren parentId | unstage jobId =>
    have kept := unbilled.attempts
    exact ⟨⟨kept.distinct, kept.numbered, kept.unended⟩, unbilled.uncharged, unbilled.unposted⟩
  | select | appendCompletion log =>
    exact ⟨unbilled.attempts, unbilled.uncharged, unbilled.unposted⟩

theorem ended_loop_effect (ended : Ended db.jobs attemptId) (stmt : LoopStatement) :
    Ended (stmt.effect db).jobs attemptId := by
  cases stmt with
  | jobs stmt => exact ended_effect ended stmt
  | writeReceipt written receipt =>
    exact ended.updateWhere (fun _ => rfl) fun _ _ live => live
  | promoteChildren parentId | unstage jobId => exact ⟨ended.known, ended.final⟩
  | _ => exact ended

def loopDiscipline : Discipline LoopStatement LoopDb where
  inv := Unbilled
  allowed _ := allowed
  rely _ before after := ∀ attemptId, Ended before.jobs attemptId → Ended after.jobs attemptId
  rely_refl _ _ _ ended := ended
  rely_trans first second attemptId ended := second attemptId (first attemptId ended)
  keeps unbilled _ isAllowed := unbilled_effect unbilled isAllowed
  respects {_ _ stmt _} _ _ _ _ _ ended := ended_loop_effect ended stmt

abbrev Done {α : Type} : Except String α → LoopDb → Prop := fun _ _ => True

variable {α : Type} {session : Nat}

theorem safe_bind {β : Type} {call : LoopCall β} {cont : β → LoopCall α}
    (first : call.Safe loopDiscipline session Done db)
    (rest : ∀ value reached, (cont value).Safe loopDiscipline session Done reached) :
    (call >>= cont).Safe loopDiscipline session Done db :=
  first.bind (fun value reached _ => rest value reached) fun _ _ _ => trivial

end

theorem safe_onJobs (call : JobCall α) (db : LoopDb) : (onJobs call).Safe loopDiscipline session Done db :=
  call.issues_true.safe_lift fun _ _ _ _ => trivial

theorem safe_onLedger {call : LedgerCall α}
    (issues : call.Issues fun stmt => posts chargesReceipt stmt = false) (db : LoopDb) :
    (onLedger call).Safe loopDiscipline session Done db :=
  issues.safe_lift fun _ isAllowed _ _ => isAllowed

theorem safe_perform (stmt : LoopStatement) (isAllowed : ∀ found, allowed stmt found)
    (query : LoopDb → α) (db : LoopDb) :
    (Call.perform stmt query : LoopCall α).Safe loopDiscipline session Done db := by
  intro found _ _ _ _
  exact ⟨isAllowed found, trivial⟩

theorem safe_select (query : LoopDb → α) (db : LoopDb) : (select query).Safe loopDiscipline session Done db :=
  safe_perform .select (fun _ => trivial) query db

/-- What `completeAttempt` returns is the attempt without a receipt, now ended. -/
def Completed : Except String (Option JobAttempt) → LoopDb → Prop
  | .ok (some attempt), db => attempt.receiptJson = none ∧ Ended db.jobs attempt.id
  | _, _ => True

theorem completed_returning (kept : Unreceipted db) {status : Outcome} {result : AttemptResult} {attempt : JobAttempt}
    (isUpdate : update = .completed attemptId status.status result status.status_final)
    (returned : returning update.selects (update.changes db.now) db.attempts = some attempt) :
    attempt.receiptJson = none ∧ Ended (JobStatement.effect (.updateAttempts update) db) attempt.id := by
  subst isUpdate
  obtain ⟨old, found, rfl⟩ := Option.map_eq_some_iff.mp returned
  have member := mem_of_find?_eq_some found
  have chosen := find?_some found
  simp only [AttemptUpdate.selects, Bool.and_eq_true, beq_iff_eq] at chosen
  obtain ⟨named, running⟩ := chosen
  have live : old.status.live = true := by rw [running]; rfl
  refine ⟨(kept.unended old member live).2, kept.numbered old member, ?_⟩
  intro row present same
  obtain ⟨earlier, present, ⟨_, rfl⟩ | ⟨skipped, rfl⟩⟩ := mem_updateWhere present
  · exact status.status_final
  · have equal : row = old := inj_on_of_nodup_map kept.distinct present member same
    simp [AttemptUpdate.selects, equal, named, running] at skipped

theorem safe_completeAttempt (attemptId : AttemptId) (status : Outcome) (result : AttemptResult) (db : LoopDb) :
    (onJobs (Jobs.completeAttempt attemptId status result)).Safe loopDiscipline session Completed db := by
  intro found _ unbilled _ _
  refine ⟨trivial, ?_⟩
  let update := AttemptUpdate.completed attemptId status.status result status.status_final
  change Completed (.ok (returning update.selects (update.changes found.jobs.now) found.jobs.attempts)) _
  cases returned : returning update.selects (update.changes found.jobs.now)
      found.jobs.attempts with
  | none => trivial
  | some attempt => exact completed_returning unbilled.attempts rfl returned

section

variable (assemble : AssembleReceipt) (toLowerCase : String → String) {session : Nat} {attempt : JobAttempt}
  {db : LoopDb} (job : Job)

theorem safe_tryPersistAttemptReceipt (ended : Ended db.jobs attempt.id) :
    (tryPersistAttemptReceipt assemble job attempt).Safe loopDiscipline session Done db := by
  unfold tryPersistAttemptReceipt
  split
  · trivial
  · split
    · trivial
    · intro found relied _ _ _
      refine ⟨trivial, ?_⟩
      simp only [bind_eq, ret_bind]
      cases found.findProject job.projectId with
      | none => trivial
      | some project =>
        intro later relies _ _ _
        refine ⟨trivial, ?_⟩
        simp only [bind_eq, ret_bind]
        cases assemble later job attempt project.orgId with
        | none => trivial
        | some receipt =>
          intro writing relying _ _ _
          exact ⟨relying attempt.id (relies attempt.id (relied attempt.id ended)), trivial⟩

theorem tryChargeForReceipt_of_none (unpriced : attempt.receiptJson = none) (session : Nat)
    (transactionId : String) (job : Job) :
    tryChargeForReceipt toLowerCase session transactionId job attempt = .ret () := by
  simp [tryChargeForReceipt, chargeForReceipt, unpriced, Call.handle]

variable {α : Type}

theorem safe_persistAndCharge {transactionId : String} {cont : Unit → LoopCall α}
    (completed : Completed (.ok (some attempt)) db)
    (rest : ∀ reached, (cont ()).Safe loopDiscipline session Done reached) :
    (do
      tryPersistAttemptReceipt assemble job attempt
      tryChargeForReceipt toLowerCase session transactionId job attempt >>=
        cont : LoopCall α).Safe loopDiscipline session Done db := by
  obtain ⟨unpriced, ended⟩ := completed
  rw [tryChargeForReceipt_of_none toLowerCase unpriced]
  exact safe_bind (safe_tryPersistAttemptReceipt assemble job ended) fun _ => rest

theorem safe_applyOutcome (attempt : JobAttempt) (result : HarnessResult) (outcome : ControlStatus) (db : LoopDb) :
    (applyOutcome job attempt result outcome).Safe loopDiscipline session Done db := by
  unfold applyOutcome
  split
  · refine safe_bind (safe_perform (.promoteChildren job.id) (fun _ => trivial) _ db)
      fun promoted reached => ?_
    refine safe_bind (safe_perform (.unstage job.id) (fun _ => trivial) _ reached) fun _ later => ?_
    exact safe_bind (safe_onJobs _ later) fun _ _ => trivial
  · cases outcome with
    | waiting =>
      refine safe_bind (safe_select _ db) fun _ reached => ?_
      exact safe_bind (safe_onJobs _ reached) fun _ _ => trivial
    | success => exact safe_bind (safe_onJobs _ db) fun _ _ => trivial
    | failed | prepared =>
      simp only
      cases retryDelay job attempt with
      | some delay =>
        refine safe_bind (safe_select _ db) fun _ reached => ?_
        exact safe_bind (safe_onJobs _ reached) fun _ _ => trivial
      | none => exact safe_bind (safe_onJobs _ db) fun _ _ => trivial

theorem safe_externallyFinalized (result : HarnessResult) (db : LoopDb) :
    (externallyFinalized job result).Safe loopDiscipline session Done db := by
  have finishes : ∀ latestAttempt reached,
      (externallyFinalized.finish job result latestAttempt).Safe loopDiscipline session Done
        reached := by
    intro latestAttempt reached
    unfold externallyFinalized.finish
    split
    · exact safe_bind (safe_onJobs _ reached) fun _ _ => trivial
    · exact safe_bind (safe_onJobs _ reached) fun _ _ => trivial
  refine safe_bind (safe_select _ db) fun latestAttempt reached => ?_
  refine safe_bind (safe_onJobs _ reached) fun currentJob later => ?_
  cases currentJob with
  | none => exact finishes latestAttempt later
  | some currentJob =>
    simp only
    split
    · trivial
    · exact finishes latestAttempt later

variable (transactionId : String)

theorem safe_completeAndFinalize (job : Job) (attempt : JobAttempt) (result : HarnessResult) (db : LoopDb) :
    (completeAndFinalize assemble toLowerCase session transactionId job attempt result).Safe
      loopDiscipline session Done db := by
  refine (safe_completeAttempt _ _ _ db).bind ?_ fun _ _ _ => trivial
  intro returned reached completed
  cases returned with
  | none => exact safe_externallyFinalized job result reached
  | some completedAttempt =>
    exact safe_persistAndCharge assemble toLowerCase job completed
      fun later => safe_applyOutcome job attempt result _ later

theorem safe_failAttempt (job : Job) (attempt : JobAttempt) (message : String) (db : LoopDb) :
    (failAttempt assemble toLowerCase session transactionId job attempt message).Safe
      loopDiscipline session Done db := by
  refine (safe_completeAttempt _ _ _ db).bind ?_ fun _ _ _ => trivial
  intro returned reached completed
  cases returned with
  | none => exact safe_bind (safe_onJobs _ reached) fun _ _ => trivial
  | some completedAttempt =>
    exact safe_persistAndCharge assemble toLowerCase job completed fun _ => trivial

theorem safe_handleProcessJobError (job : Job) (attempt : JobAttempt) (message : String) (db : LoopDb) :
    (handleProcessJobError assemble toLowerCase session transactionId job attempt message).Safe
      loopDiscipline session Done db := by
  refine safe_bind ?_ fun closed later => ?_
  · exact (safe_failAttempt assemble toLowerCase transactionId job attempt message db).handle
      (fun _ _ _ => trivial) fun _ _ _ => trivial
  · cases closed with
    | true => trivial
    | false => exact safe_bind (safe_onJobs _ later) fun _ _ => trivial

theorem safe_processJob (newId : Nat → String) (job : Job) (attempt : JobAttempt)
    (worker : Except String HarnessResult) (db : LoopDb) :
    (processJob assemble toLowerCase session newId job attempt worker).Safe loopDiscipline session Done db := by
  cases worker with
  | error message =>
    exact safe_handleProcessJobError assemble toLowerCase (newId 1) job attempt message db
  | ok result =>
    refine (safe_completeAndFinalize assemble toLowerCase (newId 0) job attempt result db).handle
      (fun _ _ _ => trivial) ?_
    intro message reached _
    exact safe_handleProcessJobError assemble toLowerCase (newId 1) job attempt message reached

theorem safe_recoverAttempt (jobId : JobId) (log : CompletionLog) (db : LoopDb) :
    (recoverAttempt assemble toLowerCase session transactionId jobId log).Safe loopDiscipline session Done db := by
  refine (safe_completeAttempt _ _ _ db).bind ?_ fun _ _ _ => trivial
  intro returned reached completed
  cases returned with
  | none => trivial
  | some attempt =>
    refine safe_bind ?_ fun _ later => ?_
    · obtain ⟨unpriced, ended⟩ := completed
      intro finding relied _ _ _
      refine ⟨trivial, ?_⟩
      simp only [Call.lift, bind_eq, ret_bind]
      cases finding.jobs.findJob jobId with
      | none => trivial
      | some job =>
        simp only [tryChargeForReceipt_of_none toLowerCase unpriced]
        exact safe_bind (safe_tryPersistAttemptReceipt assemble job (relied attempt.id ended)) fun _ _ => trivial
    · refine safe_bind ?_ fun _ last => safe_onJobs _ last
      unfold closeRecovered
      split
      · exact safe_bind (safe_onJobs _ later) fun _ _ => trivial
      · trivial
      · exact safe_bind (safe_onJobs _ later) fun _ _ => trivial
      · exact safe_bind (safe_onJobs _ later) fun _ _ => trivial

theorem safe_recoverCompletedAttempts (newId : AttemptId → String)
    (inFlight : JobId → Option Timestamp) (now : Timestamp) (db : LoopDb) :
    (recoverCompletedAttempts assemble toLowerCase session newId inFlight now).Safe loopDiscipline session Done db := by
  refine safe_bind (safe_select _ db) fun completedAttempts reached => ?_
  refine Call.SafeWhile.forEach trivial ?_
  rintro ⟨jobId, log⟩ _ later _
  simp only
  split
  · trivial
  · exact (safe_recoverAttempt assemble toLowerCase _ jobId log later).handle
      (fun _ _ _ => trivial) fun _ _ _ => trivial

theorem ended_of_endedAt (unended : ∀ row, untouched row → row.endedAt = none) {db : JobsDb}
    (kept : Unended untouched db) {row : JobAttempt} (member : row ∈ db.attempts) (hasEnd : row.endedAt.isSome = true) :
    Ended db row.id where
  known := kept.numbered row member
  final := by
    intro other present same
    rw [inj_on_of_nodup_map kept.distinct present member same]
    cases live : row.status.live with
    | false => rfl
    | true =>
      rw [unended row (kept.unended row member live)] at hasEnd
      cases hasEnd

theorem recomputed_ended (kept : Unreceipted db.jobs) {since : Timestamp}
    {projectId : Option String} {force : Bool} {entry : JobAttempt × Job × Project}
    (member : entry ∈ db.recomputedAttempts since projectId force) : Ended db.jobs entry.1.id := by
  obtain ⟨row, present, selected⟩ := mem_filterMap.mp member
  split at selected
  · cases selected
  · split at selected
    · cases selected
    · split at selected
      · next chosen =>
        cases selected
        simp only [Bool.and_eq_true, Option.any_eq_true] at chosen
        obtain ⟨⟨⟨endedAt, isEnd, _⟩, _⟩, _⟩ := chosen
        exact ended_of_endedAt (fun _ unwritten => unwritten.1) (unreceipted_iff.mp kept) present
          (by rw [isEnd]; rfl)
      · cases selected

theorem safe_recomputeReceipts (since : Timestamp) (projectId : Option String) (force : Bool) (db : LoopDb) :
    (recomputeReceipts assemble since projectId force).Safe loopDiscipline session Done db := by
  intro found _ unbilled _ _
  refine ⟨trivial, ?_⟩
  let rows := found.recomputedAttempts since projectId force
  have each : ∀ entry ∈ rows, ∀ reached : LoopDb, (∀ entry ∈ rows, Ended reached.jobs entry.1.id) →
      (recomputeReceipt assemble entry).Safe loopDiscipline session
        (fun _ later => ∀ entry ∈ rows, Ended later.jobs entry.1.id) reached := by
    intro entry member reached ended pricing relied _ _ _
    refine ⟨trivial, ?_⟩
    have stillEnded : ∀ entry ∈ rows, Ended pricing.jobs entry.1.id :=
      fun other present => relied other.1.id (ended other present)
    simp only [bind_eq, ret_bind]
    cases assemble pricing entry.2.1 entry.1 entry.2.2.orgId with
    | none => exact stillEnded
    | some receipt =>
      intro writing relies _ _ _
      refine ⟨relies entry.1.id (stillEnded entry member), ?_⟩
      intro other present
      exact ended_loop_effect (relies other.1.id (stillEnded other present)) _
  exact (Call.SafeWhile.forEach (fun entry member => recomputed_ended unbilled.attempts member) each).imp
    fun _ _ _ => trivial

theorem issues_select (query : LedgerDb → α) :
    (Ledger.select query).Issues fun stmt => posts chargesReceipt stmt = false :=
  ⟨rfl, fun _ => trivial⟩

variable (session : Nat)

theorem issues_abort (error : String) :
    (Ledger.abort session error : LedgerCall α).Issues fun stmt => posts chargesReceipt stmt = false :=
  ⟨rfl, fun _ => trivial⟩

theorem issues_ensureBalance (orgId : OrgId) (currency : String) :
    (Ledger.ensureBalance toLowerCase orgId currency).Issues
      fun stmt => posts chargesReceipt stmt = false := by
  refine (issues_select _).bind fun existing => ?_
  cases existing with
  | some row =>
    simp only
    split
    · refine (issues_select _).bind fun txCount => ?_
      split
      · trivial
      · exact ⟨rfl, fun _ => trivial⟩
    · trivial
  | none =>
    refine Issues.bind ⟨rfl, fun db => ?_⟩ fun inserted => ?_
    · beta_reduce
      split
      · split <;> trivial
      · trivial
    · cases inserted with
      | some row => trivial
      | none => exact issues_select _

theorem issues_createTransaction {input : CreateTransactionInput}
    (isForeign : ¬ (input.type = .charge ∧ input.sourceType = .receipt)) :
    (Ledger.createTransaction toLowerCase session input).Issues
      fun stmt => posts chargesReceipt stmt = false := by
  refine (issues_select _).bind fun existing => ?_
  cases existing with
  | some row => trivial
  | none =>
    refine Issues.bind ⟨rfl, fun _ => trivial⟩ fun locked => ?_
    cases locked with
    | none => exact issues_abort session _
    | some lockedBalance =>
      simp only
      split
      · exact issues_abort session _
      · refine Issues.bind ?_ fun txRow => ?_
        · unfold Ledger.insertTransaction
          split
          · exact issues_abort session _
          · refine ⟨?_, fun db => ?_⟩
            · simpa [posts, chargesReceipt, CreateTransactionInput.new] using isForeign
            · beta_reduce
              split
              · exact issues_abort session _
              · trivial
        · cases input.change with
          | error error => exact issues_abort session error
          | ok change => exact ⟨rfl, fun _ => ⟨rfl, fun _ => trivial⟩⟩

theorem issues_ledgerOperation {operation : LedgerOperation} (isForeign : foreign operation) :
    (operation.call toLowerCase session).Issues fun stmt => posts chargesReceipt stmt = false := by
  cases operation with
  | ensureBalance orgId currency =>
    exact (issues_ensureBalance toLowerCase orgId currency).bind fun _ => trivial
  | createTransaction input =>
    exact (issues_createTransaction toLowerCase session isForeign).bind fun _ => trivial
  | loseConnection lost | passTime elapsed => exact ⟨rfl, fun _ => trivial⟩

theorem safe_loopOperation (operation : LoopOperation) (db : LoopDb) :
    (operation.call assemble toLowerCase session).Safe loopDiscipline session Done db := by
  cases operation with
  | jobQuery operation => exact safe_bind (safe_onJobs _ db) fun _ _ => trivial
  | processJob newId job attempt worker =>
    exact safe_processJob assemble toLowerCase newId job attempt worker db
  | recoverCompletedAttempts newId inFlight now =>
    exact safe_recoverCompletedAttempts assemble toLowerCase newId inFlight now db
  | recomputeReceipts since projectId force =>
    exact safe_recomputeReceipts assemble since projectId force db
  | logCompletion log => exact safe_perform (.appendCompletion log) (fun _ => trivial) _ db
  | ledger operation isForeign =>
    exact safe_bind (safe_onLedger (issues_ledgerOperation toLowerCase session isForeign) db) fun _ _ => trivial

def chargesFor (db : LoopDb) (attemptId : AttemptId) : Nat :=
  db.ledger.transactions.countP fun row =>
    chargesReceipt row.toNewTransaction && row.sourceId == toString attemptId

def finalizes (attemptId : AttemptId) (execution : Execution LoopStatement LoopDb) : Bool :=
  match execution.statement with
  | .jobs (.updateAttempts (.completed completed _ _ _)) =>
    completed == attemptId && execution.before.jobs.attempts.any fun row =>
      row.id == attemptId && row.status == .running
  | _ => false

def billable (db : LoopDb) (attemptId : AttemptId) : Bool :=
  db.jobs.attempts.any fun row => row.id == attemptId && row.receiptJson.isSome &&
    (row.receiptBilledTotal.bind Decimal.value).any fun amount => decide (0 < amount)

theorem runLoop_uncharged (unbilled : Unbilled db) (schedule : List (Choice LoopOperation)) (attemptId : AttemptId) :
    chargesFor (runLoop assemble toLowerCase db schedule).store attemptId = 0 := by
  have kept := System.run_kept (LoopOperation.call assemble toLowerCase) schedule (fun session operation _ =>
    safe_loopOperation assemble toLowerCase session operation db) unbilled fun _ _ => trivial
  rw [chargesFor, countP_eq_zero]
  intro row member
  simp [kept.inv.uncharged row member]

/-- Whatever the order of live finalizations, recovery ticks and restarts, the attempts
finalized with a positive receipt are charged exactly once only when there are none. -/
theorem charged_once_iff_nothing_billed {db : LoopDb} (unbilled : Unbilled db)
    (schedule : List (Choice LoopOperation)) :
    (∀ attemptId, (runLoop assemble toLowerCase db schedule).trace.any (finalizes attemptId) = true →
      billable (runLoop assemble toLowerCase db schedule).store attemptId = true →
      chargesFor (runLoop assemble toLowerCase db schedule).store attemptId = 1) ↔ ∀ attemptId,
      (runLoop assemble toLowerCase db schedule).trace.any (finalizes attemptId) = true →
      billable (runLoop assemble toLowerCase db schedule).store attemptId = false := by
  refine forall₂_congr fun attemptId _ => ?_
  rw [runLoop_uncharged assemble toLowerCase unbilled schedule attemptId]
  simp

end

def oneRunningAttempt : LoopDb where
  jobs := {
    jobs := [{ id := "job", projectId := "proj", phase := .active }]
    attempts := [{ id := 0, jobId := "job", attemptNumber := 1, status := .running }]
    nextAttempt := 1 }
  ledger := { orgs := ["org"], balances := [.empty "org" "usd" 0] }
  projects := [{ id := "proj", orgId := "org" }]

theorem oneRunningAttempt_unbilled : Unbilled oneRunningAttempt where
  attempts := ⟨by decide, by decide, by decide⟩
  uncharged := by simp [oneRunningAttempt]
  unposted := by simp [oneRunningAttempt]

def dollarReceipt : AssembleReceipt :=
  fun _ _ _ _ => some {
    json := "receipt", baseTotalUsd := "1.25", billedTotal := "1.50", billedCurrency := "usd" }

def liveFinalization : List (Choice LoopOperation) :=
  .start (.processJob (fun _ => "bt_1") { id := "job", projectId := "proj", phase := .active }
    { id := 0, jobId := "job", attemptNumber := 1, status := .running }
    (.ok { success := true, exitCode := 0 })) :: List.replicate 12 (.advance 0)

theorem live_finalization_bills_uncharged :
    Unbilled oneRunningAttempt ∧ ((∀ attemptId, (runLoop dollarReceipt id oneRunningAttempt liveFinalization).trace.any
        (finalizes attemptId) = true →
      billable (runLoop dollarReceipt id oneRunningAttempt liveFinalization).store attemptId = true →
      chargesFor (runLoop dollarReceipt id oneRunningAttempt liveFinalization).store attemptId = 1) ↔ ∀ attemptId,
      (runLoop dollarReceipt id oneRunningAttempt liveFinalization).trace.any (finalizes attemptId) = true →
      billable (runLoop dollarReceipt id oneRunningAttempt liveFinalization).store attemptId = false) :=
  ⟨oneRunningAttempt_unbilled,
    charged_once_iff_nothing_billed dollarReceipt id oneRunningAttempt_unbilled liveFinalization⟩

theorem live_finalization_not_charged : (runLoop dollarReceipt id oneRunningAttempt liveFinalization).ended.length = 1 ∧
    (runLoop dollarReceipt id oneRunningAttempt liveFinalization).trace.any (finalizes 0) = true ∧
    billable (runLoop dollarReceipt id oneRunningAttempt liveFinalization).store 0 = true ∧
    chargesFor (runLoop dollarReceipt id oneRunningAttempt liveFinalization).store 0 ≠ 1 := by
  decide +kernel

end EveHorizon.Loop
