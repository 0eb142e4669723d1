import EveHorizon.Jobs.Inventory
import EveHorizon.Loop.Recovery

/-!
# Live finalization and recovery

The decision about a job that finalizing a worker's result reaches, against the one that
recovering the attempt from its completion log reaches, and what later sweeps make of it.
-/

namespace EveHorizon.Loop

open Interleaving List Call Table
open Jobs (JobId AttemptId Timestamp Job JobAttempt JobsDb JobStatement JobCall AttemptStatus
  AttemptResult Phase ReviewStatus)

variable {α : Type}

theorem alone_onJobs (call : JobCall α) (db : LoopDb) :
    (onJobs call).alone db = ((call.alone db.jobs).1, { db with jobs := (call.alone db.jobs).2 }) :=
  alone_lift_part LoopStatement.jobs LoopDb.jobs (fun db jobs => { db with jobs }) (fun _ _ => rfl)
    (fun _ _ _ => rfl) (fun _ => rfl) (fun _ _ => rfl) call db

theorem alone_live (call : LoopCall α) (db : LoopDb) : (live call).alone db = call.alone db :=
  alone_lift_part RecoveryStatement.live id (fun _ db => db) (fun _ _ => rfl) (fun _ _ _ => rfl)
    (fun _ => rfl) (fun _ _ => rfl) call db

theorem alone_sweeping (call : LoopCall α) (db : LoopDb) : (sweeping call).alone db = call.alone db :=
  alone_lift_part (RecoveryStatement.sweep none) id (fun _ db => db) (fun _ _ => rfl) (fun _ _ _ => rfl)
    (fun _ => rfl) (fun _ _ => rfl) call db

theorem alone_judging (judged : Judgement) (call : LoopCall α) (db : LoopDb) :
    (judging judged call).alone db = call.alone db :=
  alone_lift_part (RecoveryStatement.sweep (some judged)) id (fun _ db => db) (fun _ _ => rfl) (fun _ _ _ => rfl)
    (fun _ => rfl) (fun _ _ => rfl) call db

/-- What a finalization decides: the phase, the review it asks for, the delay of a retry. -/
structure Decision where
  phase : Phase
  reviewStatus : Option ReviewStatus
  deferUntil : Option Timestamp
  deriving DecidableEq

def decisionOf (row : Job) : Decision := ⟨row.phase, row.reviewStatus, row.deferUntil⟩

def decision (db : JobsDb) (jobId : JobId) : Option Decision := (db.findJob jobId).map decisionOf

theorem findJob_updateJobs (db : JobsDb) (update : Jobs.JobUpdate) (jobId : JobId) :
    (JobStatement.effect (.updateJobs update) db).findJob jobId = (db.findJob jobId).map fun row =>
        if update.selects db row then update.changes db.now row else row :=
  find?_updateWhere Job.id (update.selects db) (update.changes db.now)
    (fun row _ => update.changes_id db.now row) db.jobs jobId

def doneDecision (row : Job) : Decision :=
  if row.reviewRequired = .none then { decisionOf row with phase := .done }
  else { decisionOf row with phase := .review, reviewStatus := some .pending }

variable {db : JobsDb} {jobId : JobId} {row : Job}

section

variable (found : db.findJob jobId = some row)
include found

variable {attempt : JobAttempt}

theorem submitForReview_decision (isActive : row.phase = .active) (member : attempt ∈ db.attempts)
    (ofJob : attempt.jobId = jobId) (succeeded : attempt.status = .succeeded) (agentId summary : String) :
    decision ((Jobs.submitForReview jobId agentId summary).alone db).2 jobId =
      some { decisionOf row with phase := .review, reviewStatus := some .pending } := by
  have isSome : (db.latestAttempt jobId fun status => status == .running || status == .succeeded).isSome = true :=
    latest_isSome _ (mem_filter.mpr ⟨member, by simp [ofJob, succeeded]⟩)
  obtain ⟨latest, isLatest⟩ := Option.isSome_iff_exists.mp isSome
  let submitted := JobStatement.effect (.updateAttempts (.submitted latest.id summary)) db
  have decided : decision (JobStatement.effect (.updateJobs (.submitted jobId)) submitted) jobId =
      some { decisionOf row with phase := .review, reviewStatus := some .pending } := by
    have stillFound : submitted.findJob jobId = some row := found
    have chosen : (Jobs.JobUpdate.submitted jobId).selects submitted row = true := by
      simp [Jobs.JobUpdate.selects, Jobs.findJob_id found, isActive]
    rw [decision, findJob_updateJobs, stillFound, Option.map_some, if_pos chosen]
    rfl
  simp only [Jobs.submitForReview, Jobs.findById, Jobs.select, Jobs.updateAttempts,
    Jobs.updateJobs, alone_perform_bind, found, isActive]
  have unchanged : Statement.effect JobStatement.select db = db := rfl
  rw [if_neg (by simp), alone_perform_bind, unchanged, isLatest]
  simp only [alone_perform_bind]
  split
  · exact decided
  · exact decided

theorem updatePhase_done_decision (isActive : row.phase = .active) (unreviewed : row.reviewRequired = .none) :
    decision ((Jobs.updatePhase jobId .done).alone db).2 jobId = some { decisionOf row with phase := .done } := by
  have valid : Jobs.canTransition row.phase .done = true := by
    rw [isActive]
    rfl
  have decided : decision (JobStatement.effect (.updateJobs (.phaseChanged jobId row.phase .done valid)) db) jobId =
      some { decisionOf row with phase := .done } := by
    have chosen : (Jobs.JobUpdate.phaseChanged jobId row.phase .done valid).selects db row = true := by
      simp [Jobs.JobUpdate.selects, Jobs.findJob_id found]
    rw [decision, findJob_updateJobs, found, Option.map_some, if_pos chosen]
    rfl
  simp only [Jobs.updatePhase, Jobs.findById, Jobs.select, alone_perform_bind, found, valid,
    unreviewed, ne_eq, not_true_eq_false, false_and, and_false, ↓reduceIte, ↓reduceDIte, Jobs.updateJobs]
  split
  · exact decided
  · exact decided

theorem markJobDone_decision (isActive : row.phase = .active) (member : attempt ∈ db.attempts)
    (ofJob : attempt.jobId = jobId) (succeeded : attempt.status = .succeeded) :
    decision ((Jobs.markJobDone jobId none).alone db).2 jobId = some (doneDecision row) := by
  have isOpen : row.phase.terminal = false := by
    rw [isActive]
    rfl
  simp only [Jobs.markJobDone, Jobs.findById, Jobs.select, alone_perform_bind, found, isOpen]
  by_cases reviewed : row.reviewRequired = .none
  · have direct := updatePhase_done_decision found isActive reviewed
    simp only [reviewed, doneDecision, ↓reduceIte, ne_eq, not_true_eq_false, Bool.false_eq_true]
    rw [← direct]
    exact congrArg (decision · jobId) (alone_bind_ret _ _ _)
  · have submitted := submitForReview_decision found isActive member ofJob succeeded
      (row.assignee.getD "orchestrator") ((none : Option String).getD "Completed")
    simp only [reviewed, isActive, doneDecision, ↓reduceIte, ne_eq, not_false_eq_true, Bool.false_eq_true]
    rw [← submitted, alone_bind]
    split
    · next ended => exact congrArg (decision · jobId) (congrArg Prod.snd ended).symm
    · next ended => exact congrArg (decision · jobId) (congrArg Prod.snd ended).symm

theorem requeueReady_phase (actor : String) (deferUntil : Option (Option Timestamp)) (reason : Option String) :
    ((Jobs.requeueReady jobId actor deferUntil reason).alone db).2.phaseOf jobId = some .ready := by
  have ready : (JobStatement.effect (.updateJobs (.requeued jobId deferUntil)) db).phaseOf jobId = some .ready := by
    have chosen : (Jobs.JobUpdate.requeued jobId deferUntil).selects db row = true := by
      simp [Jobs.JobUpdate.selects, Jobs.findJob_id found]
    rw [Jobs.phaseOf_updateJobs, found, Option.map_some, if_pos chosen]
    cases deferUntil <;> rfl
  simp only [Jobs.requeueReady, Jobs.findById, Jobs.select, alone_perform_bind, found,
    Jobs.updateJobs, Jobs.insertAudit]
  exact ready

/-- Statements that leave the review and the delay of every job alone. -/
def plain : JobStatement → Bool
  | .updateJobs (.closed _ _ _) => true
  | .updateJobs (.gatesCleared _) => true
  | .updateJobs (.cascaded _ _) => true
  | .updateJobs (.backlogChildrenClosed _ _ _) => true
  | .updateJobs _ => false
  | _ => true

omit found in
theorem plain_keeps {stmt : JobStatement} (isPlain : plain stmt = true) (jobId : JobId)
    {review : Option (Option ReviewStatus × Option Timestamp)}
    (holds : ((db.findJob jobId).map fun row => (row.reviewStatus, row.deferUntil)) = review) :
    (((stmt.effect db).findJob jobId).map fun row => (row.reviewStatus, row.deferUntil)) = review := by
  cases stmt with
  | updateJobs update =>
    rw [findJob_updateJobs, Option.map_map, ← holds]
    congr 1
    funext row
    cases update with
    | closed | gatesCleared | cascaded | backlogChildrenClosed =>
      simp only [Function.comp_apply]
      split <;> rfl
    | _ => cases isPlain
  | insertAttempt new =>
    simpa only [JobsDb.findJob, Jobs.insertAttempt_jobs] using holds
  | _ => exact holds

omit found in
theorem markJobFailed_plain (jobId : JobId) (reason : Option String) :
    (Jobs.markJobFailed jobId reason).Issues fun stmt => plain stmt = true := by
  refine (Jobs.markJobFailed_writes jobId reason).imp fun stmt allowed => ?_
  cases stmt with
  | updateJobs update =>
    rcases allowed with ⟨_, rfl⟩ | ⟨_, rfl⟩ | ⟨_, rfl⟩ | ⟨_, _, rfl⟩ <;> rfl
  | _ => rfl

theorem markJobFailed_decision (isOpen : row.phase.terminal = false) (reason : Option String) :
    decision ((Jobs.markJobFailed jobId reason).alone db).2 jobId =
      some { decisionOf row with phase := .cancelled } := by
  let reviewOf (store : JobsDb) := (store.findJob jobId).map fun row => (row.reviewStatus, row.deferUntil)
  have kept : ∀ stmt, plain stmt = true → ∀ store, reviewOf store = reviewOf db →
      reviewOf (Statement.effect stmt store) = reviewOf db :=
    fun stmt isPlain store holds => plain_keeps isPlain jobId holds
  have review : reviewOf ((Jobs.markJobFailed jobId reason).alone db).2 = reviewOf db :=
    (markJobFailed_plain jobId reason).alone_keeps kept rfl
  have phase : ((Jobs.markJobFailed jobId reason).alone db).2.phaseOf jobId = some .cancelled := by
    rw [Jobs.markJobFailed_open found isOpen]
    have rewritten := Jobs.failOpen_alone found isOpen reason
    rw [Ends] at rewritten
    rw [rewritten.phaseOf, found, Option.map_some]
    have failed := Jobs.failing_self db.relations jobId row.parentId isOpen
    rw [failed]
  simp only [reviewOf, found, Option.map_some] at review
  obtain ⟨after, isAfter, isReview⟩ := Option.map_eq_some_iff.mp review
  rw [JobsDb.phaseOf, isAfter, Option.map_some, Option.some.injEq] at phase
  rw [Prod.mk.injEq] at isReview
  rw [decision, isAfter, Option.map_some, decisionOf, phase, isReview.1, isReview.2]
  rfl

end

theorem exists_findJob_iff : (∃ row, db.findJob jobId = some row) ↔ jobId ∈ db.jobs.map (·.id) := by
  rw [← Option.isSome_iff_exists, JobsDb.findJob, find?_isSome, mem_map]
  simp

theorem updateWhere_jobIds (selected : Job → Bool) (change : Job → Job)
    (keeps : ∀ row, (change row).id = row.id) (rows : List Job) :
    (updateWhere selected change rows).map (·.id) = rows.map (·.id) := by
  rw [updateWhere, map_map]
  congr 1
  funext row
  simp only [Function.comp_apply]
  split
  · exact keeps row
  · rfl

theorem statement_ids (stmt : LoopStatement) (db : LoopDb) :
    (stmt.effect db).jobs.jobs.map (·.id) = db.jobs.jobs.map (·.id) := by
  cases stmt with
  | jobs stmt =>
    cases stmt with
    | updateJobs update => exact updateWhere_jobIds _ _ (update.changes_id db.jobs.now) _
    | insertAttempt new => exact congrArg (List.map (·.id)) (Jobs.insertAttempt_jobs new db.jobs)
    | _ => rfl
  | promoteChildren parentId | unstage jobId =>
    refine updateWhere_jobIds _ _ ?_ _
    exact fun _ => rfl
  | _ => rfl

theorem call_ids (call : LoopCall α) (db : LoopDb) :
    (call.alone db).2.jobs.jobs.map (·.id) = db.jobs.jobs.map (·.id) := by
  let same (found : LoopDb) := found.jobs.jobs.map (·.id) = db.jobs.jobs.map (·.id)
  have kept : ∀ stmt : LoopStatement, True → ∀ found, same found →
      same (Statement.effect stmt found) := fun stmt _ found holds =>
    (statement_ids stmt found).trans holds
  exact call.issues_true.alone_keeps kept (rfl : same db)

def names (jobId : JobId) : JobStatement → Prop
  | .updateJobs update => ∀ db row, update.selects db row = true → row.id = jobId ∨ row.phase = .backlog
  | _ => True

theorem names_spares {parentId : JobId} (other : parentId ≠ jobId) {stmt : JobStatement}
    (isNamed : names parentId stmt) (settled : row.phase ≠ .backlog)
    (found : db.findJob jobId = some row) : (stmt.effect db).findJob jobId = some row := by
  cases stmt with
  | updateJobs update =>
    have skipped : update.selects db row = false := by
      cases chosen : update.selects db row with
      | false => rfl
      | true =>
        rcases isNamed db row chosen with same | backlog
        · exact absurd (same.symm.trans (Jobs.findJob_id found)) other
        · exact absurd backlog settled
    rw [findJob_updateJobs, found, Option.map_some, skipped]
    rfl
  | insertAttempt new => simpa only [JobsDb.findJob, Jobs.insertAttempt_jobs] using found
  | _ => exact found

theorem markJobDone_names (jobId : JobId) (summary : Option String) :
    (Jobs.markJobDone jobId summary).Issues (names jobId) := by
  refine (Jobs.markJobDone_writes jobId summary).imp fun stmt allowed => ?_
  cases stmt with
  | updateJobs update =>
    intro db row chosen
    rcases allowed with rfl | ⟨_, _, rfl⟩
    · exact .inl (by simpa using (Bool.and_eq_true_iff.mp chosen).1)
    · exact .inl (by simpa using (Bool.and_eq_true_iff.mp chosen).1)
  | _ => trivial

theorem closeJobAndAttempt_names (jobId : JobId) (reason : String) (status : AttemptStatus)
    (isFinal : status.live = false) (disposition : Jobs.FailureDisposition) :
    (Jobs.closeJobAndAttempt jobId reason status isFinal disposition).Issues (names jobId) := by
  have closes : ∀ db row, (Jobs.JobUpdate.closed jobId reason disposition).selects db row = true →
      row.id = jobId ∨ row.phase = .backlog := by
    intro db row chosen
    simp only [Jobs.JobUpdate.selects, Bool.and_eq_true, beq_iff_eq] at chosen
    exact .inl chosen.1
  have clears : ∀ db row, (Jobs.JobUpdate.gatesCleared [jobId]).selects db row = true →
      row.id = jobId ∨ row.phase = .backlog := by
    intro db row chosen
    exact .inl (by simpa [Jobs.JobUpdate.selects] using chosen)
  refine Issues.bind (issues_perform trivial) fun running => ?_
  cases running with
  | none =>
    exact ⟨closes, fun _ => ⟨trivial, fun _ => ⟨clears, fun _ => trivial⟩⟩⟩
  | some attempt =>
    exact ⟨trivial, fun _ => ⟨closes, fun _ => ⟨trivial, fun _ => ⟨clears, fun _ => trivial⟩⟩⟩⟩

theorem cancelJob_names (jobId : JobId) (reason : Option String) :
    (Jobs.cancelJob jobId reason).Issues (names jobId) := by
  refine Issues.found trivial trivial fun job => ?_
  simp only
  split
  · trivial
  · refine Issues.bind (closeJobAndAttempt_names _ _ _ _ _) fun closed => ?_
    cases closed with
    | none => trivial
    | some updatedJob =>
      refine Issues.bind (issues_perform ?_) fun _ => trivial
      intro db row chosen
      simp only [Jobs.JobUpdate.selects, Bool.and_eq_true, beq_iff_eq] at chosen
      exact .inr chosen.2

theorem closeRootOf_spares {parent : Option JobId} (other : parent ≠ some jobId)
    (settled : row.phase ≠ .backlog) {db : LoopDb} (found : db.jobs.findJob jobId = some row) :
    (((closeRootOf parent).alone db).2).jobs.findJob jobId = some row := by
  cases parent with
  | none => exact found
  | some parentId =>
    have different : parentId ≠ jobId := fun same => other (congrArg some same)
    let issued (stmt : LoopStatement) : Prop :=
      ∀ db : LoopDb, db.jobs.findJob jobId = some row → (stmt.effect db).jobs.findJob jobId = some row
    have spares : ∀ stmt : JobStatement, names parentId stmt →
        issued (.jobs stmt) := fun stmt isNamed _ isFound =>
      names_spares different isNamed settled isFound
    have selects : issued .select := fun _ isFound => isFound
    have root : (closeWorkflowRoot parentId).Issues issued := by
      refine Issues.found selects trivial fun parent => ?_
      simp only
      split
      · trivial
      · refine Issues.bind (issues_perform selects) fun counts => ?_
        split
        · trivial
        · split
          · exact ((markJobDone_names parentId none).imp spares).lift.bind fun _ => trivial
          · exact ((cancelJob_names parentId _).imp spares).lift.bind fun _ => trivial
    rw [closeRootOf, tryCloseWorkflowRoot, alone_handle_ret]
    exact root.alone_keeps (fun stmt isIssued found => isIssued found) found

/-- The receipt and the charge of an attempt change no job and no attempt's status. -/
structure Billed (before after : LoopDb) : Prop where
  jobs : after.jobs.jobs = before.jobs.jobs
  attempts : after.jobs.attempts.map (fun row => (row.id, row.jobId, row.status)) =
    before.jobs.attempts.map fun row => (row.id, row.jobId, row.status)

theorem Billed.refl (db : LoopDb) : Billed db db := ⟨rfl, rfl⟩

def bills : LoopStatement → Prop
  | .select => True
  | .ledger _ => True
  | .writeReceipt _ _ => True
  | _ => False

theorem bills_keeps {before found : LoopDb} {stmt : LoopStatement} (isBill : bills stmt)
    (billed : Billed before found) : Billed before (stmt.effect found) := by
  cases stmt with
  | select | ledger => exact ⟨billed.jobs, billed.attempts⟩
  | writeReceipt attemptId receipt =>
    refine ⟨billed.jobs, Eq.trans ?_ billed.attempts⟩
    change (updateWhere _ receipt.columns found.jobs.attempts).map _ = _
    rw [updateWhere, map_map]
    refine map_congr_left fun row _ => ?_
    simp only [Function.comp_apply]
    split <;> rfl
  | _ => cases isBill

section

variable (assemble : AssembleReceipt) (toLowerCase : String → String)

theorem tryPersistAttemptReceipt_bills (job : Job) (attempt : JobAttempt) :
    (tryPersistAttemptReceipt assemble job attempt).Issues bills := by
  rw [tryPersistAttemptReceipt]
  split
  · trivial
  · split
    · trivial
    · refine Issues.found trivial trivial fun project => ?_
      exact Issues.found trivial trivial fun receipt => issues_perform trivial

theorem tryPersistAttemptReceipt_ends (job : Job) (attempt : JobAttempt) (db : LoopDb) :
    ((tryPersistAttemptReceipt assemble job attempt).alone db).1 = .ok () := by
  simp only [tryPersistAttemptReceipt]
  split
  · rfl
  · split
    · rfl
    · simp only [select, alone_perform_bind]
      split
      · rfl
      · simp only [alone_perform_bind]
        split
        · rfl
        · rfl

variable {α : Type}

theorem onLedger_bills (call : Ledger.LedgerCall α) : (onLedger call).Issues bills :=
  (call.issues_true.imp fun _ _ => (trivial : bills (.ledger _))).lift

variable (session : Nat) (transactionId : String)

theorem chargeForReceipt_bills (job : Job) (attempt : JobAttempt) :
    (chargeForReceipt toLowerCase session transactionId job attempt).Issues bills := by
  simp only [chargeForReceipt]
  split
  · trivial
  · split
    · trivial
    · split
      · trivial
      · refine Issues.found trivial trivial fun project => ?_
        exact (onLedger_bills _).bind fun _ => (onLedger_bills _).bind fun _ => trivial

theorem tryChargeForReceipt_ends (job : Job) (attempt : JobAttempt) (db : LoopDb) :
    ((tryChargeForReceipt toLowerCase session transactionId job attempt).alone db).1 = .ok () := by
  rw [tryChargeForReceipt, alone_handle]
  split
  · rfl
  · rfl

theorem billing_alone (job : Job) (attempt : JobAttempt) (rest : LoopCall α) (db : LoopDb) :
    ∃ billed, Billed db billed ∧ ((tryPersistAttemptReceipt assemble job attempt >>= fun _ =>
        tryChargeForReceipt toLowerCase session transactionId job attempt >>= fun _ =>
          rest).alone db) = rest.alone billed := by
  have keeps : ∀ stmt, bills stmt → ∀ found, Billed db found →
      Billed db (Statement.effect stmt found) := fun _ isBill _ billed =>
    bills_keeps isBill billed
  have persisted := tryPersistAttemptReceipt_ends assemble job attempt db
  have receipt : Billed db ((tryPersistAttemptReceipt assemble job attempt).alone db).2 :=
    (tryPersistAttemptReceipt_bills assemble job attempt).alone_keeps keeps (.refl db)
  have charges : (tryChargeForReceipt toLowerCase session transactionId job attempt).Issues bills :=
    (chargeForReceipt_bills toLowerCase session transactionId job attempt).handle fun _ => trivial
  rw [alone_bind]
  rcases first : (tryPersistAttemptReceipt assemble job attempt).alone db with ⟨result, reached⟩
  rw [first] at persisted receipt
  simp only at persisted
  subst persisted
  have charged := tryChargeForReceipt_ends toLowerCase session transactionId job attempt reached
  have charge := charges.alone_keeps keeps receipt
  simp only [alone_bind]
  rcases second : (tryChargeForReceipt toLowerCase session transactionId job attempt).alone
    reached with ⟨result, billed⟩
  rw [second] at charged charge
  simp only at charged
  subst charged
  exact ⟨billed, charge, rfl⟩

structure Dispatched (db : LoopDb) (job : Job) (attempt : JobAttempt) : Prop where
  found : db.jobs.findJob job.id = some job
  isActive : job.phase = .active
  uniqueJobs : (db.jobs.jobs.map (·.id)).Nodup
  notOwnParent : job.parentId ≠ some job.id
  member : attempt ∈ db.jobs.attempts
  ofJob : attempt.jobId = job.id
  running : attempt.status = .running

def settles (job : Job) (attempt : JobAttempt) : ControlStatus → Bool
  | .success => true
  | .waiting => false
  | .failed => (retryDelay job attempt).isNone
  | .prepared => !job.hints.staged && (retryDelay job attempt).isNone

def settledDecision (job : Job) : ControlStatus → Decision
  | .success => doneDecision job
  | _ => { decisionOf job with phase := .cancelled }

def completion (attempt : JobAttempt) (outcome : Jobs.Outcome) (result : AttemptResult) : JobStatement :=
  .updateAttempts (.completed attempt.id outcome.status result outcome.status_final)

def completeIn (db : LoopDb) (attempt : JobAttempt) (outcome : Jobs.Outcome)
    (result : AttemptResult) : LoopDb :=
  { db with jobs := (completion attempt outcome result).effect db.jobs }

variable {attempt : JobAttempt}

theorem completeAttempt_alone {db : JobsDb} (member : attempt ∈ db.attempts)
    (running : attempt.status = .running) (outcome : Jobs.Outcome) (result : AttemptResult) :
    ∃ completed, (Jobs.completeAttempt attempt.id outcome result).alone db =
      (.ok (some completed), (completion attempt outcome result).effect db) := by
  have chosen : (Jobs.AttemptUpdate.completed attempt.id outcome.status result
      outcome.status_final).selects attempt = true := by
    simp [Jobs.AttemptUpdate.selects, running]
  obtain ⟨row, isRow⟩ := Option.isSome_iff_exists.mp (find?_isSome.mpr ⟨attempt, member, chosen⟩)
  refine ⟨(Jobs.AttemptUpdate.completed attempt.id outcome.status result outcome.status_final).changes db.now row, ?_⟩
  simp only [Jobs.completeAttempt, Jobs.updateAttempts, alone_perform, returning, isRow, Option.map_some]
  rfl

structure AttemptCompleted (db : LoopDb) (job : Job) (outcome : ControlStatus) : Prop where
  found : db.jobs.findJob job.id = some job
  uniqueJobs : (db.jobs.jobs.map (·.id)).Nodup
  attempts : outcome ≠ .failed → ∃ row ∈ db.jobs.attempts, row.jobId = job.id ∧ row.status = .succeeded

variable {db : LoopDb} {job : Job}

theorem completed_of_billed {billed : LoopDb} (dispatched : Dispatched db job attempt)
    (outcome : ControlStatus) (result : AttemptResult)
    (isBilled : Billed (completeIn db attempt (attemptOutcome outcome) result) billed) :
    AttemptCompleted billed job outcome where
  found := by
    have sameJobs := isBilled.jobs
    rw [JobsDb.findJob, sameJobs]
    exact dispatched.found
  uniqueJobs := by
    rw [isBilled.jobs]
    exact dispatched.uniqueJobs
  attempts := by
    intro succeeded
    have written := mem_map_of_mem (f := fun row : JobAttempt =>
      if (Jobs.AttemptUpdate.completed attempt.id (attemptOutcome outcome).status result
        (attemptOutcome outcome).status_final).selects row then
        (Jobs.AttemptUpdate.completed attempt.id (attemptOutcome outcome).status result
          (attemptOutcome outcome).status_final).changes db.jobs.now row else row)
      dispatched.member
    have listed := mem_map_of_mem (f := fun row : JobAttempt => (row.id, row.jobId, row.status)) written
    have stays := isBilled.attempts.symm ▸ listed
    obtain ⟨kept, present, same⟩ := mem_map.mp stays
    simp only [Prod.mk.injEq] at same
    refine ⟨kept, present, ?_, ?_⟩
    · rw [same.2.1]
      split
      · exact dispatched.ofJob
      · exact dispatched.ofJob
    · rw [same.2.2, if_pos (by simp [Jobs.AttemptUpdate.selects, dispatched.running])]
      simp [Jobs.AttemptUpdate.changes, attemptOutcome, succeeded, Jobs.Outcome.status]

theorem alone_onJobs_snd {β : Type} (call : JobCall α) (value : α → β) (db : LoopDb) :
    ((onJobs call >>= fun found => (.ret (value found) : LoopCall β)).alone db).2.jobs = (call.alone db.jobs).2 := by
  rw [alone_bind_ret, alone_onJobs]

variable {outcome : ControlStatus}

theorem applyOutcome_fails (result : HarnessResult) (settled : settles job attempt outcome = true)
    (unsuccessful : outcome ≠ .success) : applyOutcome job attempt result outcome =
      (onJobs (Jobs.markJobFailed job.id result.error) >>= fun _ => .ret ()) := by
  cases outcome with
  | success => exact absurd rfl unsuccessful
  | waiting => cases settled
  | failed =>
    have noRetry : retryDelay job attempt = none := by simpa [settles] using settled
    simp only [applyOutcome, reduceCtorEq, false_and, ↓reduceIte, noRetry]
    rfl
  | prepared =>
    simp only [settles, Bool.and_eq_true, Bool.not_eq_true', Option.isNone_iff_eq_none] at settled
    obtain ⟨unstaged, noRetry⟩ := settled
    simp only [applyOutcome, unstaged, Bool.false_eq_true, and_false, ↓reduceIte, noRetry]
    rfl

theorem applyOutcome_settles (completed : AttemptCompleted db job outcome)
    (isActive : job.phase = .active) (result : HarnessResult) (settled : settles job attempt outcome = true) :
    decision ((applyOutcome job attempt result outcome).alone db).2.jobs job.id =
      some (settledDecision job outcome) := by
  have isOpen : job.phase.terminal = false := by
    rw [isActive]
    rfl
  by_cases successful : outcome = .success
  · subst successful
    obtain ⟨row, member, ofJob, succeeded⟩ := completed.attempts (by decide)
    have done := markJobDone_decision completed.found isActive member ofJob succeeded
    change _ = some (doneDecision job)
    rw [← done]
    exact congrArg (decision · job.id) (alone_onJobs_snd _ _ db)
  · have failed := markJobFailed_decision completed.found isOpen result.error
    have cancels : settledDecision job outcome = { decisionOf job with phase := .cancelled } := by
      cases outcome with
      | success => exact absurd rfl successful
      | _ => rfl
    rw [applyOutcome_fails result settled successful, cancels, ← failed]
    exact congrArg (decision · job.id) (alone_onJobs_snd _ (fun _ => ()) db)

variable {row : Job}

theorem requeued_alone (found : db.jobs.findJob job.id = some row)
    (deferUntil : Option (Option Timestamp)) (reason : Option String) :
    ((onJobs (Jobs.requeueReady job.id "orchestrator" deferUntil reason) >>= fun _ =>
      (.ret () : LoopCall Unit)).alone db).2.jobs.phaseOf job.id = some .ready := by
  rw [alone_onJobs_snd _ (fun _ => ()) db]
  exact requeueReady_phase found _ _ _

theorem staged_found {jobId : JobId} (found : db.jobs.findJob jobId = some row) :
    ∃ row, (LoopStatement.effect (.unstage jobId)
      (LoopStatement.effect (.promoteChildren jobId) db)).jobs.findJob jobId = some row := by
  rw [exists_findJob_iff, statement_ids, statement_ids, ← exists_findJob_iff]
  exact ⟨row, found⟩

theorem applyOutcome_requeues (isFound : db.jobs.findJob job.id = some row) (result : HarnessResult)
    (unsettled : settles job attempt outcome = false) :
    ((applyOutcome job attempt result outcome).alone db).2.jobs.phaseOf job.id = some .ready := by
  by_cases staged : outcome = .prepared ∧ job.hints.staged = true
  · obtain ⟨row, found⟩ := staged_found isFound
    simp only [applyOutcome, staged, and_self, ↓reduceIte, alone_perform_bind]
    exact requeued_alone found none _
  · cases outcome with
    | success => cases unsettled
    | waiting =>
      simp only [applyOutcome, reduceCtorEq, false_and, ↓reduceIte, select, alone_perform_bind]
      exact requeued_alone isFound _ _
    | failed =>
      simp only [settles] at unsettled
      cases delay : retryDelay job attempt with
      | none => simp [delay] at unsettled
      | some delay' =>
        simp only [applyOutcome, reduceCtorEq, false_and, ↓reduceIte, delay, select, alone_perform_bind]
        exact requeued_alone isFound _ _
    | prepared =>
      have unstaged : job.hints.staged = false := by simpa using staged
      cases delay : retryDelay job attempt with
      | none => simp [settles, delay, unstaged] at unsettled
      | some delay' =>
        simp only [applyOutcome, unstaged, Bool.false_eq_true, and_false, ↓reduceIte, delay, select, alone_perform_bind]
        exact requeued_alone isFound _ _

variable (session : Nat) (transactionId : String)

def finalizedLive (db : LoopDb) (job : Job) (attempt : JobAttempt) (result : HarnessResult) : LoopDb :=
  ((completeAndFinalize assemble toLowerCase session transactionId job attempt result).alone db).2

def finalizedByRecovery (db : LoopDb) (job : Job) (log : CompletionLog) : LoopDb :=
  ((sweepCompletedAttempt assemble toLowerCase session transactionId job.id log).alone db).2

theorem finalizedLive_billed {listed : JobAttempt} (member : listed ∈ db.jobs.attempts)
    (isAttempt : listed.id = attempt.id) (running : listed.status = .running) (result : HarnessResult) :
    ∃ billed, Billed (completeIn db attempt
        (attemptOutcome (resolveOrchestrationOutcome result.success result.control)) result.stored) billed ∧
      finalizedLive assemble toLowerCase session transactionId db job attempt result = ((applyOutcome job attempt result
          (resolveOrchestrationOutcome result.success result.control)).alone billed).2 := by
  let outcome := resolveOrchestrationOutcome result.success result.control
  obtain ⟨row, isCompleted⟩ := completeAttempt_alone member running (attemptOutcome outcome) result.stored
  have completes : (onJobs (Jobs.completeAttempt attempt.id (attemptOutcome outcome) result.stored)).alone db =
        (.ok (some row), completeIn db attempt (attemptOutcome outcome) result.stored) := by
    rw [alone_onJobs, ← isAttempt, isCompleted, completeIn, completion, completion, isAttempt]
  obtain ⟨billed, isBilled, rest⟩ := billing_alone assemble toLowerCase session transactionId job
    row (applyOutcome job attempt result outcome)
    (completeIn db attempt (attemptOutcome outcome) result.stored)
  refine ⟨billed, isBilled, ?_⟩
  rw [← rest, finalizedLive]
  change ((onJobs (Jobs.completeAttempt attempt.id (attemptOutcome outcome) result.stored) >>= _).alone db).2 = _
  rw [alone_bind, completes]
  rfl

theorem finalizedLive_eq (dispatched : Dispatched db job attempt) (result : HarnessResult) :
    ∃ completed, AttemptCompleted completed job (resolveOrchestrationOutcome result.success result.control) ∧
      finalizedLive assemble toLowerCase session transactionId db job attempt result = ((applyOutcome job attempt result
          (resolveOrchestrationOutcome result.success result.control)).alone completed).2 := by
  obtain ⟨billed, isBilled, same⟩ := finalizedLive_billed assemble toLowerCase session transactionId
    dispatched.member rfl dispatched.running result
  exact ⟨billed, completed_of_billed dispatched _ _ isBilled, same⟩

def dropGates (job : Job) (outcome : ControlStatus) : LoopCall Unit := do
  onJobs (Jobs.deleteGates [job.id])
  if outcome = .waiting then return () else closeRootOf job.parentId

variable {log : CompletionLog}

theorem recovery_eq (dispatched : Dispatched db job attempt) (sameAttempt : log.attemptId = attempt.id) :
    ∃ completed, AttemptCompleted completed job log.outcome ∧
      finalizedByRecovery assemble toLowerCase session transactionId db job log =
        ((closeRecovered job.id log.outcome log.errorMessage >>= fun _ =>
          dropGates job log.outcome).alone completed).2 := by
  let stored : AttemptResult := {
    exitCode := some (log.exitCode.getD 1), durationMs := log.durationMs
    errorMessage := log.errorMessage }
  obtain ⟨row, isCompleted⟩ := completeAttempt_alone dispatched.member dispatched.running
    (attemptOutcome log.outcome) stored
  let afterwards := completeIn db attempt (attemptOutcome log.outcome) stored
  obtain ⟨billed, isBilled, rest⟩ := billing_alone assemble toLowerCase session transactionId job
    row (closeRecovered job.id log.outcome log.errorMessage >>= fun _ =>
      dropGates job log.outcome) afterwards
  refine ⟨billed, completed_of_billed dispatched log.outcome stored isBilled, ?_⟩
  have found : afterwards.jobs.findJob job.id = some job := dispatched.found
  rw [← rest, finalizedByRecovery, sweepCompletedAttempt, alone_bind, alone_sweeping, alone_onJobs, sameAttempt]
  rw [show (Jobs.completeAttempt attempt.id (attemptOutcome log.outcome) stored).alone db.jobs = _ from isCompleted]
  have read : (onJobs (Jobs.findById job.id)).alone afterwards = (.ok (some job), afterwards) := by
    rw [alone_onJobs]
    change (Except.ok (afterwards.jobs.findJob job.id), afterwards) = _
    rw [found]
  simp only [alone_judging]
  change (Call.alone _ afterwards).2 = _
  rw [alone_bind, read]
  simp only [billJob, bind_assoc]
  rfl

theorem closeRecovered_decision (completed : AttemptCompleted db job outcome)
    (isActive : job.phase = .active) (closes : outcome ≠ .waiting) (errorMessage : Option String) :
    decision ((closeRecovered job.id outcome errorMessage).alone db).2.jobs job.id =
      some (settledDecision job outcome) := by
  have isOpen : job.phase.terminal = false := by
    rw [isActive]
    rfl
  have failed : ∀ reason, decision ((onJobs (Jobs.markJobFailed job.id reason) >>= fun _ =>
      (.ret () : LoopCall Unit)).alone db).2.jobs job.id = some { decisionOf job with phase := .cancelled } := by
    intro reason
    rw [← markJobFailed_decision completed.found isOpen reason]
    exact congrArg (decision · job.id) (alone_onJobs_snd _ _ db)
  cases outcome with
  | waiting => exact absurd rfl closes
  | success =>
    obtain ⟨row, member, ofJob, succeeded⟩ := completed.attempts (by decide)
    change _ = some (doneDecision job)
    rw [← markJobDone_decision completed.found isActive member ofJob succeeded]
    exact congrArg (decision · job.id) (alone_onJobs_snd _ _ db)
  | failed | prepared => exact failed _

theorem settled_phase (job : Job) (outcome : ControlStatus) :
    (settledDecision job outcome).phase ≠ .backlog ∧ (settledDecision job outcome).phase ≠ .active ∧
      (settledDecision job outcome).phase ≠ .ready := by
  cases outcome with
  | success =>
    simp only [settledDecision, doneDecision]
    split <;> simp
  | _ => simp [settledDecision]

theorem recovery_decision (dispatched : Dispatched db job attempt) (sameAttempt : log.attemptId = attempt.id) :
    decision (finalizedByRecovery assemble toLowerCase session transactionId db job log).jobs job.id =
      some (if log.outcome = .waiting then decisionOf job else settledDecision job log.outcome) := by
  obtain ⟨completed, isCompleted, same⟩ := recovery_eq assemble toLowerCase session transactionId dispatched sameAttempt
  rw [same]
  by_cases waiting : log.outcome = .waiting
  · rw [if_pos waiting]
    simp only [waiting, closeRecovered]
    change decision ((onJobs (Jobs.deleteGates [job.id]) >>= fun _ =>
      (.ret () : LoopCall Unit)).alone completed).2.jobs job.id = _
    rw [alone_onJobs_snd _ (fun _ => ()) completed]
    change (completed.jobs.findJob job.id).map decisionOf = _
    rw [isCompleted.found]
    rfl
  · rw [if_neg waiting]
    have closed : (closeRecovered job.id log.outcome log.errorMessage).Ends
        (fun _ reached => decision reached.jobs job.id = some (settledDecision job log.outcome))
        completed :=
      closeRecovered_decision isCompleted dispatched.isActive waiting log.errorMessage
    have whole : (closeRecovered job.id log.outcome log.errorMessage >>= fun _ =>
        dropGates job log.outcome).Ends
        (fun _ reached => decision reached.jobs job.id = some (settledDecision job log.outcome))
        completed := by
      refine closed.bind ?_ fun _ _ kept => kept
      intro _ reached kept
      obtain ⟨row, found, isDecided⟩ := Option.map_eq_some_iff.mp kept
      have settled : row.phase ≠ .backlog := by
        have phase := (settled_phase job log.outcome).1
        rw [← isDecided] at phase
        exact phase
      let ungated : LoopDb :=
        { reached with jobs := JobStatement.effect (.deleteGates [job.id]) reached.jobs }
      have stillFound : ungated.jobs.findJob job.id = some row := found
      have spared := closeRootOf_spares dispatched.notOwnParent settled stillFound
      rw [Ends, dropGates, alone_bind, alone_onJobs]
      simp only [if_neg waiting]
      change decision ((closeRootOf job.parentId).alone ungated).2.jobs job.id = _
      rw [decision, spared, Option.map_some, isDecided]
    exact whole

inductive JobSweep where
  | passTime (elapsed : Nat)
  | orphaned (config : RecoveryConfig) (readings : Readings)
  | watchdog (config : RecoveryConfig) (readings : Readings) (kind : Watchdog)
  | terminated (config : RecoveryConfig)
  | completed (session : Nat) (newId : AttemptId → String) (inFlight : JobId → Option Timestamp)
      (now : Timestamp)

def JobSweep.call (jobId : JobId) : JobSweep → RecoveryCall Unit
  | .passTime elapsed => live (onJobs (.perform (.passTime elapsed) fun _ => ()))
  | .orphaned config readings => do
    let orphanedJobs ← sweeping (select (LoopDb.orphanedJobs readings))
    Call.forEach (orphanedJobs.filter (· == jobId)) fun jobId =>
      (sweeping (recoverOrphanedJob (staleCutoff config readings) jobId)).handle fun _ => .ret ()
  | .watchdog config readings kind => do
    let candidates ← sweeping (select fun db => db.watched config readings kind)
    Call.forEach (candidates.filter (·.jobId == jobId)) (kind.recover config readings)
  | .terminated config => do
    let stuckJobs ← sweeping (select fun db => db.stuckJobs config)
    Call.forEach (stuckJobs.filter (·.jobId == jobId)) fun stuckJob =>
      (recoverStuckJob stuckJob).handle fun _ => .ret ()
  | .completed session newId inFlight now => do
    let completedAttempts ← sweeping (select LoopDb.completedAttempts)
    Call.forEach (completedAttempts.filter (·.1 == jobId))
      (recoverCompleted assemble toLowerCase session newId inFlight now)

/-- The row of the job is the only one of its id, and no active one. -/
def Rests (jobId : JobId) (row : Job) (db : LoopDb) : Prop :=
  db.jobs.findJob jobId = some row ∧ ∀ other ∈ db.jobs.jobs, other.id = jobId → other = row

theorem sweep_rests {jobId : JobId} (idle : row.phase ≠ .active) (sweep : JobSweep) (db : LoopDb)
    (rests : Rests jobId row db) : Rests jobId row ((sweep.call assemble toLowerCase jobId).alone db).2 := by
  obtain ⟨found, only⟩ := rests
  have skip : ∀ {β : Type} (query : LoopDb → List β) (keep : β → Bool)
      (body : β → RecoveryCall Unit), (query db).filter keep = [] →
      Rests jobId row ((sweeping (select query) >>= fun entries =>
        Call.forEach (entries.filter keep) body).alone db).2 := by
    intro β query keep body none
    rw [alone_bind, alone_sweeping]
    change Rests jobId row ((Call.forEach ((query db).filter keep) body).alone db).2
    rw [none]
    exact ⟨found, only⟩
  cases sweep with
  | passTime elapsed =>
    rw [JobSweep.call, alone_live, alone_onJobs]
    exact ⟨found, only⟩
  | orphaned config readings =>
    refine skip (LoopDb.orphanedJobs readings) (· == jobId) _ ?_
    rw [filter_eq_nil_iff]
    intro orphan member isJob
    obtain ⟨other, present, rfl⟩ := mem_map.mp member
    obtain ⟨inTable, selected⟩ := mem_filter.mp present
    rw [Bool.and_eq_true, beq_iff_eq] at selected
    rw [only other inTable (by simpa using isJob)] at selected
    exact idle selected.1
  | watchdog config readings kind =>
    refine skip (fun db => db.watched config readings kind) (·.jobId == jobId) _ ?_
    rw [filter_eq_nil_iff]
    intro candidate member isJob
    obtain ⟨running, _⟩ := mem_filter.mp member
    obtain ⟨attempt, _, selected⟩ := mem_filterMap.mp running
    split at selected
    · cases selected
    · next job isFound =>
      split at selected
      · next active =>
        simp only [Option.some.injEq] at selected
        subst selected
        have sameJob : job.id = jobId := by simpa using isJob
        have inTable := mem_of_find?_eq_some isFound
        rw [Bool.and_eq_true, beq_iff_eq, beq_iff_eq, only job inTable sameJob] at active
        exact idle active.2
      · cases selected
  | terminated config =>
    refine skip (fun db => db.stuckJobs config) (·.jobId == jobId) _ ?_
    rw [filter_eq_nil_iff]
    intro stuckJob member isJob
    obtain ⟨other, inTable, selected⟩ := mem_filterMap.mp member
    split at selected
    · cases selected
    · split at selected
      · next active =>
        simp only [Option.some.injEq] at selected
        subst selected
        rw [only other inTable (by simpa using isJob)] at active
        simp only [Bool.and_eq_true, beq_iff_eq] at active
        exact idle active.1.1
      · cases selected
  | completed session newId inFlight now =>
    refine skip LoopDb.completedAttempts (·.1 == jobId) _ ?_
    rw [filter_eq_nil_iff]
    intro entry member isJob
    obtain ⟨attempt, _, selected⟩ := mem_filterMap.mp member
    split at selected
    · next active =>
      obtain ⟨log, _, rfl⟩ := Option.map_eq_some_iff.mp selected
      have sameJob : attempt.jobId = jobId := by simpa using isJob
      rw [Bool.and_eq_true, beq_iff_eq, beq_iff_eq, sameJob, JobsDb.phaseOf, found,
        Option.map_some, Option.some.injEq] at active
      exact idle active.2
    · cases selected

theorem recovery_rests (dispatched : Dispatched db job attempt) (sameAttempt : log.attemptId = attempt.id)
    (found : (finalizedByRecovery assemble toLowerCase session transactionId db job log).jobs.findJob job.id =
      some row) : Rests job.id row (finalizedByRecovery assemble toLowerCase session transactionId db job log) := by
  refine ⟨found, fun other member sameId => ?_⟩
  obtain ⟨completed, isCompleted, same⟩ := recovery_eq assemble toLowerCase session transactionId dispatched sameAttempt
  have distinct : ((finalizedByRecovery assemble toLowerCase session transactionId db job
      log).jobs.jobs.map (·.id)).Nodup := by
    rw [same, call_ids]
    exact isCompleted.uniqueJobs
  exact inj_on_of_nodup_map distinct member (mem_of_find?_eq_some found) (sameId.trans (Jobs.findJob_id found).symm)

theorem settledDecision_eq_iff (job : Job) (first second : ControlStatus) :
    settledDecision job first = settledDecision job second ↔ (first = .success ↔ second = .success) := by
  have differs : ∀ outcome, outcome ≠ .success → settledDecision job .success ≠ settledDecision job outcome := by
    intro outcome unsuccessful same
    have phase : (doneDecision job).phase = .cancelled := by
      have cancels : (settledDecision job outcome).phase = .cancelled := by
        cases outcome with
        | success => exact absurd rfl unsuccessful
        | _ => rfl
      rw [← cancels, ← same]
      rfl
    simp only [doneDecision] at phase
    split at phase <;> cases phase
  cases first with
  | success =>
    by_cases successful : second = .success
    · simp [successful]
    · simp [successful, differs second successful]
  | _ =>
    cases second with
    | success => simpa using (differs _ (by simp)).symm
    | _ => simp [settledDecision]

/-- Recovering an attempt from its completion log, with any sweeps after it, decides about
the job as finalizing the worker's result does exactly when that would not hand the job out
again, and the log, which need not hold what the result says, does not tell it otherwise. -/
theorem recovery_agrees_iff {db : LoopDb} {job : Job} {attempt : JobAttempt} {log : CompletionLog}
    (result : HarnessResult) (dispatched : Dispatched db job attempt) (ofAttempt : log.attemptId = attempt.id) :
    (∀ sweeps : List JobSweep, decision (afterAll (JobSweep.call assemble toLowerCase job.id) sweeps
          (finalizedByRecovery assemble toLowerCase session transactionId db job log)).jobs job.id =
        decision (finalizedLive assemble toLowerCase session transactionId db job attempt result).jobs job.id) ↔
      settles job attempt (resolveOrchestrationOutcome result.success result.control) = true ∧
        log.outcome ≠ .waiting ∧
        (log.outcome = .success ↔ resolveOrchestrationOutcome result.success result.control = .success) := by
  obtain ⟨completed, isCompleted, same⟩ := finalizedLive_eq assemble toLowerCase session transactionId dispatched result
  generalize resolveOrchestrationOutcome result.success result.control = outcome at isCompleted same ⊢
  have recovered := recovery_decision assemble toLowerCase session transactionId dispatched ofAttempt
  rw [same]
  constructor
  · intro agrees
    have decided : decision ((applyOutcome job attempt result outcome).alone completed).2.jobs job.id =
        decision (finalizedByRecovery assemble toLowerCase session transactionId db job log).jobs job.id :=
      (agrees []).symm
    rw [recovered] at decided
    have settled : settles job attempt outcome = true := by
      by_contra unsettled
      have requeued := applyOutcome_requeues isCompleted.found result (Bool.eq_false_of_not_eq_true unsettled)
      obtain ⟨row, found, isDecided⟩ := Option.map_eq_some_iff.mp decided
      rw [JobsDb.phaseOf, found, Option.map_some, Option.some.injEq] at requeued
      have phase : (decisionOf row).phase = .ready := requeued
      rw [isDecided] at phase
      split at phase
      · rw [decisionOf, dispatched.isActive] at phase
        cases phase
      · exact (settled_phase job log.outcome).2.2 phase
    rw [applyOutcome_settles isCompleted dispatched.isActive result settled, Option.some.injEq] at decided
    have waits : log.outcome ≠ .waiting := by
      intro waiting
      rw [if_pos waiting] at decided
      refine (settled_phase job outcome).2.1 ?_
      rw [decided, decisionOf, dispatched.isActive]
    rw [if_neg waits, settledDecision_eq_iff] at decided
    exact ⟨settled, waits, decided.symm⟩
  · rintro ⟨settled, waits, sameVerdict⟩ sweeps
    rw [if_neg waits] at recovered
    obtain ⟨row, found, isDecided⟩ := Option.map_eq_some_iff.mp recovered
    have idle : row.phase ≠ .active := by
      have phase := (settled_phase job log.outcome).2.1
      rw [← isDecided] at phase
      exact phase
    have rests := afterAll_invariant (sweep_rests assemble toLowerCase idle) sweeps
      (recovery_rests assemble toLowerCase session transactionId dispatched ofAttempt found)
    rw [applyOutcome_settles isCompleted dispatched.isActive result settled, decision, rests.1,
      Option.map_some, isDecided, (settledDecision_eq_iff job _ _).mpr sameVerdict]

end

def runningJob : Job := { id := "job", projectId := "proj", phase := .active }

def runningAttempt : JobAttempt := { id := 0, jobId := "job", attemptNumber := 1, status := .running }

def runningStore : LoopDb where
  jobs := { jobs := [runningJob], attempts := [runningAttempt], nextAttempt := 1 }

theorem runningStore_dispatched : Dispatched runningStore runningJob runningAttempt where
  found := rfl
  isActive := rfl
  uniqueJobs := by decide
  notOwnParent := by decide
  member := mem_singleton.mpr rfl
  ofJob := rfl
  running := rfl

def unpriced : AssembleReceipt :=
  fun _ _ _ _ => none

/-- What a worker logs when it exits with code 0: it never logs the result. -/
def exitedCleanly : CompletionLog := ⟨runningAttempt.id, some 0, some 1200, none⟩

theorem recovered_success_agrees :
    decision (afterAll (JobSweep.call unpriced id "job") [.passTime 31000, .terminated {}]
        (finalizedByRecovery unpriced id 0 "bt_1" runningStore runningJob exitedCleanly)).jobs "job" =
      decision (finalizedLive unpriced id 0 "bt_1" runningStore runningJob runningAttempt
        { success := true, exitCode := 0 }).jobs "job" :=
  (recovery_agrees_iff unpriced id 0 "bt_1" _ runningStore_dispatched rfl).mpr
    ⟨rfl, by decide, by decide⟩ _

/-- A worker that exits cleanly and reports a failure has its job cancelled live; recovered
from the log, the job is done. -/
theorem recovered_failure_done : ¬ ∀ (db : LoopDb) (job : Job) (attempt : JobAttempt) (log : CompletionLog)
      (result : HarnessResult), Dispatched db job attempt → log.attemptId = attempt.id →
      log.exitCode = some result.exitCode → ∀ sweeps : List JobSweep,
        decision (afterAll (JobSweep.call unpriced id job.id) sweeps
            (finalizedByRecovery unpriced id 0 "bt_1" db job log)).jobs job.id =
          decision (finalizedLive unpriced id 0 "bt_1" db job attempt result).jobs job.id := by
  intro agrees
  have decided := agrees runningStore runningJob runningAttempt exitedCleanly
    { success := true, exitCode := 0, control := some .failed } runningStore_dispatched rfl rfl []
  revert decided
  decide +kernel

end EveHorizon.Loop
