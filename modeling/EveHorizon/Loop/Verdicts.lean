import EveHorizon.Library.Json
import EveHorizon.Loop.Charging
import EveHorizon.Loop.RecoveryInventory

/-!
# The verdicts on an attempt and its job

What the end of a dispatch writes to the attempt's row against what it makes of the job.
-/

namespace EveHorizon.Loop

open Interleaving List Call Option
open Jobs (JobId AttemptId Job JobAttempt JobsDb JobStatement JobUpdate AttemptStatus Phase ClosedBy)

def controlStatus? (status : Text) : Option ControlStatus :=
  if status = "waiting".toList then some .waiting
  else if status = "success".toList then some .success
  else if status = "failed".toList then some .failed
  else if status = "prepared".toList then some .prepared
  else none

/-- The status of `extractEveControl`. No letter outside ASCII has one of the words' as its
lower case. -/
def extractEveControl (resultJson : Json) : Option ControlStatus :=
  match ((Json.Member.json resultJson).get "eve".toList).get "status".toList with
  | .json (.string status) => controlStatus? (status.map Char.toLower)
  | _ => none

def HarnessResult.reading (result : HarnessResult) (resultJson : Option Json) : HarnessResult :=
  { result with control := resultJson.bind extractEveControl }

structure HasStatus (db : JobsDb) (attemptId : AttemptId) (status : AttemptStatus) : Prop where
  listed : ∃ row ∈ db.attempts, row.id = attemptId
  all : ∀ row ∈ db.attempts, row.id = attemptId → row.status = status

def leavesEnded (attemptId : AttemptId) : LoopStatement → Prop
  | .jobs (.updateAttempts (.startedPending ..)) => False
  | .jobs (.updateAttempts (.ended other _ _ _)) => other ≠ attemptId
  | .jobs (.insertAttempt _) => False
  | _ => True

section

variable {α : Type} {db before after : JobsDb} {attemptId : AttemptId}
  {status later : AttemptStatus} {jobId : JobId} {row : Job}

theorem HasStatus.unique (first : HasStatus db attemptId status) (second : HasStatus db attemptId later) :
    status = later := by
  obtain ⟨row, member, named⟩ := first.listed
  exact (first.all row member named).symm.trans (second.all row member named)

theorem HasStatus.updateWhere {selected : JobAttempt → Bool} {change : JobAttempt → JobAttempt}
    (ids : ∀ row, (change row).id = row.id) (becomes : ∀ row, row.id = attemptId → row.status = status →
      (if selected row then change row else row).status = later)
    (updated : after.attempts = Table.updateWhere selected change before.attempts)
    (has : HasStatus before attemptId status) : HasStatus after attemptId later := by
  have same (row : JobAttempt) : (if selected row then change row else row).id = row.id := by
    split
    · exact ids row
    · rfl
  constructor
  · obtain ⟨row, member, named⟩ := has.listed
    exact ⟨_, updated ▸ mem_map_of_mem member, (same row).trans named⟩
  · intro row member named
    rw [updated] at member
    obtain ⟨old, present, rfl⟩ := mem_map.mp member
    have isOld := (same old).symm.trans named
    exact becomes old isOld (has.all old present isOld)

theorem HasStatus.kept {db : LoopDb} {stmt : LoopStatement}
    (leaves : leavesEnded attemptId stmt) (ended : status ≠ .running) (has : HasStatus db.jobs attemptId status) :
    HasStatus (stmt.effect db).jobs attemptId status := by
  cases stmt with
  | jobs stmt =>
    cases stmt with
    | updateAttempts update =>
      refine has.updateWhere (attemptUpdate_changes_id db.jobs.now update) ?_ rfl
      intro row named isStatus
      split
      · next chosen =>
        cases update with
        | startedPending => cases leaves
        | ended other =>
          simp only [Jobs.AttemptUpdate.selects, beq_iff_eq] at chosen
          exact absurd (chosen.symm.trans named) leaves
        | submitted | completed =>
          simp_all [Jobs.AttemptUpdate.selects, Jobs.AttemptUpdate.changes]
      · exact isStatus
    | insertAttempt new => cases leaves
    | _ => exact ⟨has.listed, has.all⟩
  | writeReceipt written receipt =>
    refine has.updateWhere (fun row => (rfl : (receipt.columns row).id = row.id)) ?_ rfl
    intro row _ isStatus
    split
    · exact isStatus
    · exact isStatus
  | _ => exact ⟨has.listed, has.all⟩

theorem leavesEnded_of_writes {call : Jobs.JobCall α} {writes : Jobs.Writes} (issues : call.Writes writes)
    (submits : ∀ update, writes.attempts update → ∃ submitted summary, update = .submitted submitted summary)
    (noInsert : ∀ jobId, ¬ writes.inserts jobId) :
    call.Issues fun stmt => leavesEnded attemptId (.jobs stmt) := by
  refine Issues.imp issues fun stmt allowed => ?_
  cases stmt with
  | updateAttempts update =>
    obtain ⟨_, _, rfl⟩ := submits update allowed
    trivial
  | insertAttempt new => exact absurd allowed (noInsert new.jobId)
  | _ => trivial

section

variable (ended : status ≠ .running)
include ended

theorem closeJobAndAttempt_leaves (reason : String) (closed : AttemptStatus) (isFinal : closed.live = false)
    (disposition : Jobs.FailureDisposition) :
    (Jobs.closeJobAndAttempt jobId reason closed isFinal disposition).IssuesWhile
      (fun db => HasStatus db attemptId status) fun stmt => leavesEnded attemptId (.jobs stmt) := by
  refine issuesWhile_perform_bind trivial fun store has => ?_
  cases running : store.latestAttempt jobId (· == .running) with
  | none =>
    exact ⟨trivial, fun _ _ => ⟨trivial, fun _ _ => ⟨trivial, fun _ _ => trivial⟩⟩⟩
  | some latest =>
    obtain ⟨member, selected⟩ := mem_filter.mp (Table.latest_mem _ running)
    have other : latest.id ≠ attemptId := by
      intro named
      rw [Bool.and_eq_true, beq_iff_eq, has.all latest member named] at selected
      exact ended (by simpa using selected.2)
    exact ⟨other, fun _ _ => ⟨trivial, fun _ _ => ⟨trivial, fun _ _ => ⟨trivial, fun _ _ => trivial⟩⟩⟩⟩

theorem markJobFailed_leaves (reason : Option String) :
    (Jobs.markJobFailed jobId reason).IssuesWhile (fun db => HasStatus db attemptId status)
      fun stmt => leavesEnded attemptId (.jobs stmt) := by
  refine IssuesWhile.found trivial trivial fun job => ?_
  dsimp only
  split
  · trivial
  · refine (closeJobAndAttempt_leaves ended _ _ _ _).bind fun closed => ?_
    cases closed with
    | none => trivial
    | some updatedJob =>
      refine IssuesWhile.bind (issuesWhile_perform trivial) fun cancelled => ?_
      split
      · exact ⟨trivial, fun _ _ => ⟨trivial, fun _ _ => ⟨trivial, fun _ _ => trivial⟩⟩⟩
      · exact ⟨trivial, fun _ _ => trivial⟩

theorem cancelJob_leaves (reason : Option String) :
    (Jobs.cancelJob jobId reason).IssuesWhile (fun db => HasStatus db attemptId status)
      fun stmt => leavesEnded attemptId (.jobs stmt) := by
  refine IssuesWhile.found trivial trivial fun job => ?_
  dsimp only
  split
  · trivial
  · refine (closeJobAndAttempt_leaves ended _ _ _ _).bind fun closed => ?_
    cases closed with
    | none => trivial
    | some updatedJob => exact ⟨trivial, fun _ _ => trivial⟩

theorem permits_leaving : RecoveryPermits (fun db => HasStatus db attemptId status) (leavesEnded attemptId) where
  requeueReady jobId actor deferUntil reason :=
    (leavesEnded_of_writes (Jobs.requeueReady_writes jobId actor deferUntil reason) (fun _ => False.elim) fun _ =>
      id).issuesWhile _
  markJobDone jobId summary :=
    (leavesEnded_of_writes (Jobs.markJobDone_writes jobId summary) (fun _ submits => submits) fun _ => id).issuesWhile _
  cancelJob _ := cancelJob_leaves ended
  markJobFailed _ := markJobFailed_leaves ended

end

theorem HasStatus.alone {db : LoopDb} {call : LoopCall α}
    (leaves : LoopKeeps (fun db => HasStatus db attemptId status) (leavesEnded attemptId) call)
    (ended : status ≠ .running) (has : HasStatus db.jobs attemptId status) :
    HasStatus (call.alone db).2.jobs attemptId status :=
  leaves.alone_keeps (fun _ isLeft _ held => held.kept isLeft ended) has

end

section

variable {db : JobsDb} {jobId : JobId} {row : Job}

/-- A phase stays while a job is closed as done, or the job is done or in review, but not one
that is ready. -/
def Concluded (before after : Phase) : Prop :=
  after = before ∨ before ≠ .ready ∧ (after = .done ∨ after = .review)

theorem markJobDone_concluded (found : db.findJob jobId = some row) (summary : Option String) :
    ∃ reached, ((Jobs.markJobDone jobId summary).alone db).2.phaseOf jobId = some reached ∧
      Concluded row.phase reached := by
  let concluded (store : JobsDb) : Prop :=
    ∃ reached, store.phaseOf jobId = some reached ∧ Concluded row.phase reached
  have kept : ∀ stmt, (Jobs.doneWrites jobId).allow stmt → ∀ store, concluded store →
      concluded (Statement.effect stmt store) := by
    intro stmt allowed store held
    cases stmt with
    | updateJobs update =>
      obtain ⟨reached, isPhase, so⟩ := held
      obtain ⟨current, isCurrent, rfl⟩ := map_eq_some_iff.mp isPhase
      have after := Jobs.phaseOf_updateJobs store update jobId
      rw [isCurrent, map_some] at after
      refine ⟨_, after, ?_⟩
      split
      · next chosen =>
        have left : current.phase ≠ .ready := by
          rcases allowed with rfl | ⟨source, valid, rfl⟩
          · simp only [JobUpdate.selects, Bool.and_eq_true, beq_iff_eq] at chosen
            rw [chosen.2]
            decide
          · simp only [JobUpdate.selects, Bool.and_eq_true, beq_iff_eq] at chosen
            rw [chosen.2]
            rintro rfl
            cases valid
        have final : (update.changes store.now current).phase = .done ∨
            (update.changes store.now current).phase = .review := by
          rcases allowed with rfl | ⟨source, valid, rfl⟩
          · exact .inr rfl
          · exact .inl rfl
        refine .inr ⟨?_, final⟩
        rcases so with same | ⟨other, _⟩
        · exact same ▸ left
        · exact other
      · exact so
    | insertAttempt new => exact absurd allowed id
    | _ => exact held
  have start : concluded db := ⟨row.phase, by rw [JobsDb.phaseOf, found]; rfl, .inl rfl⟩
  exact (Jobs.markJobDone_writes jobId summary).alone_keeps kept start

end

def RetryAllowed (job : Job) (attempt : JobAttempt) : Prop :=
  ∃ policy, job.hints.retry = some policy ∧ attempt.attemptNumber < policy.maxAttempts

def IsOpen (db : JobsDb) (jobId : JobId) : Prop :=
  ∃ phase, db.phaseOf jobId = some phase ∧ phase.terminal = false

structure VerdictsAgree (before after : JobsDb) (job : Job) (attempt : JobAttempt) : Prop where
  succeeded : HasStatus after attempt.id .succeeded → ¬ ClosedBy before after job.id
  ended : HasStatus after attempt.id .succeeded → before.phaseOf job.id = some .active →
    ∃ phase ∈ [Phase.done, .review, .ready], after.phaseOf job.id = some phase
  failed : HasStatus after attempt.id .failed → IsOpen before job.id → after.phaseOf job.id = some .cancelled ∨
      after.phaseOf job.id = some .ready ∧ RetryAllowed job attempt

def LatestSucceeded (db : JobsDb) (jobId : JobId) : Prop :=
  ((db.latestAttempt jobId fun _ => true).any (·.status == .succeeded)) = true

theorem LatestSucceeded.listed {db : JobsDb} {jobId : JobId} (latest : LatestSucceeded db jobId) :
    ∃ row ∈ db.attempts, row.jobId = jobId ∧ row.status = .succeeded := by
  rw [LatestSucceeded] at latest
  cases isLatest : db.latestAttempt jobId fun _ => true with
  | none =>
    rw [isLatest] at latest
    cases latest
  | some row =>
    rw [isLatest, any_some, beq_iff_eq] at latest
    obtain ⟨member, selected⟩ := mem_filter.mp (Table.latest_mem _ isLatest)
    exact ⟨row, member, by simpa using selected, latest⟩

/-- What an answer, or the end that another path gave the attempt, must not be. -/
structure LinedUp (db : JobsDb) (job : Job) (attempt : JobAttempt) (outcome : ControlStatus) : Prop where
  answered : HasStatus db attempt.id .running → outcome = .prepared →
    job.hints.staged = true ∨ (retryDelay job attempt).isSome = true
  succeeded : HasStatus db attempt.id .succeeded → LatestSucceeded db job.id
  failed : HasStatus db attempt.id .failed → LatestSucceeded db job.id →
    db.phaseOf job.id = some .ready ∧ RetryAllowed job attempt

structure Answered (db : JobsDb) (job : Job) (attempt : JobAttempt) : Prop where
  distinct : (db.attempts.map (·.id)).Nodup
  listed : ∃ row ∈ db.attempts, row.id = attempt.id ∧ row.jobId = job.id

section

variable {db : LoopDb} {job row : Job} {attempt : JobAttempt} {outcome : ControlStatus}
  {before after : JobsDb} {status : AttemptStatus} {phase reached : Phase}

theorem Answered.hasStatus (answered : Answered before job attempt) :
    ∃ row ∈ before.attempts, row.id = attempt.id ∧ row.jobId = job.id ∧ HasStatus before attempt.id row.status := by
  obtain ⟨row, member, named, ofJob⟩ := answered.listed
  refine ⟨row, member, named, ofJob, ⟨row, member, named⟩, fun other present same => ?_⟩
  rw [inj_on_of_nodup_map answered.distinct present member (same.trans named.symm)]

theorem retryAllowed_of_delay (delayed : (retryDelay job attempt).isSome = true) : RetryAllowed job attempt := by
  cases isPolicy : job.hints.retry with
  | none => simp [retryDelay, isPolicy] at delayed
  | some policy =>
    refine ⟨policy, isPolicy, ?_⟩
    by_contra exhausted
    simp [retryDelay, isPolicy, exhausted] at delayed

theorem verdictsAgree_iff (wasOpen : phase.terminal = false) (start : before.phaseOf job.id = some phase)
    (has : HasStatus after attempt.id status) (last : after.phaseOf job.id = some reached) :
    VerdictsAgree before after job attempt ↔ (status = .succeeded → reached ≠ .cancelled ∧
        (phase = .active → reached ∈ [Phase.done, .review, .ready])) ∧
      (status = .failed → reached = .cancelled ∨ reached = .ready ∧ RetryAllowed job attempt) := by
  constructor
  · intro agree
    constructor
    · rintro rfl
      refine ⟨?_, ?_⟩
      · rintro rfl
        exact agree.succeeded has ⟨phase, start, wasOpen, last⟩
      · rintro rfl
        obtain ⟨found, listed, isFound⟩ := agree.ended has start
        rw [last, Option.some.injEq] at isFound
        exact isFound ▸ listed
    · rintro rfl
      have verdict := agree.failed has ⟨phase, start, wasOpen⟩
      rw [last, Option.some.injEq, Option.some.injEq] at verdict
      exact verdict
  · intro ⟨succeeded, failed⟩
    constructor
    · rintro isStatus ⟨_, _, _, cancelled⟩
      rw [last, Option.some.injEq] at cancelled
      exact (succeeded (has.unique isStatus)).1 cancelled
    · intro isStatus active
      rw [start, Option.some.injEq] at active
      exact ⟨reached, (succeeded (has.unique isStatus)).2 active, last⟩
    · intro isStatus _
      rw [last, Option.some.injEq, Option.some.injEq]
      exact failed (has.unique isStatus)

theorem verdictsAgree_of_closed (closed : ¬ IsOpen before job.id) : VerdictsAgree before after job attempt where
  succeeded := by
    rintro _ ⟨phase, start, wasOpen, _⟩
    exact closed ⟨phase, start, wasOpen⟩
  ended _ active := absurd ⟨.active, active, rfl⟩ closed
  failed _ isOpen := absurd isOpen closed

theorem completeIn_status (running : HasStatus db.jobs attempt.id .running) (ending : Jobs.Outcome)
    (result : Jobs.AttemptResult) : HasStatus (completeIn db attempt ending result).jobs attempt.id ending.status := by
  refine running.updateWhere (attemptUpdate_changes_id db.jobs.now _) ?_ rfl
  intro row named isRunning
  rw [if_pos (by simp [Jobs.AttemptUpdate.selects, named, isRunning])]
  rfl

variable {billed : LoopDb}

theorem Billed.hasStatus (isBilled : Billed db billed) (has : HasStatus db.jobs attempt.id status) :
    HasStatus billed.jobs attempt.id status := by
  have tuples := isBilled.attempts
  constructor
  · obtain ⟨row, member, named⟩ := has.listed
    have listed := mem_map_of_mem (f := fun row : JobAttempt => (row.id, row.jobId, row.status)) member
    rw [← tuples] at listed
    obtain ⟨kept, present, same⟩ := mem_map.mp listed
    exact ⟨kept, present, (congrArg Prod.fst same).trans named⟩
  · intro row member named
    have listed := mem_map_of_mem (f := fun row : JobAttempt => (row.id, row.jobId, row.status)) member
    rw [tuples] at listed
    obtain ⟨old, present, same⟩ := mem_map.mp listed
    have isOld := has.all old present ((congrArg Prod.fst same).trans named)
    exact (congrArg (·.2.2) same).symm.trans isOld

theorem completeAttempt_ended {db : JobsDb} (has : HasStatus db attempt.id status) (ended : status ≠ .running)
    (ending : Jobs.Outcome) (result : Jobs.AttemptResult) :
    (Jobs.completeAttempt attempt.id ending result).alone db = (.ok none, db) := by
  let update := Jobs.AttemptUpdate.completed attempt.id ending.status result ending.status_final
  have skips : ∀ row ∈ db.attempts, update.selects row = false := by
    intro row member
    by_contra chosen
    simp only [update, Jobs.AttemptUpdate.selects, Bool.not_eq_false, Bool.and_eq_true, beq_iff_eq] at chosen
    exact ended ((has.all row member chosen.1).symm.trans chosen.2)
  have nothing : db.attempts.find? update.selects = none := find?_eq_none.mpr (by simpa using skips)
  have same : Table.updateWhere update.selects (update.changes db.now) db.attempts = db.attempts := by
    rw [Table.updateWhere]
    exact (map_congr_left fun row member => by rw [skips row member]; rfl).trans (map_id _)
  simp only [Jobs.completeAttempt, Jobs.updateAttempts, alone_perform]
  rw [Table.returning, nothing]
  exact congrArg (fun attempts => (Except.ok none, { db with attempts })) same

theorem markJobFailed_cancels {db : JobsDb} (found : db.findJob job.id = some row)
    (wasOpen : row.phase.terminal = false) (reason : Option String) :
    ((Jobs.markJobFailed job.id reason).alone db).2.phaseOf job.id = some .cancelled := by
  have decided := markJobFailed_decision found wasOpen reason
  obtain ⟨last, isLast, same⟩ := map_eq_some_iff.mp decided
  rw [JobsDb.phaseOf, isLast, map_some]
  exact congrArg (some ·.phase) same

theorem markJobDone_active {db : JobsDb} (found : db.findJob job.id = some row)
    (active : row.phase = .active) {listed : JobAttempt} (member : listed ∈ db.attempts)
    (ofJob : listed.jobId = job.id) (succeeded : listed.status = .succeeded) :
    ∃ reached ∈ [Phase.done, .review], ((Jobs.markJobDone job.id none).alone db).2.phaseOf job.id = some reached := by
  have decided := markJobDone_decision found active member ofJob succeeded
  obtain ⟨last, isLast, same⟩ := map_eq_some_iff.mp decided
  have isPhase : last.phase = (doneDecision row).phase := congrArg (·.phase) same
  refine ⟨last.phase, ?_, by rw [JobsDb.phaseOf, isLast, map_some]⟩
  rw [isPhase, doneDecision]
  split
  · simp
  · simp

theorem concluded_open (wasOpen : phase.terminal = false) (concluded : Concluded phase reached) :
    reached ≠ .cancelled := by
  rintro rfl
  rcases concluded with rfl | ⟨_, final | final⟩
  · cases wasOpen
  · cases final
  · cases final

theorem billed_listed {ending : Jobs.Outcome} {result : Jobs.AttemptResult}
    (isBilled : Billed (completeIn db attempt ending result) billed)
    (listed : ∃ row ∈ db.jobs.attempts, row.id = attempt.id ∧ row.jobId = job.id) :
    ∃ row ∈ billed.jobs.attempts, row.id = attempt.id ∧ row.jobId = job.id := by
  obtain ⟨row, member, named, ofJob⟩ := listed
  have written := mem_map_of_mem (f := fun row : JobAttempt =>
    if (Jobs.AttemptUpdate.completed attempt.id ending.status result ending.status_final).selects row then
      (Jobs.AttemptUpdate.completed attempt.id ending.status result ending.status_final).changes db.jobs.now row
    else row) member
  have tuple := mem_map_of_mem (f := fun row : JobAttempt => (row.id, row.jobId, row.status)) written
  obtain ⟨kept, present, same⟩ := mem_map.mp (isBilled.attempts.symm ▸ tuple)
  simp only [Prod.mk.injEq] at same
  refine ⟨kept, present, same.1.trans ?_, same.2.1.trans ?_⟩
  · split
    · exact named
    · exact named
  · split
    · exact ofJob
    · exact ofJob

variable (assemble : AssembleReceipt) (toLowerCase : String → String) (session : Nat) (transactionId : String)

theorem answer_verdicts (answered : Answered db.jobs job attempt)
    (running : HasStatus db.jobs attempt.id .running) (found : db.jobs.findJob job.id = some row)
    (wasOpen : row.phase.terminal = false) (result : HarnessResult)
    (isOutcome : resolveOrchestrationOutcome result.success result.control = outcome) :
    VerdictsAgree db.jobs (finalizedLive assemble toLowerCase session transactionId db job attempt
        result).jobs job attempt ↔
      (outcome = .prepared → job.hints.staged = true ∨ (retryDelay job attempt).isSome = true) := by
  obtain ⟨listed, member, named, ofJob⟩ := answered.listed
  obtain ⟨billed, isBilled, same⟩ := finalizedLive_billed assemble toLowerCase session transactionId
    member named (running.all listed member named) result
  rw [isOutcome] at isBilled same
  have stillFound : billed.jobs.findJob job.id = some row := by
    rw [JobsDb.findJob, isBilled.jobs]
    exact found
  have completed := isBilled.hasStatus (completeIn_status running (attemptOutcome outcome) result.stored)
  have ended : (attemptOutcome outcome).status ≠ .running := by
    intro runs
    have final := (attemptOutcome outcome).status_final
    rw [runs] at final
    cases final
  have has := completed.alone ((permits_leaving ended).applyOutcome job attempt result outcome) ended
  have start : db.jobs.phaseOf job.id = some row.phase := by rw [JobsDb.phaseOf, found, map_some]
  rw [same]
  by_cases settled : settles job attempt outcome = true
  · by_cases successful : outcome = .success
    · obtain ⟨kept, present, isKept, keptJob⟩ := billed_listed isBilled answered.listed
      have succeeded := completed.all kept present isKept
      subst successful
      have sameJobs : ((applyOutcome job attempt result .success).alone billed).2.jobs =
          ((Jobs.markJobDone job.id none).alone billed.jobs).2 := alone_onJobs_snd _ (fun _ => ()) billed
      obtain ⟨reached, last, concluded⟩ := markJobDone_concluded stillFound none
      rw [← sameJobs] at last
      rw [verdictsAgree_iff wasOpen start has last]
      refine iff_of_true ⟨fun _ => ⟨concluded_open wasOpen concluded, fun active => ?_⟩, by rintro ⟨⟩⟩ (by rintro ⟨⟩)
      obtain ⟨final, isFinal, atEnd⟩ := markJobDone_active stillFound active present keptJob succeeded
      rw [← sameJobs, last, Option.some.injEq] at atEnd
      rw [atEnd]
      exact mem_append_left [.ready] isFinal
    · have sameJobs : ((applyOutcome job attempt result outcome).alone billed).2.jobs =
          ((Jobs.markJobFailed job.id result.error).alone billed.jobs).2 := by
        rw [applyOutcome_fails result settled successful]
        exact alone_onJobs_snd _ (fun _ => ()) billed
      have last := markJobFailed_cancels stillFound wasOpen result.error
      rw [← sameJobs] at last
      rw [verdictsAgree_iff wasOpen start has last]
      cases outcome with
      | success => exact absurd rfl successful
      | waiting => cases settled
      | failed => exact iff_of_true ⟨by rintro ⟨⟩, fun _ => .inl rfl⟩ (by rintro ⟨⟩)
      | prepared =>
        simp only [settles, Bool.and_eq_true, Bool.not_eq_true', isNone_iff_eq_none] at settled
        refine iff_of_false (fun agree => (agree.1 rfl).1 rfl) fun lined => ?_
        rcases lined rfl with staged | delayed
        · rw [settled.1] at staged
          cases staged
        · rw [settled.2] at delayed
          cases delayed
  · have unsettled := Bool.eq_false_of_not_eq_true settled
    have last := applyOutcome_requeues stillFound result unsettled
    rw [verdictsAgree_iff wasOpen start has last]
    refine iff_of_true ⟨fun _ => ⟨by decide, fun _ => by simp⟩, fun failed => .inr ⟨rfl, ?_⟩⟩ ?_
    · cases outcome with
      | failed =>
        apply retryAllowed_of_delay
        simpa [settles, isSome_iff_ne_none] using unsettled
      | _ => cases failed
    · rintro rfl
      cases staged : job.hints.staged with
      | true => exact .inl rfl
      | false => exact .inr (by simpa [settles, staged, isSome_iff_ne_none] using unsettled)

theorem externallyFinalized_open (found : db.jobs.findJob job.id = some row)
    (wasOpen : row.phase.terminal = false) (result : HarnessResult) :
    (externallyFinalized job result).alone db = (externallyFinalized.finish job result
      (db.jobs.latestAttempt job.id fun _ => true)).alone db := by
  simp only [externallyFinalized, select, alone_perform_bind]
  rw [alone_bind, alone_onJobs]
  simp only [Jobs.findById, Jobs.select, alone_perform]
  rw [show (Statement.effect LoopStatement.select db).jobs.findJob job.id = some row from found]
  dsimp only
  rw [wasOpen]
  rfl

theorem finish_succeeded {db : JobsDb} (latest : LatestSucceeded db job.id) (result : HarnessResult) :
    externallyFinalized.finish job result (db.latestAttempt job.id fun _ => true) =
      (onJobs (Jobs.markJobDone job.id none) >>= fun _ => .ret ()) :=
  if_pos latest

theorem finish_unsucceeded {db : JobsDb} (unsucceeded : ¬ LatestSucceeded db job.id) (result : HarnessResult) :
    ∃ reason, externallyFinalized.finish job result (db.latestAttempt job.id fun _ => true) =
      (onJobs (Jobs.markJobFailed job.id (some reason)) >>= fun _ => .ret ()) :=
  ⟨_, if_neg unsucceeded⟩

theorem external_verdicts (has : HasStatus db.jobs attempt.id status) (ended : status ≠ .running)
    (found : db.jobs.findJob job.id = some row) (wasOpen : row.phase.terminal = false) (result : HarnessResult) :
    VerdictsAgree db.jobs (finalizedLive assemble toLowerCase session transactionId db job attempt
        result).jobs job attempt ↔ (status = .succeeded → LatestSucceeded db.jobs job.id) ∧
      (status = .failed → LatestSucceeded db.jobs job.id → row.phase = .ready ∧ RetryAllowed job attempt) := by
  have whole : finalizedLive assemble toLowerCase session transactionId db job attempt result =
      ((externallyFinalized job result).alone db).2 := by
    rw [finalizedLive, completeAndFinalize, alone_bind, alone_onJobs, completeAttempt_ended has ended]
  have start : db.jobs.phaseOf job.id = some row.phase := by rw [JobsDb.phaseOf, found, map_some]
  have kept := has.alone ((permits_leaving ended).externallyFinalized job result) ended
  have finishes := externallyFinalized_open found wasOpen result
  rw [whole]
  by_cases latest : LatestSucceeded db.jobs job.id
  · rw [finish_succeeded latest] at finishes
    have sameJobs : ((externallyFinalized job result).alone db).2.jobs =
        ((Jobs.markJobDone job.id none).alone db.jobs).2 := by
      rw [finishes]
      exact alone_onJobs_snd _ (fun _ => ()) db
    obtain ⟨reached, last, concluded⟩ := markJobDone_concluded found none
    rw [← sameJobs] at last
    rw [verdictsAgree_iff wasOpen start kept last]
    have stillOpen := concluded_open wasOpen concluded
    constructor
    · intro agree
      refine ⟨fun _ => latest, fun failed _ => ?_⟩
      rcases agree.2 failed with cancelled | ⟨ready, allowed⟩
      · exact absurd cancelled stillOpen
      · rcases concluded with same | ⟨_, final | final⟩
        · exact ⟨same.symm.trans ready, allowed⟩
        · exact absurd (ready.symm.trans final) (by decide)
        · exact absurd (ready.symm.trans final) (by decide)
    · intro lined
      refine ⟨fun _ => ⟨stillOpen, fun active => ?_⟩, fun failed => ?_⟩
      · obtain ⟨listed, member, ofJob, succeeded⟩ := latest.listed
        obtain ⟨final, isFinal, atEnd⟩ := markJobDone_active found active member ofJob succeeded
        rw [← sameJobs, last, Option.some.injEq] at atEnd
        rw [atEnd]
        exact mem_append_left [.ready] isFinal
      · obtain ⟨ready, allowed⟩ := lined.2 failed latest
        rcases concluded with same | ⟨other, _⟩
        · exact .inr ⟨same.trans ready, allowed⟩
        · exact absurd ready other
  · obtain ⟨reason, isFinish⟩ := finish_unsucceeded latest result
    rw [isFinish] at finishes
    have sameJobs : ((externallyFinalized job result).alone db).2.jobs =
        ((Jobs.markJobFailed job.id (some reason)).alone db.jobs).2 := by
      rw [finishes]
      exact alone_onJobs_snd _ (fun _ => ()) db
    have last := markJobFailed_cancels found wasOpen (some reason)
    rw [← sameJobs] at last
    rw [verdictsAgree_iff wasOpen start kept last]
    constructor
    · intro agree
      exact ⟨fun succeeded => absurd rfl (agree.1 succeeded).1, fun _ succeeded => absurd succeeded latest⟩
    · intro lined
      exact ⟨fun succeeded => absurd (lined.1 succeeded) latest, fun _ => .inl rfl⟩

end

theorem runningStore_answered : Answered runningStore.jobs runningJob runningAttempt :=
  ⟨by decide, runningAttempt, mem_singleton.mpr rfl, rfl, rfl⟩

theorem runningStore_lined : LinedUp runningStore.jobs runningJob runningAttempt .success := by
  have running : HasStatus runningStore.jobs runningAttempt.id .running := ⟨by decide, by decide⟩
  exact ⟨fun _ prepared => absurd prepared (by decide),
    fun succeeded => absurd (running.unique succeeded) (by decide),
    fun failed => absurd (running.unique failed) (by decide)⟩

def preparedBlock : Json := .object [("eve".toList, .object [("status".toList, .string "prepared".toList)])]

end EveHorizon.Loop
