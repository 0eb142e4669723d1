import EveHorizon.Jobs.Operations

/-! How many attempts of a job are pending or running. Only the two `INSERT`
statements add one; neither looks for the attempt it would stand beside. -/

namespace EveHorizon.Jobs

open Interleaving List Call System
open JobOperation (call)

def JobsDb.liveAttempts (db : JobsDb) (jobId : JobId) : Nat :=
  db.attempts.countP fun row => row.jobId == jobId && row.status.live

def JobsDb.runningAttempts (db : JobsDb) (jobId : JobId) : Nat :=
  db.attempts.countP fun row => row.jobId == jobId && row.status == .running

def AtMostOneLive (db : JobsDb) : Prop := ∀ jobId, db.liveAttempts jobId ≤ 1

def JobStatement.InsertsAlone : JobStatement → JobsDb → Prop
  | .insertAttempt new, db =>
    db.refusal new = none → new.status.live = true → db.liveAttempts new.jobId = 0
  | _, _ => True

instance (db : JobsDb) : (stmt : JobStatement) → Decidable (stmt.InsertsAlone db)
  | .insertAttempt new => inferInstanceAs (Decidable
      (db.refusal new = none → new.status.live = true → db.liveAttempts new.jobId = 0))
  | .select => .isTrue trivial
  | .updateJobs _ => .isTrue trivial
  | .updateAttempts _ => .isTrue trivial
  | .insertAudit _ => .isTrue trivial
  | .deleteGates _ => .isTrue trivial
  | .passTime _ => .isTrue trivial

theorem attemptUpdate_changes_jobId (now : Timestamp) (update : AttemptUpdate)
    (row : JobAttempt) : (update.changes now row).jobId = row.jobId := by
  cases update <;> rfl

theorem attemptUpdate_live {now : Timestamp} {update : AttemptUpdate} {row : JobAttempt}
    (chosen : update.selects row = true) (live : (update.changes now row).status.live = true) :
    row.status.live = true := by
  cases update with
  | startedPending attemptId agentId harness profileSource profileHash =>
    simp only [AttemptUpdate.selects, Bool.and_eq_true, beq_iff_eq] at chosen
    rw [chosen.2]
    rfl
  | ended attemptId status summary isFinal | completed attemptId status result isFinal =>
    simp only [AttemptUpdate.changes, isFinal] at live
    cases live
  | submitted attemptId summary => cases live

theorem liveAttempts_update_le (db : JobsDb) (update : AttemptUpdate) (jobId : JobId) :
    (JobStatement.effect (.updateAttempts update) db).liveAttempts jobId ≤ db.liveAttempts jobId := by
  simp only [JobsDb.liveAttempts, JobStatement.effect, Table.updateWhere, countP_map]
  apply countP_mono_left
  intro row _ counted
  cases chosen : update.selects row with
  | false => simpa [chosen] using counted
  | true =>
    simp only [Function.comp_apply, chosen, ↓reduceIte, attemptUpdate_changes_jobId, Bool.and_eq_true] at counted ⊢
    exact ⟨counted.1, attemptUpdate_live chosen counted.2⟩

theorem liveAttempts_insert (db : JobsDb) (new : NewAttempt) (jobId : JobId) :
    (JobStatement.effect (.insertAttempt new) db).liveAttempts jobId = db.liveAttempts jobId +
        if db.refusal new = none ∧ new.jobId = jobId ∧ new.status.live = true then 1 else 0 := by
  cases refused : db.refusal new with
  | some error => simp [JobsDb.liveAttempts, JobStatement.effect, refused]
  | none =>
    simp [JobsDb.liveAttempts, JobStatement.effect, refused, countP_append, countP_singleton, NewAttempt.row]

variable {db : JobsDb}

theorem statement_keepsLive_iff (exclusive : AtMostOneLive db) (stmt : JobStatement) :
    AtMostOneLive (stmt.effect db) ↔ stmt.InsertsAlone db := by
  cases stmt with
  | insertAttempt new =>
    constructor
    · intro after accepted live
      have bound := after new.jobId
      rw [liveAttempts_insert] at bound
      simp only [accepted, live, and_self, ↓reduceIte] at bound
      omega
    · intro alone jobId
      rw [liveAttempts_insert]
      have before := exclusive jobId
      split
      · next inserted =>
        obtain ⟨accepted, rfl, live⟩ := inserted
        have none := alone accepted live
        omega
      · omega
  | updateAttempts update =>
    refine iff_of_true (fun jobId => ?_) trivial
    exact Nat.le_trans (liveAttempts_update_le db update jobId) (exclusive jobId)
  | _ => exact iff_of_true exclusive trivial

variable (jobId : JobId)

def JobStatement.startsAttempt : JobStatement → JobsDb → Bool
  | .insertAttempt new, db =>
    new.jobId == jobId && new.status == .running && (db.refusal new).isNone
  | .updateAttempts (.startedPending attemptId _ _ _ _), db =>
    db.attempts.any fun row =>
      row.jobId == jobId && (row.id == attemptId && row.status == .pending)
  | _, _ => false

open JobStatement (effect startsAttempt)

def JobReply.claimed : JobReply → Bool
  | .claim result => result.success && result.attempt.any fun attempt => attempt.jobId == jobId
  | .claimNextJob (some (_, attempt)) => attempt.jobId == jobId
  | _ => false

open JobReply (claim claimed)

def endsAttempt (execution : Execution JobStatement JobsDb) : Bool :=
  decide (execution.after.runningAttempts jobId < execution.before.runningAttempts jobId)

variable {wanted jobId : JobId} {agentId : String} {harness : Option String} {result : ClaimResult} {currentJob : Job}

theorem claimPending_unmarked {pendingAttempt : JobAttempt}
    (ends : (claimPending currentJob jobId agentId harness pendingAttempt).EndsUnmarked (startsAttempt wanted) result) :
    (JobReply.claim result).claimed wanted = false := by
  simp only [claimPending, updateAttempts, endsUnmarked_bind, endsUnmarked_perform] at ends
  obtain ⟨started, ⟨db, unmarked, returned⟩, rest⟩ := ends
  cases started with
  | none =>
    simp only [pure_eq, endsUnmarked_ret] at rest
    rw [← rest]
    rfl
  | some attempt =>
    obtain ⟨row, found, rfl⟩ := Option.map_eq_some_iff.mp returned
    have member := mem_of_find?_eq_some found
    have selected := find?_some found
    have other : (row.jobId == wanted) = false := by
      simp only [startsAttempt, any_eq_false, Bool.and_eq_true, not_and] at unmarked
      simp only [AttemptUpdate.selects, Bool.and_eq_true] at selected
      by_contra same
      exact unmarked row member (by simpa using same) selected.1 selected.2
    simp only [endsUnmarked_bind, pure_eq, endsUnmarked_ret] at rest
    obtain ⟨_, _, _, _, _, _, rfl⟩ := rest
    simpa [claimed, attemptUpdate_changes_jobId] using other

theorem claimReady_unmarked
    (ends : (claimReady currentJob jobId agentId harness).EndsUnmarked (startsAttempt wanted) result) :
    (JobReply.claim result).claimed wanted = false := by
  simp only [claimReady, endsUnmarked_bind] at ends
  obtain ⟨count, _, attempt, inserted, rest⟩ := ends
  simp only [insertAttempt, Call.EndsUnmarked] at inserted
  obtain ⟨db, unmarked, inserted⟩ := inserted
  split at inserted
  · exact inserted.elim
  · next accepted =>
    simp only [endsUnmarked_ret] at inserted
    subst inserted
    simp only [startsAttempt, accepted, Option.isNone_none, beq_self_eq_true, Bool.and_true] at unmarked
    simp only [pure_eq, endsUnmarked_ret] at rest
    obtain ⟨_, _, _, _, _, _, rfl⟩ := rest
    simpa [claimed, NewAttempt.row] using unmarked

theorem claim_unmarked (ends : (claim jobId agentId harness).EndsUnmarked (startsAttempt wanted) result) :
    (JobReply.claim result).claimed wanted = false := by
  simp only [claim, endsUnmarked_bind] at ends
  obtain ⟨found, _, ends⟩ := ends
  cases found with
  | none =>
    simp only [pure_eq, endsUnmarked_ret] at ends
    rw [← ends]
    rfl
  | some currentJob =>
    simp only at ends
    split at ends
    · simp only [pure_eq, endsUnmarked_ret] at ends
      rw [← ends]
      rfl
    · simp only [endsUnmarked_bind] at ends
      obtain ⟨pending, _, ends⟩ := ends
      cases pending with
      | some pendingAttempt => exact claimPending_unmarked ends
      | none =>
        simp only at ends
        split at ends
        · simp only [pure_eq, endsUnmarked_ret] at ends
          rw [← ends]
          rfl
        · exact claimReady_unmarked ends

theorem claimNextJob_unmarked {projectId : Option String} {result : Option (Job × JobAttempt)}
    (ends : (claimNextJob projectId agentId harness).EndsUnmarked (startsAttempt wanted) result) :
    (JobReply.claimNextJob result).claimed wanted = false := by
  simp only [claimNextJob, endsUnmarked_bind] at ends
  obtain ⟨readyJobs, _, ends⟩ := ends
  cases readyJobs with
  | nil =>
    simp only [pure_eq, endsUnmarked_ret] at ends
    rw [← ends]
    rfl
  | cons job rest =>
    simp only [endsUnmarked_bind] at ends
    obtain ⟨claimed, claimEnds, ends⟩ := ends
    have lost := claim_unmarked claimEnds
    split at ends
    · next attempt success given =>
      simp only [endsUnmarked_bind] at ends
      obtain ⟨refetched, _, ends⟩ := ends
      cases refetched with
      | none =>
        simp only [pure_eq, endsUnmarked_ret] at ends
        rw [← ends]
        rfl
      | some updatedJob =>
        simp only [pure_eq, endsUnmarked_ret] at ends
        rw [← ends]
        simpa [JobReply.claimed, success, given] using lost
    · simp only [pure_eq, endsUnmarked_ret] at ends
      rw [← ends]
      rfl

theorem call_unmarked (wanted : JobId) (operation : JobOperation) (reply : JobReply)
    (ends : operation.call.EndsUnmarked (startsAttempt wanted) reply) : reply.claimed wanted = false := by
  cases operation with
  | passTime elapsed =>
    obtain ⟨_, _, rfl⟩ := ends
    rfl
  | claim jobId agentId harness =>
    simp only [call, endsUnmarked_bind] at ends
    obtain ⟨result, claimEnds, rfl⟩ := ends
    exact claim_unmarked claimEnds
  | claimNextJob projectId agentId harness =>
    simp only [call, endsUnmarked_bind] at ends
    obtain ⟨result, claimEnds, rfl⟩ := ends
    exact claimNextJob_unmarked claimEnds
  | _ =>
    simp only [call, endsUnmarked_bind] at ends
    obtain ⟨_, _, rfl⟩ := ends
    rfl

theorem runningAttempts_le_live (db : JobsDb) (jobId : JobId) : db.runningAttempts jobId ≤ db.liveAttempts jobId := by
  apply countP_mono_left
  intro row _ running
  simp only [Bool.and_eq_true, beq_iff_eq] at running ⊢
  exact ⟨running.1, by rw [running.2]; rfl⟩

theorem runningAttempts_insert (db : JobsDb) (new : NewAttempt) (jobId : JobId) :
    (effect (.insertAttempt new) db).runningAttempts jobId = db.runningAttempts jobId +
        if startsAttempt jobId (.insertAttempt new) db then 1 else 0 := by
  cases refused : db.refusal new with
  | some error =>
    simp [JobsDb.runningAttempts, effect, refused, startsAttempt]
  | none =>
    simp [JobsDb.runningAttempts, effect, refused, countP_append, countP_singleton, NewAttempt.row, startsAttempt]

theorem runningAttempts_startedPending {attemptId : AttemptId} {profileSource profileHash : Option String}
    (starts : startsAttempt jobId (.updateAttempts
      (.startedPending attemptId agentId harness profileSource profileHash)) db = true) :
    db.runningAttempts jobId < (effect (.updateAttempts
        (.startedPending attemptId agentId harness profileSource profileHash)) db).runningAttempts jobId := by
  obtain ⟨row, member, found⟩ := any_eq_true.mp starts
  rw [Bool.and_eq_true] at found
  obtain ⟨owned, chosen⟩ := found
  apply Table.countP_lt_updateWhere _ member chosen
  · exact Bool.and_eq_true_iff.mpr ⟨owned, rfl⟩
  · intro old running
    simp only [Bool.and_eq_true, beq_iff_eq] at running
    simp [AttemptUpdate.selects, running.2]

theorem runningAttempts_starts {stmt : JobStatement} (starts : stmt.startsAttempt jobId db = true) :
    db.runningAttempts jobId < (stmt.effect db).runningAttempts jobId := by
  cases stmt with
  | insertAttempt new =>
    rw [runningAttempts_insert, starts]
    exact Nat.lt_succ_self _
  | updateAttempts update =>
    cases update with
    | startedPending => exact runningAttempts_startedPending starts
    | _ => cases starts
  | _ => cases starts

theorem running_balanced {execution : Execution JobStatement JobsDb}
    (executed : execution.after = execution.statement.effect execution.before)
    (exclusive : AtMostOneLive execution.before) :
    execution.before.runningAttempts jobId + (if execution.marked (startsAttempt jobId) then 1 else 0) ≤
      execution.after.runningAttempts jobId + if endsAttempt jobId execution then 1 else 0 := by
  have single := Nat.le_trans (runningAttempts_le_live execution.before jobId) (exclusive jobId)
  cases starts : execution.marked (startsAttempt jobId) with
  | true =>
    have grows := runningAttempts_starts starts
    rw [← executed] at grows
    simp only [↓reduceIte]
    omega
  | false =>
    by_cases ends : execution.after.runningAttempts jobId < execution.before.runningAttempts jobId
    · simp only [endsAttempt, ends, decide_true, ↓reduceIte, Bool.false_eq_true]
      omega
    · simp only [Bool.false_eq_true, ↓reduceIte]
      omega

theorem claims_le_ends (exclusive : AtMostOneLive db) {schedule : List (Choice JobOperation)}
    (alone : ∀ execution ∈ (runJobs db schedule).trace,
      execution.statement.InsertsAlone execution.before) (jobId : JobId) :
    (runJobs db schedule).ended.countP (Ending.won (claimed jobId)) ≤
      1 + (runJobs db schedule).trace.countP (endsAttempt jobId) := by
  have executed := run_executes (fun _ operation => call operation) db schedule
  obtain ⟨final, throughout⟩ := run_invariant (fun _ operation => call operation) exclusive schedule
    fun execution member before => by
      rw [(executed execution member).2]
      exact (statement_keepsLive_iff before execution.statement).mpr (alone execution member)
  have paid := wins_le_marked (fun _ operation => call operation)
    (claimed jobId) (startsAttempt jobId)
    (fun _ => call_unmarked jobId) db schedule
  have balance := run_measure (fun _ operation => call operation)
    (JobsDb.runningAttempts · jobId) (Execution.marked (startsAttempt jobId))
    (endsAttempt jobId) db schedule
    fun execution member =>
      running_balanced (executed execution member).2 (throughout execution member).1
  have last := Nat.le_trans (runningAttempts_le_live _ jobId) (final jobId)
  calc (runJobs db schedule).ended.countP (Ending.won (claimed jobId)) ≤ (runJobs db schedule).trace.countP
          (Execution.marked (startsAttempt jobId)) := paid
    _ ≤ (runJobs db schedule).store.runningAttempts jobId + (runJobs db schedule).trace.countP (endsAttempt jobId) :=
        Nat.le_trans (Nat.le_add_left _ _) balance
    _ ≤ 1 + (runJobs db schedule).trace.countP (endsAttempt jobId) := Nat.add_le_add_right last _

/-- From at most one live attempt a job, every state of a run has at most one exactly
when every insert of an attempt finds none; and then the successful claims of a job
exceed the attempts that ended meanwhile by at most one. -/
theorem single_live_attempt_iff {db : JobsDb} (exclusive : AtMostOneLive db) (schedule : List (Choice JobOperation)) :
    ((∀ execution ∈ (runJobs db schedule).trace, AtMostOneLive execution.after) ↔
      ∀ execution ∈ (runJobs db schedule).trace, execution.statement.InsertsAlone execution.before) ∧
    ((∀ execution ∈ (runJobs db schedule).trace, execution.statement.InsertsAlone execution.before) →
      ∀ jobId, (runJobs db schedule).ended.countP (Ending.won (claimed jobId)) ≤
        1 + (runJobs db schedule).trace.countP (endsAttempt jobId)) := by
  refine ⟨run_invariant_iff _ exclusive _ schedule ?_, fun alone => claims_le_ends exclusive alone⟩
  intro execution member before
  obtain ⟨_, executed⟩ := run_executes _ db schedule execution member
  rw [executed]
  exact statement_keepsLive_iff before execution.statement

def oneReadyJob : JobsDb :=
  { jobs := [{ id := "job", projectId := "proj", phase := .ready }] }

theorem oneReadyJob_exclusive : AtMostOneLive oneReadyJob := by
  intro jobId
  exact Nat.zero_le 1

def claimsInTurn : List (Choice JobOperation) :=
  [.start (.claim "job" "first" none), .advance 0, .advance 0, .advance 0, .advance 0,
    .advance 0, .advance 0, .advance 0, .advance 0,
    .start (.claim "job" "second" none), .advance 0, .advance 0, .advance 0]

theorem claims_in_turn_single_attempt : AtMostOneLive oneReadyJob ∧
    (∀ execution ∈ (runJobs oneReadyJob claimsInTurn).trace, AtMostOneLive execution.after) ∧
    (runJobs oneReadyJob claimsInTurn).ended.countP (Ending.won (claimed "job")) ≤
      1 + (runJobs oneReadyJob claimsInTurn).trace.countP (endsAttempt "job") := by
  have alone : ∀ execution ∈ (runJobs oneReadyJob claimsInTurn).trace,
      execution.statement.InsertsAlone execution.before := by
    decide
  obtain ⟨single, claims⟩ := single_live_attempt_iff oneReadyJob_exclusive claimsInTurn
  exact ⟨oneReadyJob_exclusive, single.mpr alone, claims alone "job"⟩

/-- Two claims that both read the job as ready. The first counts no attempt and inserts
number one; the second counts that one and inserts number two. -/
def claimsRace : List (Choice JobOperation) :=
  [.start (.claim "job" "first" none), .start (.claim "job" "second" none),
    .advance 0, .advance 0, .advance 1, .advance 1, .advance 0, .advance 0, .advance 1, .advance 1,
    .advance 0, .advance 0, .advance 0, .advance 0, .advance 0, .advance 0, .advance 0, .advance 0]

theorem racing_claims_both_succeed : AtMostOneLive oneReadyJob ∧
    (∃ execution ∈ (runJobs oneReadyJob claimsRace).trace, ¬ AtMostOneLive execution.after) ∧
    (runJobs oneReadyJob claimsRace).ended.countP (Ending.won (claimed "job")) = 2 ∧
    (runJobs oneReadyJob claimsRace).trace.countP (endsAttempt "job") = 0 := by
  refine ⟨oneReadyJob_exclusive, ?_, by decide, by decide⟩
  have doubled : ∃ execution ∈ (runJobs oneReadyJob claimsRace).trace, execution.after.liveAttempts "job" = 2 := by
    decide
  obtain ⟨execution, member, two⟩ := doubled
  refine ⟨execution, member, fun exclusive => ?_⟩
  have bound := exclusive "job"
  omega

end EveHorizon.Jobs
