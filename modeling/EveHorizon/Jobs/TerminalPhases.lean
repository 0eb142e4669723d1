import EveHorizon.Jobs.Operations

/-! Which statements of the job queries keep a closed job closed. Five of them write
a phase without testing the phase they replace; every other one tests it. -/

namespace EveHorizon.Jobs

open Interleaving

def KeepsTerminal (before after : JobsDb) : Prop :=
  ∀ jobId phase, before.phaseOf jobId = some phase → phase.terminal = true → after.phaseOf jobId = some phase

def JobUpdate.overwrites : JobUpdate → Option (JobId × Phase)
  | .claimed jobId _ => some (jobId, .active)
  | .released jobId => some (jobId, .ready)
  | .requeued jobId _ => some (jobId, .ready)
  | .approved jobId _ _ => some (jobId, .done)
  | .rejected jobId _ => some (jobId, .active)
  | _ => none

def JobUpdate.FindsOpen (update : JobUpdate) (db : JobsDb) : Prop :=
  ∀ jobId written, update.overwrites = some (jobId, written) →
    ∀ phase, db.phaseOf jobId = some phase → phase.terminal = true → phase = written

def JobStatement.FindsOpen : JobStatement → JobsDb → Prop
  | .updateJobs update, db => update.FindsOpen db
  | _, _ => True

theorem phaseOf_updateJobs (db : JobsDb) (update : JobUpdate) (jobId : JobId) :
    (JobStatement.effect (.updateJobs update) db).phaseOf jobId = (db.findJob jobId).map fun row =>
        if update.selects db row then (update.changes db.now row).phase else row.phase := by
  have found := Table.find?_updateWhere Job.id (update.selects db) (update.changes db.now)
    (fun row _ => update.changes_id db.now row) db.jobs jobId
  simp only [JobsDb.phaseOf, JobsDb.findJob, JobStatement.effect, found, Option.map_map]
  congr 1
  funext row
  by_cases chosen : update.selects db row <;> simp [chosen]

variable {db : JobsDb} {update : JobUpdate} {row : Job}

theorem guarded_update_clears (guarded : update.overwrites = none)
    (closed : row.phase.terminal = true) (chosen : update.selects db row = true) :
    ∃ jobIds, update = .gatesCleared jobIds := by
  cases update with
  | claimed | released | requeued | approved | rejected => cases guarded
  | gatesCleared jobIds => exact ⟨jobIds, rfl⟩
  | releasedIdle jobId | submitted jobId | backlogChildrenClosed parentId reason disposition =>
    simp only [JobUpdate.selects, Bool.and_eq_true, beq_iff_eq] at chosen
    rw [chosen.2] at closed
    cases closed
  | phaseChanged jobId current new valid =>
    simp only [JobUpdate.selects, Bool.and_eq_true, beq_iff_eq] at chosen
    rw [chosen.2] at closed
    rw [not_canTransition_of_terminal closed] at valid
    cases valid
  | closed jobId reason disposition | cascaded jobId reason =>
    simp [JobUpdate.selects, closed] at chosen

theorem guarded_update_keeps (guarded : update.overwrites = none)
    (closed : row.phase.terminal = true) (chosen : update.selects db row = true) :
    (update.changes db.now row).phase = row.phase := by
  obtain ⟨jobIds, rfl⟩ := guarded_update_clears guarded closed chosen
  rfl

variable {jobId : JobId}

theorem overwriting_update (db : JobsDb) {written : Phase} (overwrites : update.overwrites = some (jobId, written))
    (row : Job) : update.selects db row = (row.id == jobId) ∧ (update.changes db.now row).phase = written := by
  cases update with
  | claimed | released | approved | rejected =>
    simp only [JobUpdate.overwrites, Option.some.injEq, Prod.mk.injEq] at overwrites
    obtain ⟨rfl, rfl⟩ := overwrites
    exact ⟨rfl, rfl⟩
  | requeued job deferUntil =>
    simp only [JobUpdate.overwrites, Option.some.injEq, Prod.mk.injEq] at overwrites
    obtain ⟨rfl, rfl⟩ := overwrites
    exact ⟨rfl, by cases deferUntil <;> rfl⟩
  | _ => cases overwrites

theorem findJob_id (found : db.findJob jobId = some row) : row.id = jobId := by
  simpa using List.find?_some found

theorem update_keepsTerminal_iff (db : JobsDb) (update : JobUpdate) :
    KeepsTerminal db (JobStatement.effect (.updateJobs update) db) ↔ update.FindsOpen db := by
  constructor
  · intro keeps jobId written overwrites phase current closed
    have after := keeps jobId phase current closed
    obtain ⟨row, found, rfl⟩ := Option.map_eq_some_iff.mp current
    obtain ⟨selects, writes⟩ := overwriting_update db overwrites row
    rw [phaseOf_updateJobs, found, Option.map_some, selects, findJob_id found] at after
    simpa [writes] using after.symm
  · intro finds jobId phase current closed
    obtain ⟨row, found, rfl⟩ := Option.map_eq_some_iff.mp current
    rw [phaseOf_updateJobs, found, Option.map_some]
    cases chosen : update.selects db row with
    | false => simp
    | true =>
      simp only [↓reduceIte, Option.some.injEq]
      cases overwrites : update.overwrites with
      | none => exact guarded_update_keeps overwrites closed chosen
      | some target =>
        obtain ⟨target, written⟩ := target
        obtain ⟨selects, writes⟩ := overwriting_update db overwrites row
        rw [selects, beq_iff_eq, findJob_id found] at chosen
        subst chosen
        rw [writes]
        exact (finds jobId written overwrites row.phase current closed).symm

theorem statement_keepsTerminal_iff (db : JobsDb) (stmt : JobStatement) :
    KeepsTerminal db (stmt.effect db) ↔ stmt.FindsOpen db := by
  cases stmt with
  | updateJobs update => exact update_keepsTerminal_iff db update
  | insertAttempt new =>
    refine iff_of_true (fun jobId phase current _ => ?_) trivial
    simpa only [JobsDb.phaseOf, JobsDb.findJob, insertAttempt_jobs] using current
  | _ => exact iff_of_true (fun _ _ current _ => current) trivial

/-- In every interleaving of the job queries, closed jobs stay closed exactly when
no overwriting update meets a job that was closed behind its back. -/
theorem terminal_phases_absorbing_iff (db : JobsDb) (schedule : List (Choice JobOperation)) :
    (∀ execution ∈ (runJobs db schedule).trace, KeepsTerminal execution.before execution.after) ↔
    ∀ execution ∈ (runJobs db schedule).trace, execution.statement.FindsOpen execution.before := by
  refine forall₂_congr fun execution member => ?_
  obtain ⟨_, executed⟩ := System.run_executes _ db schedule execution member
  rw [executed]
  exact statement_keepsTerminal_iff execution.before execution.statement

/-- A `claim` that read its job as ready, and a `cancelJob` that closes the job before
the claim writes. -/
def claimRacesCancel : List (Choice JobOperation) :=
  [.start (.claim "job" "agent" none), .advance 0, .advance 0, .advance 0,
    .start (.cancelJob "job" none), .advance 1, .advance 1, .advance 1, .advance 0, .advance 0]

theorem claim_reopens_cancelled_job :
    ¬ ∀ (db : JobsDb) (schedule : List (Choice JobOperation)), ∀ execution ∈ (runJobs db schedule).trace,
        KeepsTerminal execution.before execution.after := by
  intro absorbing
  have reopened : ∃ execution ∈ (runJobs { jobs := [{ id := "job", projectId := "proj", phase := .ready }] }
      claimRacesCancel).trace, execution.before.phaseOf "job" = some .cancelled ∧
        execution.after.phaseOf "job" = some .active := by
    decide
  obtain ⟨execution, member, before, after⟩ := reopened
  have kept := absorbing _ _ execution member "job" .cancelled before rfl
  rw [after] at kept
  cases kept

end EveHorizon.Jobs
