import EveHorizon.Jobs.Numbering
import EveHorizon.Loop.Gates
import EveHorizon.Loop.Inventory

/-!
# Attempt numbers in runs

However claims, dispatches, sweeps and reviews interleave, the numbers of a job's attempts
are distinct and at most the count of its attempts.
-/

namespace EveHorizon.Loop

open Interleaving
open Jobs (JobId AttemptId Timestamp Job JobAttempt JobsDb JobStatement JobCall JobOperation Counted)

def LoopStatement.inserts : LoopStatement → Prop
  | .jobs stmt => stmt.inserts
  | _ => False

def GateStatement.inserts : GateStatement → Prop
  | .loop stmt => stmt.inserts
  | _ => False

def LoopStatement.numbers (found : JobsDb) : LoopStatement → Prop
  | .jobs stmt => stmt.numbers found
  | _ => True

def GateStatement.numbers (found : JobsDb) : GateStatement → Prop
  | .loop stmt => stmt.numbers found
  | _ => True

abbrev GateCall.Numbers {α : Type} (call : GateCall α) : Prop :=
  ∀ last, call.Heeds (fun _ _ found => found.loop.jobs)
    (fun found stmt => stmt.numbers found) (fun _ _ => True) last

theorem recovery_inserts_nothing : RecoveryPermits (fun _ => True) fun stmt => ¬ stmt.inserts where
  requeueReady jobId actor deferUntil reason :=
    ((Jobs.requeueReady_writes jobId actor deferUntil reason).inserts_nothing fun _ => id).issuesWhile _
  markJobDone jobId summary :=
    ((Jobs.markJobDone_writes jobId summary).inserts_nothing fun _ => id).issuesWhile _
  cancelJob jobId reason := ((Jobs.cancelJob_writes jobId reason).inserts_nothing fun _ => id).issuesWhile _
  markJobFailed jobId reason :=
    ((Jobs.markJobFailed_writes jobId reason).inserts_nothing fun _ => id).issuesWhile _

variable {α : Type}

theorem gateNumbers_of_issues {call : GateCall α} (issues : call.Issues fun stmt => ¬ stmt.inserts) :
    call.Numbers := by
  intro last
  refine issues.heeds trivial (fun stmt found others _ => ?_) fun _ _ _ _ _ => trivial
  cases stmt with
  | loop stmt =>
    cases stmt with
    | jobs stmt => exact Jobs.numbers_of_not_inserts others found
    | _ => trivial
  | _ => trivial

variable {issued : GateStatement → Prop}

theorem onLoop_issues {call : LoopCall α} (issues : call.Issues fun stmt => issued (.loop stmt)) :
    (onLoop call).Issues issued :=
  Call.Issues.lift issues

theorem onLoop_onJobs_issues {call : JobCall α} (issues : call.Issues fun stmt => issued (.loop (.jobs stmt))) :
    (onLoop (onJobs call)).Issues issued :=
  onLoop_issues (Call.Issues.lift issues)

def GateStatement.acquires : GateStatement → Prop
  | .cleanupExpiredGates | .loop .select | .upsert .. | .giveBack .. => True
  | _ => False

variable (dispatch : Nat) (jobId : JobId)

theorem upsertGates_acquires (ttlExpiresAt : Timestamp) (gateKeys : List String) :
    (upsertGates dispatch jobId ttlExpiresAt gateKeys).Issues GateStatement.acquires := by
  induction gateKeys with
  | nil => trivial
  | cons gateKey rest ih => exact ⟨trivial, fun _ => ih.bind fun _ => trivial⟩

theorem acquireGates_acquires (gateKeys : List String) (ttlExpiresAt : Timestamp) :
    (acquireGates dispatch jobId gateKeys ttlExpiresAt).Issues GateStatement.acquires := by
  rw [acquireGates]
  split
  · trivial
  · refine ⟨trivial, fun _ => ⟨trivial, fun found => ?_⟩⟩
    dsimp only [Call.bind]
    split
    · trivial
    · refine Call.Issues.bind (upsertGates_acquires _ _ _ _) fun acquired => ?_
      split
      · trivial
      · split
        · exact ⟨trivial, fun _ => ⟨trivial, fun _ => trivial⟩⟩
        · exact ⟨trivial, fun _ => trivial⟩

def GateStatement.prepares : GateStatement → Prop
  | .loop (.jobs stmt) =>
    { Jobs.requeueWrites jobId with attempts := fun _ => True : Jobs.Writes }.allow stmt
  | .updateBlockedOnGates .. => True
  | stmt => stmt.acquires

variable {stmt : GateStatement}

theorem acquires_prepares (acquires : stmt.acquires) (jobId : JobId) : stmt.prepares jobId := by
  cases stmt with
  | loop stmt =>
    cases stmt with
    | jobs stmt => cases acquires
    | _ => exact acquires
  | updateBlockedOnGates blocked blockedOnGates => cases acquires
  | _ => exact acquires

theorem requeueReady_prepares (actor : String) (deferUntil : Option (Option Timestamp)) (reason : Option String) :
    (Jobs.requeueReady jobId actor deferUntil reason).Issues
      fun stmt => (GateStatement.loop (.jobs stmt)).prepares jobId :=
  (Jobs.requeueReady_writes jobId actor deferUntil reason).within
    { Jobs.requeueWrites jobId with attempts := fun _ => True } (fun _ => id) (fun _ _ => trivial)
    fun _ => id

theorem acquireJobGates_prepares (job : Job) (attempt : JobAttempt) (requiredGates : List String)
    (ttlExpiresAt : Timestamp) :
    (acquireJobGates dispatch job attempt requiredGates ttlExpiresAt).Issues (GateStatement.prepares job.id) := by
  rw [acquireJobGates]
  split
  · trivial
  · have acquires := (acquireGates_acquires dispatch job.id requiredGates ttlExpiresAt).imp
      fun _ acquires => acquires_prepares acquires job.id
    refine acquires.bind fun gateResult => ?_
    split
    · exact ⟨trivial, fun _ => trivial⟩
    · refine ⟨trivial, fun _ => ⟨trivial, fun _ => ⟨trivial, fun found => ?_⟩⟩⟩
      exact (onLoop_onJobs_issues (requeueReady_prepares _ _ _ _)).bind fun _ => trivial

theorem prepares_inserts_nothing {jobId : JobId} (prepares : stmt.prepares jobId) : ¬ stmt.inserts := by
  cases stmt with
  | loop stmt =>
    cases stmt with
    | jobs stmt =>
      cases stmt with
      | insertAttempt new => cases prepares
      | _ => exact id
    | _ => exact id
  | _ => exact id

section

variable (assemble : AssembleReceipt) (toLowerCase : String → String)

theorem onLoop_inserts_nothing {call : LoopCall α}
    (issues : LoopKeeps (fun _ => True) (fun stmt => ¬ stmt.inserts) call) :
    (onLoop call).Issues fun stmt => ¬ stmt.inserts :=
  onLoop_issues (issues.issues fun _ => trivial)

theorem processGatedJob_inserts_nothing (dispatch : Nat) (newId : Nat → String) (job : Job)
    (attempt : JobAttempt) (relevant : GateRelevantJob) (ttlExpiresAt : Timestamp)
    (worker : Except String HarnessResult) :
    (processGatedJob assemble toLowerCase dispatch newId job attempt relevant ttlExpiresAt
      worker).Issues fun stmt => ¬ stmt.inserts := by
  have permits := recovery_inserts_nothing
  have prepares := (acquireJobGates_prepares dispatch job attempt
    (resolveRequiredJobGates relevant) ttlExpiresAt).imp fun _ => prepares_inserts_nothing
  refine prepares.bind fun outcome => Call.Issues.bind ?_ fun _ => ?_
  · cases outcome with
    | blocked => trivial
    | acquired =>
      refine ⟨id, fun _ => ⟨id, fun _ => ?_⟩⟩
      have processes := permits.processJob assemble toLowerCase dispatch newId job attempt worker
      exact (onLoop_inserts_nothing processes).handle fun _ => trivial
  · refine Call.Issues.bind ?_ fun _ => ?_
    · split
      · trivial
      · exact onLoop_inserts_nothing (permits.deletesGates _)
    · cases outcome with
      | blocked => trivial
      | acquired => exact onLoop_inserts_nothing (permits.closeRootOf _)

theorem onRecovery_inserts_nothing {call : RecoveryCall α}
    (issues : RecoveryKeeps (fun _ => True) (fun stmt => ¬ stmt.inserts) call) :
    (onRecovery call).Issues fun stmt => ¬ stmt.inserts := by
  have always := issues.issues fun _ => trivial
  exact Call.Issues.lift always

omit assemble toLowerCase in
theorem query_numbers (operation : JobOperation) : (onRecovery (live do
      let _ ← onJobs operation.call
      return ())).Numbers := by
  intro last
  have asked : (onJobs operation.call).Heeds (fun _ _ found => found.jobs)
      (fun found stmt => stmt.numbers found) (fun _ _ => True) last :=
    Call.Heeds.lift (operation.call_numbers last) fun _ _ _ => rfl
  have answered : (do
      let _ ← onJobs operation.call
      return () : LoopCall Unit).Heeds (fun _ _ found => found.jobs)
        (fun found stmt => stmt.numbers found) (fun _ _ => True) last :=
    asked.bind (fun _ _ _ => trivial) fun _ _ _ => trivial
  have recovered : (live do
      let _ ← onJobs operation.call
      return ()).Heeds (fun _ _ found => found.jobs)
        (fun found stmt => stmt.erase.numbers found) (fun _ _ => True) last :=
    Call.Heeds.lift answered fun _ _ _ => rfl
  exact Call.Heeds.lift recovered fun _ _ _ => rfl

theorem gateOperation_numbers (session : Nat) (operation : GateOperation) :
    (operation.call assemble toLowerCase session).Numbers := by
  have permits := recovery_inserts_nothing
  cases operation with
  | dispatchJob newId job attempt relevant ttlExpiresAt worker =>
    exact gateNumbers_of_issues (processGatedJob_inserts_nothing assemble toLowerCase session newId
      job attempt relevant ttlExpiresAt worker)
  | refreshGatesTTL jobId ttlExpiresAt => exact gateNumbers_of_issues (Call.issues_perform id)
  | recovery operation =>
    cases operation with
    | jobQuery operation => exact query_numbers operation
    | _ =>
      refine gateNumbers_of_issues (onRecovery_inserts_nothing ?_)
      exact permits.recoveryOperation assemble toLowerCase session _ (fun _ same => by cases same)

def GateDb.attemptKeys (db : GateDb) : List (AttemptId × JobId × Nat) := db.loop.jobs.attemptKeys

def Holds (keys : List (AttemptId × JobId × Nat)) (db : GateDb) : Prop := keys <+: db.attemptKeys

def CountedGates (db : GateDb) : Prop := Counted db.loop.jobs

omit assemble toLowerCase in
theorem gateEffect_cases (stmt : GateStatement) (db : GateDb) :
    (∃ issued, stmt = .loop (.jobs issued)) ∨ (Statement.effect stmt db).attemptKeys = db.attemptKeys := by
  cases stmt with
  | loop stmt =>
    cases stmt with
    | jobs issued => exact .inl ⟨issued, rfl⟩
    | writeReceipt attemptId receipt =>
      have keeps : ∀ row : JobAttempt, (receipt.columns row).key = row.key := fun _ => rfl
      exact .inr (Jobs.updateWhere_keys keeps db.loop.jobs.attempts)
    | _ => exact .inr rfl
  | upsert dispatch jobId gateKey ttlExpiresAt =>
    refine .inr ?_
    simp only [Statement.effect, GateStatement.effect]
    split <;> rfl
  | _ => exact .inr rfl

variable {db : GateDb}

omit assemble toLowerCase in
theorem holds_effect {keys : List (AttemptId × JobId × Nat)} (holds : Holds keys db) (stmt : GateStatement) :
    Holds keys (Statement.effect stmt db) := by
  rcases gateEffect_cases stmt db with ⟨issued, rfl⟩ | same
  · exact List.IsPrefix.trans holds (Jobs.attemptKeys_grow issued db.loop.jobs)
  · rw [Holds, same]
    exact holds

theorem run_holds {schedule : List (Choice GateOperation)}
    {earlier middle later : List (Execution GateStatement GateDb)} {first second : Execution GateStatement GateDb}
    (split : (runGates assemble toLowerCase db schedule).trace = earlier ++ first :: middle ++ second :: later) :
    Holds first.before.attemptKeys second.before := by
  have own : Holds first.before.attemptKeys first.before := List.prefix_refl _
  exact System.run_stretch _ db schedule split (holds_effect own _) fun _ _ holds =>
    holds_effect holds _

theorem counted_throughout (counted : CountedGates db) (schedule : List (Choice GateOperation)) :
    ∀ execution ∈ (runGates assemble toLowerCase db schedule).trace, CountedGates execution.before ∧
        CountedGates (Statement.effect execution.statement execution.before) := by
  have empty : Counted {} := ⟨by decide, by decide, by decide⟩
  refine System.run_history_invariant _ counted schedule ?_
  intro earlier execution later split older holds
  have numbered := System.run_heeds _ db schedule
    (fun operation _ => gateOperation_numbers assemble toLowerCase execution.session operation {}) split
  rcases gateEffect_cases execution.statement execution.before with ⟨issued, isJobs⟩ | same
  · rw [isJobs] at numbered ⊢
    generalize isSteps : stepsIn earlier execution.session = steps at numbered
    rcases List.eq_nil_or_concat' steps with rfl | ⟨front, last, rfl⟩
    · exact Counted.effect holds empty (List.nil_prefix) numbered
    · rw [List.foldl_append] at numbered
      have isLast : last ∈ stepsIn earlier execution.session := by
        rw [isSteps]
        simp
      obtain ⟨found, kept, rfl⟩ := List.mem_map.mp isLast
      have present := List.mem_of_mem_filter kept
      obtain ⟨before, middle, rfl⟩ := List.append_of_mem present
      have grown := run_holds assemble toLowerCase split
      exact Counted.effect holds (older found present) grown numbered
  · exact holds.of_keys same

end

end EveHorizon.Loop
