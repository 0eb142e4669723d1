import EveHorizon.Loop.Claiming

/-!
# Rows that keep a job from being claimed

One search for a job to claim, with nothing beside it.
-/

namespace EveHorizon.Loop

open Interleaving Call Option
open Jobs (JobId AttemptId Timestamp Phase Job JobAttempt JobsDb JobCall JobStatement AttemptUpdate NewAttempt)
open OrchestratorStatement (effect)

variable (db : JobsDb) (jobId : JobId)

def numberTaken : Bool :=
  db.attempts.any fun row =>
    row.jobId == jobId && row.attemptNumber == db.attemptCount jobId + 1

def hasPending : Bool := (db.latestAttempt jobId (· == .pending)).isSome

def Startable : Prop :=
  ∃ row, db.findJob jobId = some row ∧ (((row.phase = .ready ∨ row.phase = .active) ∧ hasPending db jobId = true) ∨
      (row.phase = .ready ∧ numberTaken db jobId = false))

def Refusing : Prop :=
  ∀ row, db.findJob jobId = some row → row.phase ≠ .ready ∧ (row.phase = .active → hasPending db jobId = false)

section

variable {db : JobsDb} {jobId : JobId} {agentId : String} {harness : Option String} (currentJob : Job)

theorem claimPending_starts {pendingAttempt : JobAttempt}
    (found : db.latestAttempt jobId (· == .pending) = some pendingAttempt) :
    ∃ attempt, ((Jobs.claimPending currentJob jobId agentId harness pendingAttempt).alone db).1 =
      .ok { success := true, attempt := some attempt } := by
  obtain ⟨listed, isPending⟩ := List.mem_filter.mp (Table.latest_mem _ found)
  rw [Bool.and_eq_true] at isPending
  let update := AttemptUpdate.startedPending pendingAttempt.id agentId harness
    currentJob.harnessProfileSource currentJob.harnessProfileHash
  have selects : update.selects pendingAttempt = true := by
    simp [update, AttemptUpdate.selects, isPending.2]
  obtain ⟨row, selected⟩ := isSome_iff_exists.mp (List.find?_isSome.mpr ⟨pendingAttempt, listed, selects⟩)
  have returned : Table.returning update.selects (update.changes db.now) db.attempts =
      some (update.changes db.now row) := by
    rw [Table.returning, selected, map_some]
  refine ⟨update.changes db.now row, ?_⟩
  rw [Jobs.claimPending, alone_bind, Jobs.updateAttempts, alone_perform, returned]
  rfl

theorem insertAttempt_alone (new : NewAttempt) (db : JobsDb) : ((Jobs.insertAttempt new).alone db).1 =
      match db.refusal new with
      | some error => .error error
      | none => .ok (new.row db.nextAttempt db.now) := by
  rw [Jobs.insertAttempt, alone_stmt]
  cases db.refusal new with
  | none | some error => rfl

def nextAttempt (db : JobsDb) (currentJob : Job) (jobId : JobId) (agentId : String)
    (harness : Option String) : NewAttempt where
  jobId := jobId
  attemptNumber := db.attemptCount jobId + 1
  status := .running
  triggerType := .manual
  harness := harness
  agentId := some agentId
  harnessProfileSource := currentJob.harnessProfileSource
  harnessProfileHash := currentJob.harnessProfileHash

theorem claimReady_alone : ((Jobs.claimReady currentJob jobId agentId harness).alone db).1 =
      match db.refusal (nextAttempt db currentJob jobId agentId harness) with
      | some error => .error error
      | none => .ok { success := true
                      attempt := some ((nextAttempt db currentJob jobId agentId harness).row
                        db.nextAttempt db.now) } := by
  have inserted := insertAttempt_alone (nextAttempt db currentJob jobId agentId harness) db
  rw [Jobs.claimReady, alone_bind, Jobs.select, alone_perform]
  change (Call.alone (Jobs.insertAttempt (nextAttempt db currentJob jobId agentId harness) >>= _) db).1 = _
  rw [alone_bind]
  rcases ended : (Jobs.insertAttempt (nextAttempt db currentJob jobId agentId harness)).alone db with
    ⟨result, found⟩
  rw [ended] at inserted
  cases refused : db.refusal (nextAttempt db currentJob jobId agentId harness) with
  | none | some error =>
    rw [refused] at inserted
    cases inserted
    rfl

theorem refusal_eq_none {new : NewAttempt} (present : (db.findJob new.jobId).isSome)
    (free : ∀ row ∈ db.attempts, row.jobId = new.jobId → row.attemptNumber ≠ new.attemptNumber) :
    db.refusal new = none := by
  unfold JobsDb.refusal
  rw [if_neg, if_neg]
  · simpa [isSome_iff_ne_none] using present
  · simpa using free

theorem claimReady_starts (present : (db.findJob jobId).isSome) (free : numberTaken db jobId = false) :
    ∃ attempt, ((Jobs.claimReady currentJob jobId agentId harness).alone db).1 =
      .ok { success := true, attempt := some attempt } := by
  have accepted : db.refusal (nextAttempt db currentJob jobId agentId harness) = none := by
    apply refusal_eq_none present
    simpa [numberTaken, nextAttempt] using free
  rw [claimReady_alone, accepted]
  exact ⟨_, rfl⟩

theorem claimReady_throws (taken : numberTaken db jobId = true) :
    ∃ error, ((Jobs.claimReady currentJob jobId agentId harness).alone db).1 = .error error := by
  have refused : ∃ error, db.refusal (nextAttempt db currentJob jobId agentId harness) = some error := ⟨_, if_pos taken⟩
  obtain ⟨error, refused⟩ := refused
  rw [claimReady_alone, refused]
  exact ⟨error, rfl⟩

theorem claim_alone (jobId : JobId) (agentId : String) (harness : Option String) (db : JobsDb) :
    (Jobs.claim jobId agentId harness).alone db =
      match db.findJob jobId with
      | none => (.ok { success := false, error := some ("Job not found: " ++ jobId) }, db)
      | some currentJob =>
        if currentJob.phase ≠ .ready ∧ currentJob.phase ≠ .active then
          (.ok { success := false, error := some ("Job must be in 'ready' or 'active' phase " ++
            "to claim (current: " ++ currentJob.phase.text ++ ")") }, db)
        else
          match db.latestAttempt jobId (· == .pending) with
          | some pendingAttempt =>
            (Jobs.claimPending currentJob jobId agentId harness pendingAttempt).alone db
          | none =>
            if currentJob.phase ≠ .ready then
              (.ok { success := false, error := some ("Job must be in 'ready' phase to claim " ++
                "(current: " ++ currentJob.phase.text ++ ")") }, db)
            else (Jobs.claimReady currentJob jobId agentId harness).alone db := by
  rw [Jobs.claim, alone_bind, Jobs.findById, Jobs.select, alone_perform]
  cases db.findJob jobId with
  | none => rfl
  | some currentJob =>
    dsimp only
    split
    · rfl
    · rw [alone_bind, Jobs.select, alone_perform]
      change Call.alone (match db.latestAttempt jobId (· == .pending) with
        | some pendingAttempt => _
        | none => _) db = _
      cases db.latestAttempt jobId (· == .pending) with
      | some pendingAttempt => rfl
      | none =>
        dsimp only
        split
        · rfl
        · rfl

theorem claim_starts (startable : Startable db jobId) :
    ∃ attempt, ((Jobs.claim jobId agentId harness).alone db).1 = .ok { success := true, attempt := some attempt } := by
  obtain ⟨row, found, able⟩ := startable
  have claimable : ¬ (row.phase ≠ .ready ∧ row.phase ≠ .active) := by
    rcases able with ⟨phase, _⟩ | ⟨phase, _⟩
    · rintro ⟨notReady, notActive⟩
      exact phase.elim notReady notActive
    · exact fun wrong => wrong.1 phase
  rw [claim_alone, found]
  dsimp only
  rw [if_neg claimable]
  cases pending : db.latestAttempt jobId (· == .pending) with
  | some pendingAttempt => exact claimPending_starts row pending
  | none =>
    rw [hasPending, pending] at able
    obtain ⟨isReady, free⟩ := able.resolve_left (by simp)
    dsimp only
    rw [if_neg (not_not_intro isReady)]
    exact claimReady_starts row (isSome_iff_exists.mpr ⟨row, found⟩) free

theorem claim_refuses (refusing : Refusing db jobId) :
    ∃ result, (Jobs.claim jobId agentId harness).alone db = (.ok result, db) ∧ result.success = false := by
  rw [claim_alone]
  cases found : db.findJob jobId with
  | none => exact ⟨_, rfl, rfl⟩
  | some row =>
    obtain ⟨notReady, idle⟩ := refusing row found
    dsimp only
    split
    · exact ⟨_, rfl, rfl⟩
    · next phase =>
        have isActive : row.phase = .active := by
          by_contra notActive
          exact phase ⟨notReady, notActive⟩
        have none := idle isActive
        rw [hasPending, isSome_eq_false_iff, isNone_iff_eq_none] at none
        rw [none]
        dsimp only
        exact ⟨_, rfl, rfl⟩

theorem claim_throws (notStartable : ¬ Startable db jobId) (notRefusing : ¬ Refusing db jobId) :
    ∃ error, ((Jobs.claim jobId agentId harness).alone db).1 = .error error := by
  unfold Refusing at notRefusing
  push Not at notRefusing
  obtain ⟨row, found, able⟩ := notRefusing
  have unable : ¬ (((row.phase = .ready ∨ row.phase = .active) ∧ hasPending db jobId = true) ∨
      (row.phase = .ready ∧ numberTaken db jobId = false)) :=
    fun starts => notStartable ⟨row, found, starts⟩
  have isReady : row.phase = .ready := by
    by_contra notReady
    obtain ⟨isActive, pending⟩ := able notReady
    exact unable (.inl ⟨.inr isActive, by simpa using pending⟩)
  have none : db.latestAttempt jobId (· == .pending) = none := by
    by_contra pending
    exact unable (.inl ⟨.inl isReady, isSome_iff_ne_none.mpr pending⟩)
  have taken : numberTaken db jobId = true := by
    by_contra free
    exact unable (.inr ⟨isReady, by simpa using free⟩)
  rw [claim_alone, found]
  dsimp only
  rw [if_neg fun wrong => wrong.1 isReady, none]
  dsimp only
  rw [if_neg (not_not_intro isReady)]
  exact claimReady_throws row taken

end

section

variable (parseJson : String → Option Json) (budgets : Budgets)

def Skipped (db : OrchestratorDb) (job : Job) : Prop :=
  (JobsDb.conditionOf parseJson db.jobs job).any (!·.shouldRun) = true

instance (db : OrchestratorDb) (job : Job) : Decidable (Skipped parseJson db job) :=
  inferInstanceAs (Decidable (_ = true))

/-- Neither its condition nor its budget is in the way of the job. -/
def Admitted (db : OrchestratorDb) (job : Job) : Prop :=
  ¬ Skipped parseJson db job ∧ db.loop.budgetBlock budgets job = none

def passOver (db : OrchestratorDb) (job : Job) : OrchestratorDb :=
  if Skipped parseJson db job then effect (.skipConditional job.id) db
  else
    match db.loop.budgetBlock budgets job with
    | some reason => effect (.annotateBudgetBlocked job.id reason) db
    | none => effect (.clearBudgetBlocked job.id) db

/-- The search comes to a candidate that it claims, past others that it does not try to claim or
whose claim is refused. -/
inductive Reaches : OrchestratorDb → List Job → Prop where
  | claimed {db : OrchestratorDb} {job : Job} {rest : List Job} :
      Admitted parseJson budgets db job → Startable db.jobs job.id → Reaches db (job :: rest)
  | passed {db : OrchestratorDb} {job : Job} {rest : List Job} :
      (Admitted parseJson budgets db job → Refusing db.jobs job.id) →
      Reaches (passOver parseJson budgets db job) rest → Reaches db (job :: rest)

variable {parseJson budgets} {db : OrchestratorDb} {job : Job} {agentId : String} (jobId : JobId)

theorem findJob_touchJob (wanted : JobId) (jobs : JobsDb) :
    (touchJob jobId jobs).findJob wanted = (jobs.findJob wanted).map fun row =>
      if row.id == jobId then { row with updatedAt := jobs.now } else row :=
  Table.find?_updateWhere Job.id (·.id == jobId) (fun row => { row with updatedAt := jobs.now })
    (fun _ _ => rfl) jobs.jobs wanted

theorem touched_iff (property : Job → Prop) (jobId wanted : JobId) (jobs : JobsDb)
    (same : ∀ row : Job, property { row with updatedAt := jobs.now } ↔ property row) :
    (∃ row, (touchJob jobId jobs).findJob wanted = some row ∧ property row) ↔
      ∃ row, jobs.findJob wanted = some row ∧ property row := by
  rw [findJob_touchJob]
  cases jobs.findJob wanted with
  | none => simp
  | some row =>
    rw [map_some]
    split
    · simp [same]
    · rfl

theorem startable_cleared : Startable (effect (.clearBudgetBlocked jobId) db).jobs jobId ↔ Startable db.jobs jobId := by
  rw [effect]
  split
  · rfl
  · exact touched_iff _ jobId jobId db.jobs fun _ => Iff.rfl

theorem refusing_cleared : Refusing (effect (.clearBudgetBlocked jobId) db).jobs jobId ↔ Refusing db.jobs jobId := by
  rw [effect]
  split
  · rfl
  · have touched := touched_iff (fun row => ¬ (row.phase ≠ .ready ∧
      (row.phase = .active → hasPending db.jobs jobId = false))) jobId jobId db.jobs fun _ => Iff.rfl
    have negated := not_congr touched
    push Not at negated
    exact negated

theorem query_ids {α : Type} (call : JobCall α) (db : JobsDb) :
    (call.alone db).2.jobs.map (·.id) = db.jobs.map (·.id) := by
  have ids := call_ids (onJobs call) { jobs := db }
  rw [alone_onJobs] at ids
  exact ids

theorem claimCandidate_claims (startable : Startable db.jobs job.id) :
    ∃ claimed found, (claimCandidate agentId job).alone db = (.ok (some claimed), found) := by
  obtain ⟨attempt, starts⟩ := claim_starts startable
  have ids := query_ids (Jobs.claim job.id agentId (job.harness <|> job.hints.harness)) db.jobs
  rw [claimCandidate, alone_bind, alone_querying]
  rcases ended : (Jobs.claim job.id agentId (job.harness <|> job.hints.harness)).alone db.jobs with
    ⟨result, after⟩
  rw [ended] at starts ids
  cases starts
  obtain ⟨row, found, _⟩ := startable
  have listed : job.id ∈ after.jobs.map (·.id) := ids ▸ exists_findJob_iff.mp ⟨row, found⟩
  obtain ⟨updatedJob, still⟩ := exists_findJob_iff.mpr listed
  dsimp only
  rw [alone_bind, Jobs.findById, alone_querying_select, OrchestratorDb.jobs_withJobs, still]
  exact ⟨_, _, rfl⟩

theorem claimCandidate_refuses (refusing : Refusing db.jobs job.id) :
    (claimCandidate agentId job).alone db = (.ok none, db) := by
  obtain ⟨result, refuses, failed⟩ := claim_refuses refusing
  rw [claimCandidate, alone_bind, alone_querying, refuses]
  dsimp only
  rw [failed]
  rfl

theorem claimCandidate_throws (notStartable : ¬ Startable db.jobs job.id) (notRefusing : ¬ Refusing db.jobs job.id) :
    ∃ error found, (claimCandidate agentId job).alone db = (.error error, found) := by
  obtain ⟨error, throws⟩ := claim_throws notStartable notRefusing
  rw [claimCandidate, alone_bind, alone_querying]
  rcases ended : (Jobs.claim job.id agentId (job.harness <|> job.hints.harness)).alone db.jobs with
    ⟨result, after⟩
  rw [ended] at throws
  cases throws
  exact ⟨_, _, rfl⟩

theorem considerCandidate_alone : (considerCandidate parseJson budgets agentId job).alone db =
      if Skipped parseJson db job ∨ (db.loop.budgetBlock budgets job).isSome then
        (.ok none, passOver parseJson budgets db job)
      else (claimCandidate agentId job).alone (passOver parseJson budgets db job) := by
  have checked : (checkJobAdmissionBudget budgets job).alone db = (.ok (db.loop.budgetBlock budgets job), db) := by
    rw [checkJobAdmissionBudget, alone_recovering, alone_live]
    rfl
  unfold passOver
  rw [considerCandidate, alone_bind, evaluateStepCondition_alone]
  dsimp only
  change Call.alone (if Skipped parseJson db job then _ else _) db = _
  by_cases skipped : Skipped parseJson db job
  · rw [if_pos skipped, if_pos skipped, if_pos (Or.inl skipped)]
    rfl
  · rw [if_neg skipped, if_neg skipped, alone_bind, checked]
    dsimp only
    cases blocked : db.loop.budgetBlock budgets job with
    | some reason =>
      rw [if_pos (.inr rfl)]
      rfl
    | none =>
      rw [if_neg (by simp [skipped])]
      rfl

theorem admitted_iff : Admitted parseJson budgets db job ↔
    ¬ (Skipped parseJson db job ∨ (db.loop.budgetBlock budgets job).isSome) := by
  rw [Admitted, not_or, not_isSome_iff_eq_none]

theorem passOver_admitted (admitted : Admitted parseJson budgets db job) :
    passOver parseJson budgets db job = effect (.clearBudgetBlocked job.id) db := by
  rw [passOver, if_neg admitted.1, admitted.2]

theorem claimFirst_iff {agentOf : Job → String} {candidates : List Job} {db : OrchestratorDb} :
    (∃ claimed found, (claimFirst parseJson budgets agentOf candidates).alone db = (.ok (some claimed), found)) ↔
      Reaches parseJson budgets db candidates := by
  induction candidates generalizing db with
  | nil =>
    constructor
    · intro claims
      obtain ⟨claimed, found, nothing⟩ := claims
      cases nothing
    · intro nowhere
      cases nowhere
  | cons job rest ih =>
    have turn := @considerCandidate_alone parseJson budgets db job (agentOf job)
    rw [claimFirst, alone_bind]
    by_cases admitted : Admitted parseJson budgets db job
    · rw [if_neg (admitted_iff.mp admitted), passOver_admitted admitted] at turn
      by_cases startable : Startable db.jobs job.id
      · obtain ⟨claimed, found, claims⟩ :=
          claimCandidate_claims ((startable_cleared job.id).mpr startable)
        rw [turn, claims]
        exact iff_of_true ⟨claimed, found, rfl⟩ (.claimed admitted startable)
      · by_cases refusing : Refusing db.jobs job.id
        · rw [turn, claimCandidate_refuses ((refusing_cleared job.id).mpr refusing)]
          dsimp only
          rw [ih, ← passOver_admitted admitted]
          constructor
          · exact .passed fun _ => refusing
          · intro reaches
            cases reaches with
            | claimed _ starts => exact absurd starts startable
            | passed _ later => exact later
        · obtain ⟨error, found, throws⟩ := claimCandidate_throws (mt (startable_cleared job.id).mp startable) (mt
            (refusing_cleared job.id).mp refusing)
          rw [turn, throws]
          apply iff_of_false
          · intro claims
            obtain ⟨claimed, other, impossible⟩ := claims
            cases impossible
          · intro reaches
            cases reaches with
            | claimed _ starts => exact startable starts
            | passed refuses _ => exact refusing (refuses admitted)
    · rw [if_pos (not_not.mp (mt admitted_iff.mpr admitted))] at turn
      rw [turn]
      dsimp only
      rw [ih]
      constructor
      · exact .passed fun isAdmitted => absurd isAdmitted admitted
      · intro reaches
        cases reaches with
        | claimed isAdmitted _ => exact absurd isAdmitted admitted
        | passed _ later => exact later

end

def readyQueue (db : JobsDb) : List Job :=
  (db.jobs.filter fun row =>
    db.projects.contains row.projectId && ("" == "" || row.projectId == "") &&
    (row.phase == .ready || row.phase == .active) && row.assignee.isNone && (match row.deferUntil with
      | none => true
      | some deferUntil => decide (deferUntil ≤ db.now)) &&
    !db.isBlocked row.id).insertionSort fun left right =>
      left.priority < right.priority ∨ (left.priority = right.priority ∧ left.createdAt ≤ right.createdAt)

theorem getReadyJobs_alone (limit : Nat) (db : JobsDb) :
    (Jobs.getReadyJobs "" limit).alone db = (.ok ((readyQueue db).take limit), db) := rfl

section

variable (parseJson : String → Option Json) (budgets : Budgets)

structure Claimable (db : OrchestratorDb) (row : Job) : Prop where
  filed : row ∈ db.jobs.jobs
  ofProject : row.projectId ∈ db.jobs.projects
  ready : row.phase = .ready
  unassigned : row.assignee = none
  undeferred : ∀ deferUntil ∈ row.deferUntil, deferUntil ≤ db.jobs.now
  unblocked : db.jobs.isBlocked row.id = false
  runs : ¬ Skipped parseJson db row
  withinBudget : db.loop.budgetBlock budgets row = none

def FindsJob (db : OrchestratorDb) : Prop :=
  ∃ claimed found, (claimNextJobWithBudgetCheck parseJson budgets).alone db = (.ok (some claimed), found)

variable {parseJson budgets}

theorem findsJob_iff {db : OrchestratorDb} :
    FindsJob parseJson budgets db ↔ Reaches parseJson budgets db ((readyQueue db.jobs).take 20) := by
  have search : (claimNextJobWithBudgetCheck parseJson budgets).alone db =
      (claimFirst parseJson budgets (fun _ => "orchestrator") ((readyQueue db.jobs).take 20)).alone db := by
    rw [claimNextJobWithBudgetCheck, alone_bind, alone_querying, getReadyJobs_alone]
    rfl
  rw [FindsJob, search]
  exact claimFirst_iff

theorem no_starvation_iff (parseJson : String → Option Json) (budgets : Budgets) (db : OrchestratorDb) :
    ((∃ row, Claimable parseJson budgets db row) → FindsJob parseJson budgets db) ↔
      ((∃ row, Claimable parseJson budgets db row) → Reaches parseJson budgets db ((readyQueue db.jobs).take 20)) := by
  rw [findsJob_iff]

def runningRoot (index : Nat) : Job where
  id := "root-" ++ toString index
  projectId := "proj_1"
  phase := .active
  hints := { workflowRoot := true }
  createdAt := index

def lateJob : Job where
  id := "job"
  projectId := "proj_1"
  phase := .ready
  createdAt := 20

def crowded : OrchestratorDb where
  loop :=
    { jobs := { projects := ["proj_1"], jobs := (List.range 20).map runningRoot ++ [lateJob] }
      projects := [{ id := "proj_1", orgId := "org_1" }] }

theorem ready_job_starves : ¬ ∀ (parseJson : String → Option Json) (budgets : Budgets) (db : OrchestratorDb),
      (∃ row, Claimable parseJson budgets db row) → FindsJob parseJson budgets db := by
  intro finds
  have claimable : Claimable (fun _ => none) (fun _ => .ok {}) crowded lateJob := by
    constructor
    · exact List.mem_append_right _ (List.mem_singleton_self _)
    · decide
    · rfl
    · rfl
    · exact nofun
    · decide
    · decide
    · rfl
  have nothing : ((claimNextJobWithBudgetCheck (fun _ => none) (fun _ => .ok {})).alone crowded).1 = .ok none := by
    decide +kernel
  obtain ⟨claimed, found, ended⟩ := finds _ _ crowded ⟨lateJob, claimable⟩
  rw [ended] at nothing
  cases nothing

end

end EveHorizon.Loop
