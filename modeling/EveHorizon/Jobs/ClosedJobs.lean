import EveHorizon.Jobs.Cascade
import EveHorizon.Jobs.LiveAttempts

/-!
# Closed jobs and their attempts

Whole job operations one after another, with the scheduler's `skipConditionalJob` among
them.
-/

namespace EveHorizon.Jobs

open Interleaving Call

inductive SchedulerStatement where
  | job (stmt : JobStatement)
  | skipConditional (jobId : JobId)

def skipRow (now : Timestamp) (row : Job) : Job :=
  { row with
    phase := .done
    closeReason := some "condition_not_met"
    closedAt := some now
    updatedAt := now }

def SchedulerStatement.effect : SchedulerStatement → JobsDb → JobsDb
  | .job statement, db => statement.effect db
  | .skipConditional jobId, db =>
    { db with
      jobs := Table.updateWhere (fun row => row.id == jobId && !row.phase.terminal)
        (skipRow db.now) db.jobs }

instance : Statement SchedulerStatement JobsDb where
  ready _ _ := true
  effect := SchedulerStatement.effect

inductive LifecycleOperation where
  | job (operation : JobOperation)
  | skipConditionalJob (jobId : JobId)

def LifecycleOperation.call : LifecycleOperation → Call SchedulerStatement JobsDb String (Option JobReply)
  | .job operation => (operation.call.lift .job id) >>= fun reply => .ret (some reply)
  | .skipConditionalJob jobId => .perform (.skipConditional jobId) fun _ => none

variable (db : JobsDb)

def HoldsNothing : Prop :=
  ∀ jobId phase, db.phaseOf jobId = some phase → phase.terminal = true →
    ∀ attempt ∈ db.attempts, attempt.jobId = jobId → attempt.status.live = false

def JobsDb.isOpen (jobId : JobId) : Bool := (db.phaseOf jobId).any fun phase => !phase.terminal

def passesPhaseChecks (row : Job) (newPhase : Phase) : Bool :=
  canTransition row.phase newPhase && !(newPhase == .done && row.reviewRequired != .none && row.phase != .review)

def JobOperation.closes : JobOperation → Job → Bool
  | .approveReview jobId _ _, row => row.id == jobId && row.phase == .review
  | .markJobDone jobId _, row =>
    row.id == jobId && row.reviewRequired == .none && canTransition row.phase .done
  | .updatePhase jobId newPhase, row =>
    row.id == jobId && newPhase.terminal && passesPhaseChecks row newPhase
  | .cancelJob jobId _, row =>
    db.isOpen jobId && !row.phase.terminal && (row.id == jobId || row.parentId == some jobId && row.phase == .backlog)
  | .markJobFailed jobId _, row =>
    db.isOpen jobId && !row.phase.terminal && (row.id == jobId || (downstream db.relations jobId).contains row.id ||
        row.parentId == some jobId && row.phase == .backlog)
  | _, _ => false

open JobOperation (closes)

def LifecycleOperation.closes : LifecycleOperation → Job → Bool
  | .job operation, row => operation.closes db row
  | .skipConditionalJob jobId, row => row.id == jobId && !row.phase.terminal

def LifecycleOperation.ends : LifecycleOperation → Option AttemptId
  | .job (.cancelJob jobId _) => db.runningAttempt jobId
  | .job (.markJobFailed jobId _) => db.runningAttempt jobId
  | _ => none

/-- No job that is closed has a live attempt besides the one that is ended. -/
def EndsLive (closes : Job → Bool) (ended : Option AttemptId) : Prop :=
  ∀ row, db.findJob row.id = some row → closes row = true →
    ∀ attempt ∈ db.attempts, attempt.jobId = row.id → attempt.status.live = true → ended = some attempt.id

def LifecycleOperation.LeavesNothing (operation : LifecycleOperation) (db : JobsDb) : Prop :=
  EndsLive db (operation.closes db) (operation.ends db)

def JobStatement.quiet : JobStatement → Bool
  | .insertAttempt _ => false
  | .updateJobs (.approved _ _ _) => false
  | .updateJobs (.phaseChanged _ _ new _) => !new.terminal
  | .updateJobs (.closed _ _ _) => false
  | .updateJobs (.cascaded _ _) => false
  | .updateJobs (.backlogChildrenClosed _ _ _) => false
  | _ => true

open JobStatement (effect quiet)

theorem quiet_update_phase {update : JobUpdate} (quiet : (JobStatement.updateJobs update).quiet)
    (now : Timestamp) (row : Job) :
    (update.changes now row).phase = row.phase ∨ (update.changes now row).phase.terminal = false := by
  cases update with
  | approved | closed | cascaded | backlogChildrenClosed => cases quiet
  | phaseChanged jobId current new valid =>
    exact .inr (by simpa [JobStatement.quiet, JobUpdate.changes] using quiet)
  | requeued jobId deferUntil => exact .inr (by cases deferUntil <;> rfl)
  | gatesCleared jobIds => exact .inl rfl
  | claimed | releasedIdle | released | submitted | rejected => exact .inr rfl

variable {before after : JobsDb}

theorem holdsNothing_of_subset (holds : HoldsNothing before)
    (phases : ∀ jobId phase, after.phaseOf jobId = some phase → phase.terminal = true →
      before.phaseOf jobId = some phase) (attempts : ∀ attempt ∈ after.attempts, attempt.status.live = true →
      ∃ old ∈ before.attempts, old.jobId = attempt.jobId ∧ old.status.live = true) : HoldsNothing after := by
  intro jobId phase found closed attempt member ofJob
  cases isLive : attempt.status.live with
  | false => rfl
  | true =>
    obtain ⟨old, present, sameJob, wasLive⟩ := attempts attempt member isLive
    have ended := holds jobId phase (phases jobId phase found closed) closed old present (sameJob.trans ofJob)
    rw [wasLive] at ended
    cases ended

variable {db : JobsDb}

theorem quiet_keeps {stmt : JobStatement} (quiet : stmt.quiet = true)
    (holds : HoldsNothing db) : HoldsNothing (stmt.effect db) := by
  cases stmt with
  | insertAttempt new => cases quiet
  | select | insertAudit | deleteGates | passTime => exact holds
  | updateAttempts update =>
    refine holdsNothing_of_subset holds (fun _ _ found _ => found) ?_
    intro attempt member isLive
    obtain ⟨old, present, ⟨chosen, rfl⟩ | ⟨_, rfl⟩⟩ := Table.mem_updateWhere member
    · exact ⟨old, present, (attemptUpdate_changes_jobId _ update old).symm, attemptUpdate_live chosen isLive⟩
    · exact ⟨_, present, rfl, isLive⟩
  | updateJobs update =>
    refine holdsNothing_of_subset holds ?_ fun attempt member isLive =>
      ⟨attempt, member, rfl, isLive⟩
    intro jobId phase found closed
    rw [phaseOf_updateJobs] at found
    obtain ⟨row, isRow, isPhase⟩ := Option.map_eq_some_iff.mp found
    rw [JobsDb.phaseOf, isRow, Option.map_some, Option.some.injEq]
    split at isPhase
    · rcases quiet_update_phase quiet db.now row with same | isOpen
      · exact same.symm.trans isPhase
      · rw [isPhase, closed] at isOpen
        cases isOpen
    · exact isPhase

variable {new : NewAttempt}

theorem insertAttempt_keeps (holds : HoldsNothing db)
    (isOpen : ∀ phase, db.phaseOf new.jobId = some phase → phase.terminal = false) :
    HoldsNothing (effect (.insertAttempt new) db) := by
  intro jobId phase found closed attempt member ofJob
  simp only [JobsDb.phaseOf, JobsDb.findJob, insertAttempt_jobs] at found
  cases refused : db.refusal new with
  | some error =>
    simp only [effect, refused] at member
    exact holds jobId phase found closed attempt member ofJob
  | none =>
    simp only [effect, refused, List.mem_append, List.mem_singleton] at member
    rcases member with old | rfl
    · exact holds jobId phase found closed attempt old ofJob
    · have newJob : new.jobId = jobId := ofJob
      have wasOpen := isOpen phase (newJob ▸ found)
      rw [closed] at wasOpen
      cases wasOpen

def Quiet {α : Type} (call : JobCall α) : Prop := call.Issues fun stmt => stmt.quiet = true

variable {α : Type}

theorem Quiet.keeps {call : JobCall α} (quiet : Quiet call) (holds : HoldsNothing db) :
    HoldsNothing (call.alone db).2 :=
  Issues.alone_keeps quiet (fun _ isQuiet _ found => quiet_keeps isQuiet found) holds

theorem claimPending_quiet (currentJob : Job) (jobId : JobId) (agentId : String)
    (harness : Option String) (pendingAttempt : JobAttempt) :
    Quiet (claimPending currentJob jobId agentId harness pendingAttempt) := by
  exact Issues.found rfl trivial fun _ => ⟨rfl, fun _ => ⟨rfl, fun _ => ⟨rfl, fun _ => trivial⟩⟩⟩

variable (jobId : JobId)

theorem release_quiet (agentId : String) (reason : Option String) : Quiet (release jobId agentId reason) := by
  refine Issues.found rfl trivial fun currentJob => ?_
  simp only
  split
  · trivial
  · refine Issues.bind (issues_perform rfl) fun running => ?_
    cases running with
    | none =>
      exact Issues.found rfl trivial fun requeuedJob => ⟨rfl, fun _ => trivial⟩
    | some currentAttempt =>
      refine Issues.bind (issues_perform rfl) fun ended => ?_
      refine Issues.bind (issues_perform rfl) fun updated => ?_
      cases ended with
      | none => trivial
      | some endedAttempt => exact ⟨rfl, fun _ => ⟨rfl, fun _ => trivial⟩⟩

theorem requeueReady_quiet (actor : String) (deferUntil : Option (Option Timestamp)) (reason : Option String) :
    Quiet (requeueReady jobId actor deferUntil reason) := by
  exact Issues.found rfl trivial fun currentJob => ⟨rfl, fun _ => ⟨rfl, fun _ => trivial⟩⟩

theorem submitForReview_quiet (agentId summary : String) : Quiet (submitForReview jobId agentId summary) := by
  refine Issues.found rfl trivial fun currentJob => ?_
  simp only
  split
  · trivial
  · refine Issues.found rfl trivial fun activeAttempt => ?_
    refine Issues.bind (issues_perform rfl) fun _ => ?_
    exact Issues.found rfl trivial fun updatedJob => ⟨rfl, fun _ => trivial⟩

theorem insertAttempt_ends {cont : JobAttempt → JobCall α} (quiet : ∀ attempt, Quiet (cont attempt))
    (holds : HoldsNothing db) (isOpen : ∀ phase, db.phaseOf new.jobId = some phase → phase.terminal = false) :
    HoldsNothing ((insertAttempt new >>= cont).alone db).2 := by
  have inserted := insertAttempt_keeps holds isOpen
  rw [alone_bind]
  simp only [insertAttempt, alone_stmt]
  split
  · next ended =>
    split at ended
    · cases ended
    · cases ended
      exact (quiet _).keeps inserted
  · next ended =>
    split at ended
    · cases ended
      exact inserted
    · cases ended

theorem claim_keeps (holds : HoldsNothing db) (jobId : JobId) (agentId : String)
    (harness : Option String) : HoldsNothing ((claim jobId agentId harness).alone db).2 := by
  simp only [claim, findById, select, alone_perform_bind]
  cases found : db.findJob jobId with
  | none => exact holds
  | some currentJob =>
    simp only
    split
    · exact holds
    · simp only [alone_perform_bind]
      split
      · exact (claimPending_quiet _ _ _ _ _).keeps holds
      · split
        · exact holds
        · next isReady =>
          refine insertAttempt_ends (fun attempt => ?_) holds ?_
          · exact ⟨rfl, fun _ => ⟨rfl, fun _ => ⟨rfl, fun _ => trivial⟩⟩⟩
          · intro phase isPhase
            have ready : currentJob.phase = .ready := by simpa using isReady
            have same : currentJob.phase = phase := by
              change (db.findJob jobId).map (·.phase) = some phase at isPhase
              simpa [found] using isPhase
            rw [← same, ready]
            rfl

theorem claimNextJob_keeps (holds : HoldsNothing db) (projectId : Option String) (agentId : String)
    (harness : Option String) : HoldsNothing ((claimNextJob projectId agentId harness).alone db).2 := by
  simp only [claimNextJob, getReadyJobs, select, alone_perform_bind]
  split
  · exact holds
  · next job rest _ =>
    have claimed : (claim job.id agentId (harness <|> job.harness <|> job.hints.harness)).Ends
        (fun _ after => HoldsNothing after) db := claim_keeps holds _ _ _
    change Ends (fun _ after => HoldsNothing after) _ db
    refine claimed.bind ?_ fun _ _ kept => kept
    intro result reached kept
    split
    · refine Quiet.keeps (Issues.bind (issues_perform rfl) fun refetched => ?_) kept
      cases refetched with
      | none | some updatedJob => trivial
    · exact kept

theorem rejectReview_keeps (holds : HoldsNothing db) (jobId : JobId) (reviewerId reason : String) :
    HoldsNothing ((rejectReview jobId reviewerId reason).alone db).2 := by
  simp only [rejectReview, findById, select, alone_perform_bind]
  cases found : db.findJob jobId with
  | none => exact holds
  | some currentJob =>
    simp only
    split
    · exact holds
    · simp only [updateJobs, alone_perform_bind]
      refine insertAttempt_ends (fun attempt => ?_) ?_ ?_
      · exact ⟨rfl, fun _ => trivial⟩
      · have rejected : HoldsNothing (effect (.updateJobs (.rejected jobId reviewerId)) db) := quiet_keeps rfl holds
        exact rejected
      · intro phase isPhase
        change (effect (.updateJobs (.rejected jobId reviewerId)) db).phaseOf jobId = some phase at isPhase
        rw [phaseOf_updateJobs, found, Option.map_some] at isPhase
        have chosen : (JobUpdate.rejected jobId reviewerId).selects db currentJob = true := by
          simp [JobUpdate.selects, findJob_id found]
        rw [if_pos chosen, Option.some.injEq] at isPhase
        rw [← isPhase]
        rfl

variable {ended : Option AttemptId} {closes : Job → Bool} {phase : JobId → Option JobId → Phase → Phase}

theorem Rewritten.holdsNothing_iff (rewritten : Rewritten before after phase ended)
    (closed : ∀ row, before.findJob row.id = some row → (phase row.id row.parentId row.phase).terminal =
      (row.phase.terminal || closes row))
    (holds : HoldsNothing before) : HoldsNothing after ↔ EndsLive before closes ended := by
  obtain ⟨rewrite, changed, rows⟩ := rewritten.attempts
  constructor
  · intro kept row found isClosed attempt member ofJob isLive
    by_contra other
    have stays := (rows attempt).2 other
    have present : attempt ∈ after.attempts := by
      rw [changed, ← stays]
      exact List.mem_map_of_mem member
    have terminal := closed row found
    rw [isClosed, Bool.or_true] at terminal
    have dead := kept row.id _ (by rw [rewritten.phaseOf, found]; rfl) terminal attempt present ofJob
    rw [isLive] at dead
    cases dead
  · intro leaves jobId final found terminal attempt member ofJob
    rw [changed] at member
    obtain ⟨old, present, rfl⟩ := List.mem_map.mp member
    by_cases isEnded : ended = some old.id
    · exact ((rows old).1 isEnded).2.2
    · rw [(rows old).2 isEnded] at ofJob ⊢
      rw [rewritten.phaseOf] at found
      obtain ⟨row, isRow, rfl⟩ := Option.map_eq_some_iff.mp found
      have isJob := findJob_id isRow
      subst isJob
      rw [closed row isRow, Bool.or_eq_true] at terminal
      rcases terminal with already | isClosed
      · exact holds row.id row.phase (by rw [JobsDb.phaseOf, isRow]; rfl) already old present ofJob
      · cases isLive : old.status.live with
        | false => rfl
        | true => exact absurd (leaves row isRow isClosed old present ofJob isLive) isEnded

theorem Rewritten.audited (rewritten : Rewritten before after phase ended) (entry : AuditEntry) :
    Rewritten before (effect (.insertAudit entry) after) phase ended :=
  ⟨rewritten.jobs, rewritten.attempts, rewritten.relations⟩

theorem leaves_of_none (none : ∀ row, db.findJob row.id = some row → closes row = false) :
    EndsLive db closes ended := by
  intro row found isClosed
  rw [none row found] at isClosed
  cases isClosed

theorem isOpen_eq {jobId : JobId} {job : Job} (found : db.findJob jobId = some job) :
    db.isOpen jobId = !job.phase.terminal := by
  simp [JobsDb.isOpen, JobsDb.phaseOf, found]

theorem not_isOpen {jobId : JobId} (closed : ∀ job, db.findJob jobId = some job → job.phase.terminal = true) :
    db.isOpen jobId = false := by
  cases found : db.findJob jobId with
  | none => simp [JobsDb.isOpen, JobsDb.phaseOf, found]
  | some job => rw [isOpen_eq found, closed job found, Bool.not_true]

theorem cancelJob_iff (holds : HoldsNothing db) (jobId : JobId) (reason : Option String) :
    HoldsNothing ((cancelJob jobId reason).alone db).2 ↔ EndsLive db (JobOperation.closes db (.cancelJob jobId reason))
        (db.runningAttempt jobId) := by
  rcases db.closed_or_open jobId with closed | ⟨job, found, isOpen⟩
  · rw [(closing_calls_skip closed reason).1]
    refine iff_of_true holds (leaves_of_none fun row _ => ?_)
    simp [closes, not_isOpen closed]
  · rw [cancelJob_open found isOpen]
    refine (cancelOpen_alone found isOpen reason).holdsNothing_iff ?_ holds
    intro row _
    simp only [closes, isOpen_eq found, isOpen, cancelling, closingBacklog, closing]
    cases row.phase <;> by_cases named : row.id = jobId <;>
      by_cases child : row.parentId = some jobId <;> simp [named, child, Phase.terminal]

theorem markJobFailed_iff (holds : HoldsNothing db) (jobId : JobId) (reason : Option String) :
    HoldsNothing ((markJobFailed jobId reason).alone db).2 ↔
      EndsLive db (JobOperation.closes db (.markJobFailed jobId reason)) (db.runningAttempt jobId) := by
  rcases db.closed_or_open jobId with closed | ⟨job, found, isOpen⟩
  · rw [(closing_calls_skip closed reason).2]
    refine iff_of_true holds (leaves_of_none fun row _ => ?_)
    simp [closes, not_isOpen closed]
  · rw [markJobFailed_open found isOpen]
    refine (failOpen_alone found isOpen reason).holdsNothing_iff ?_ holds
    intro row _
    simp only [closes, isOpen_eq found, isOpen, failing, closingBacklog, cascading, closing]
    by_cases reached : (downstream db.relations jobId).contains row.id = true <;>
      by_cases named : (row.id == jobId) = true <;>
      by_cases child : (row.parentId == some jobId) = true <;>
      cases row.phase <;> simp_all [Phase.terminal]

def moving (moves : Phase → Bool) (new : Phase) : JobId → Option JobId → Phase → Phase :=
  fun id _ phase => if id == jobId && moves phase then new else phase

section

variable {db : JobsDb} {jobId : JobId} {closes : Job → Bool}
variable (named : ∀ row, closes row = true → row.id = jobId)

include named

theorem refused_iff {after : JobsDb} {ended : Option AttemptId}
    (refused : ∀ job, db.findJob jobId = some job → closes job = false) (kept : HoldsNothing after) :
    HoldsNothing after ↔ EndsLive db closes ended := by
  refine iff_of_true kept (leaves_of_none fun row isRow => ?_)
  cases isClosed : closes row with
  | false => rfl
  | true =>
    rw [named row isClosed] at isRow
    rw [← isClosed]
    exact refused row isRow

theorem moving_iff {after : JobsDb} {moves : Phase → Bool} {new : Phase}
    (rewritten : Rewritten db after (moving jobId moves new) none) {job : Job} (found : db.findJob jobId = some job)
    (closed : (if moves job.phase then new else job.phase).terminal = (job.phase.terminal || closes job))
    (holds : HoldsNothing db) :
    HoldsNothing after ↔ EndsLive db closes none := by
  refine rewritten.holdsNothing_iff ?_ holds
  intro row isRow
  by_cases isNamed : row.id = jobId
  · rw [isNamed, found] at isRow
    cases isRow
    simpa [moving, isNamed] using closed
  · have open_row : closes row = false := by
      cases isClosed : closes row with
      | false => rfl
      | true => exact absurd (named row isClosed) isNamed
    simp [moving, isNamed, open_row]

end

theorem approveReview_iff (holds : HoldsNothing db) (jobId : JobId) (reviewerId : String) (comment : Option String) :
    HoldsNothing ((approveReview jobId reviewerId comment).alone db).2 ↔
      EndsLive db (JobOperation.closes db (.approveReview jobId reviewerId comment)) none := by
  have named : ∀ row, closes db (.approveReview jobId reviewerId comment) row = true → row.id = jobId := by
    intro row isClosed
    simp only [closes, Bool.and_eq_true, beq_iff_eq] at isClosed
    exact isClosed.1
  simp only [approveReview, findById, select, alone_perform_bind]
  cases found : db.findJob jobId with
  | none => exact refused_iff named (by simp [found]) holds
  | some job =>
    simp only
    split
    · next notReview =>
      exact refused_iff named (by simp [found, JobOperation.closes, notReview]) holds
    · next inReview =>
      have isReview : job.phase = .review := by simpa using inReview
      let update := JobUpdate.approved jobId reviewerId (comment.getD "Review approved")
      have rewritten : Rewritten db (effect (.updateJobs update) db) (moving jobId (fun _ => true) .done) none :=
        rewritten_updateJobs db update fun row => by
          simp [update, JobUpdate.selects, JobUpdate.changes, moving]
      refine moving_iff named (rewritten.audited _) found ?_ holds
      simp [closes, findJob_id found, isReview, Phase.terminal]

theorem updatePhase_iff (holds : HoldsNothing db) (jobId : JobId) (newPhase : Phase) :
    HoldsNothing ((updatePhase jobId newPhase).alone db).2 ↔
      EndsLive db (JobOperation.closes db (.updatePhase jobId newPhase)) none := by
  have named : ∀ row, closes db (.updatePhase jobId newPhase) row = true → row.id = jobId := by
    intro row isClosed
    simp only [closes, Bool.and_eq_true, beq_iff_eq] at isClosed
    exact isClosed.1.1
  simp only [updatePhase, findById, select, alone_perform_bind]
  cases found : db.findJob jobId with
  | none => exact refused_iff named (by simp [found]) holds
  | some job =>
    simp only
    split
    · next valid =>
      have wasOpen : job.phase.terminal = false := by
        cases isClosed : job.phase.terminal with
        | false => rfl
        | true =>
          rw [not_canTransition_of_terminal isClosed] at valid
          cases valid
      split
      · next refused =>
        exact refused_iff named (by simp [found, JobOperation.closes, passesPhaseChecks, refused]) holds
      · next allowed =>
        let update := JobUpdate.phaseChanged jobId job.phase newPhase valid
        have rewritten : Rewritten db (effect (.updateJobs update) db) (moving jobId (· == job.phase) newPhase) none :=
          rewritten_updateJobs db update fun row => by
            simp only [update, JobUpdate.selects, JobUpdate.changes, moving]
            rfl
        have moved := moving_iff named rewritten found (by
          have passes : passesPhaseChecks job newPhase = true := by
            simp only [passesPhaseChecks, valid, Bool.true_and, Bool.not_eq_true',
              Bool.and_eq_false_imp, Bool.and_eq_true, beq_iff_eq, bne_iff_ne, bne_eq_false_iff_eq]
            exact fun both => not_not.mp fun other => allowed ⟨both.1, both.2, other⟩
          simp [closes, findJob_id found, wasOpen, passes]) holds
        simp only [updateJobs, alone_perform_bind]
        split
        · exact moved
        · exact moved
    · next invalid =>
      exact refused_iff named (by simp [found, JobOperation.closes, passesPhaseChecks, invalid]) holds

theorem markJobDone_iff (holds : HoldsNothing db) (jobId : JobId) (summary : Option String) :
    HoldsNothing ((markJobDone jobId summary).alone db).2 ↔
      EndsLive db (JobOperation.closes db (.markJobDone jobId summary)) none := by
  have named : ∀ row, closes db (.markJobDone jobId summary) row = true → row.id = jobId := by
    intro row isClosed
    simp only [closes, Bool.and_eq_true, beq_iff_eq] at isClosed
    exact isClosed.1.1
  simp only [markJobDone, findById, select, alone_perform_bind]
  cases found : db.findJob jobId with
  | none => exact refused_iff named (by simp [found]) holds
  | some job =>
    simp only
    split
    · next isClosed =>
      exact refused_iff named (by simp [found, JobOperation.closes, not_canTransition_of_terminal isClosed]) holds
    · split
      · next reviewed =>
        refine refused_iff named (by simp [found, JobOperation.closes, reviewed]) ?_
        split
        · refine Quiet.keeps (Issues.bind (submitForReview_quiet _ _ _) fun _ => ?_) holds
          exact issues_perform rfl
        · exact holds
      · next unreviewed =>
        have direct := updatePhase_iff holds jobId .done
        have sameCloses : ∀ row, db.findJob row.id = some row → closes db (.updatePhase jobId .done) row =
              closes db (.markJobDone jobId summary) row := by
          intro row isRow
          by_cases isNamed : row.id = jobId
          · rw [isNamed, found] at isRow
            cases isRow
            have noReview : job.reviewRequired = .none := not_not.mp unreviewed
            simp [closes, passesPhaseChecks, noReview, Phase.terminal]
          · have other : (row.id == jobId) = false := by simpa using isNamed
            simp only [closes, other, Bool.false_and]
        have leaves : EndsLive db (closes db (.updatePhase jobId .done)) none ↔
            EndsLive db (closes db (.markJobDone jobId summary)) none :=
          forall₂_congr fun row isRow => by rw [sameCloses row isRow]
        rw [← leaves, ← direct]
        exact iff_of_eq (congrArg HoldsNothing (alone_bind_ret _ _ _))

theorem reported_iff {operation : JobOperation} {query : JobCall α} {reply : α → JobReply}
    (reports : operation.call = query >>= fun value => .ret (reply value)) (decided : HoldsNothing (query.alone db).2 ↔
      EndsLive db (operation.closes db) ((LifecycleOperation.job operation).ends db)) :
    HoldsNothing ((LifecycleOperation.job operation).call.alone db).2 ↔
      (LifecycleOperation.job operation).LeavesNothing db := by
  have agrees : ∀ (stmt : JobStatement) (store : JobsDb),
      id (Statement.effect (SchedulerStatement.job stmt) store) =
        Statement.effect stmt (id store) := fun _ _ => rfl
  have lifted : ((operation.call.lift SchedulerStatement.job id).alone db).2 =
      (operation.call.alone db).2 := (alone_lift agrees operation.call db).2
  rw [LifecycleOperation.call, alone_bind_ret, lifted, reports, alone_bind_ret]
  exact decided

theorem quiet_iff (none : ∀ row, closes row = false) (kept : HoldsNothing after) :
    HoldsNothing after ↔ EndsLive db closes ended :=
  iff_of_true kept (leaves_of_none fun row _ => none row)

theorem skipConditionalJob_iff (holds : HoldsNothing db) (jobId : JobId) :
    HoldsNothing ((LifecycleOperation.skipConditionalJob jobId).call.alone db).2 ↔
      (LifecycleOperation.skipConditionalJob jobId).LeavesNothing db := by
  have rewritten : Rewritten db (SchedulerStatement.effect (.skipConditional jobId) db)
      (moving jobId (fun phase => !phase.terminal) .done) none := {
    jobs := by
      refine ⟨_, rfl, fun row => ?_⟩
      cases chosen : row.id == jobId && !row.phase.terminal <;> simp [moving, skipRow, chosen]
    attempts := ⟨id, by simp [SchedulerStatement.effect], fun _ => ⟨by simp, fun _ => rfl⟩⟩
    relations := rfl }
  refine rewritten.holdsNothing_iff ?_ holds
  intro row _
  cases named : row.id == jobId <;> cases current : row.phase <;>
    simp [moving, LifecycleOperation.closes, named, current, Phase.terminal]

theorem operation_iff (operation : LifecycleOperation) (db : JobsDb) (holds : HoldsNothing db) :
    HoldsNothing (operation.call.alone db).2 ↔ operation.LeavesNothing db := by
  cases operation with
  | skipConditionalJob jobId => exact skipConditionalJob_iff holds jobId
  | job operation =>
    cases operation with
    | claim jobId agentId harness =>
      exact reported_iff rfl (quiet_iff (fun _ => rfl) (claim_keeps holds _ _ _))
    | claimNextJob projectId agentId harness =>
      exact reported_iff rfl (quiet_iff (fun _ => rfl) (claimNextJob_keeps holds _ _ _))
    | release jobId agentId reason =>
      exact reported_iff rfl (quiet_iff (fun _ => rfl) ((release_quiet _ _ _).keeps holds))
    | requeueReady jobId actor deferUntil reason =>
      exact reported_iff rfl (quiet_iff (fun _ => rfl) ((requeueReady_quiet _ _ _ _).keeps holds))
    | submitForReview jobId agentId summary =>
      exact reported_iff rfl (quiet_iff (fun _ => rfl) ((submitForReview_quiet _ _ _).keeps holds))
    | approveReview jobId reviewerId comment =>
      exact reported_iff rfl (approveReview_iff holds _ _ _)
    | rejectReview jobId reviewerId reason =>
      exact reported_iff rfl (quiet_iff (fun _ => rfl) (rejectReview_keeps holds _ _ _))
    | markJobDone jobId summary => exact reported_iff rfl (markJobDone_iff holds _ _)
    | cancelJob jobId reason => exact reported_iff rfl (cancelJob_iff holds _ _)
    | markJobFailed jobId reason => exact reported_iff rfl (markJobFailed_iff holds _ _)
    | updatePhase jobId newPhase => exact reported_iff rfl (updatePhase_iff holds _ _)
    | completeAttempt attemptId status result =>
      have quiet : Quiet (completeAttempt attemptId status result) := issues_perform rfl
      exact reported_iff rfl (quiet_iff (fun _ => rfl) (quiet.keeps holds))
    | passTime elapsed =>
      exact iff_of_true holds (leaves_of_none fun _ _ => rfl)

/-- In every sequential run, closed jobs hold no live attempt after any operation exactly
when every operation closes only jobs whose live attempts it ends. -/
theorem closed_jobs_hold_nothing_iff {db : JobsDb} (holds : HoldsNothing db) (operations : List LifecycleOperation) :
    (∀ stage ∈ stages LifecycleOperation.call operations db, HoldsNothing stage.after) ↔
      ∀ stage ∈ stages LifecycleOperation.call operations db, stage.operation.LeavesNothing stage.before :=
  stages_invariant_iff operation_iff operations holds

def unclaimedJob : JobsDb :=
  { jobs := [{ id := "job", projectId := "proj", phase := .ready }] }

/-- Claiming a job and cancelling it ends the attempt the claim started. -/
theorem cancelled_claim_holds_nothing : HoldsNothing unclaimedJob ∧ ∀ stage ∈ stages LifecycleOperation.call
        [.job (.claim "job" "agent" none), .job (.cancelJob "job" none)] unclaimedJob, HoldsNothing stage.after := by
  have holds : HoldsNothing unclaimedJob := fun _ _ _ _ _ none => nomatch none
  refine ⟨holds, (closed_jobs_hold_nothing_iff holds _).mpr ?_⟩
  simp only [stages, List.forall_mem_cons]
  refine ⟨leaves_of_none fun _ _ => rfl, ?_, by simp⟩
  have claimed : ∀ attempt ∈ ((LifecycleOperation.job (.claim "job" "agent" none)).call.alone unclaimedJob).2.attempts,
      ((LifecycleOperation.job (.claim "job" "agent" none)).call.alone
        unclaimedJob).2.runningAttempt "job" = some attempt.id := by
    decide
  exact fun _ _ _ attempt member _ _ => claimed attempt member

def readyDependent : JobsDb :=
  { jobs := [{ id := "upstream", projectId := "proj", phase := .ready },
      { id := "dependent", projectId := "proj", phase := .ready }]
    relations := [⟨"dependent", "upstream", .blocks⟩] }

def claimBothFailOne : List LifecycleOperation :=
  [.job (.claim "upstream" "agent" none), .job (.claim "dependent" "agent" none), .job (.markJobFailed "upstream" none)]

/-- The cascade of a failure closes the dependent and leaves its attempt running. -/
theorem cascade_keeps_running_attempt : ¬ ∀ (db : JobsDb) (operations : List LifecycleOperation), HoldsNothing db →
      ∀ stage ∈ stages LifecycleOperation.call operations db, HoldsNothing stage.after := by
  intro throughout
  have kept := throughout readyDependent claimBothFailOne fun _ _ _ _ _ none => nomatch none
  simp only [claimBothFailOne, stages, List.forall_mem_cons] at kept
  obtain ⟨_, _, failed, _⟩ := kept
  have dead := failed "dependent" .cancelled (by decide) rfl
    { id := 1, jobId := "dependent", attemptNumber := 1, status := .running
      agentId := some "agent" } (by decide) rfl
  cases dead

end EveHorizon.Jobs
