import EveHorizon.Jobs.ClosedJobs
import EveHorizon.Library.Assumptions

/-!
# What the job queries write

For each job query the updates of `jobs` and of attempts it can issue and the job it can insert
an attempt of, whatever it reads.
-/

namespace EveHorizon.Jobs

open Interleaving Call

structure Writes where
  updates : JobUpdate → Prop := fun _ => False
  attempts : AttemptUpdate → Prop := fun _ => False
  inserts : JobId → Prop := fun _ => False

def Writes.allow (writes : Writes) : JobStatement → Prop
  | .updateJobs update => writes.updates update
  | .updateAttempts update => writes.attempts update
  | .insertAttempt new => writes.inserts new.jobId
  | _ => True

abbrev JobCall.Writes {α : Type} (call : JobCall α) (writes : Writes) : Prop := call.Issues writes.allow

variable (jobId : JobId)

def claimWrites : Writes where
  updates update := ∃ agentId, update = .claimed jobId agentId
  attempts update := ∃ attemptId agentId harness source hash,
    update = .startedPending attemptId agentId harness source hash
  inserts inserted := inserted = jobId

def releaseWrites : Writes where
  updates update := update = .releasedIdle jobId ∨ update = .released jobId
  attempts update := ∃ attemptId summary isFinal, update = .ended attemptId .cancelled summary isFinal

def requeueWrites : Writes where
  updates update := ∃ deferUntil, update = .requeued jobId deferUntil

def submitWrites : Writes where
  updates update := update = .submitted jobId
  attempts update := ∃ attemptId summary, update = .submitted attemptId summary

def approveWrites : Writes where
  updates update := ∃ reviewerId closeReason, update = .approved jobId reviewerId closeReason

def rejectWrites : Writes where
  updates update := ∃ reviewerId, update = .rejected jobId reviewerId
  inserts inserted := inserted = jobId

def phaseWrites (newPhase : Phase) : Writes where
  updates update := ∃ current valid, update = .phaseChanged jobId current newPhase valid

def doneWrites : Writes where
  updates update := (submitWrites jobId).updates update ∨ (phaseWrites jobId .done).updates update
  attempts := (submitWrites jobId).attempts

def closingWrites (disposition : FailureDisposition) : Writes where
  updates update :=
    (∃ reason, update = .closed jobId reason disposition) ∨
    (∃ jobIds, update = .gatesCleared jobIds) ∨
    (∃ reason, update = .cascaded jobId reason) ∨
    ∃ reason childDisposition, update = .backlogChildrenClosed jobId reason childDisposition
  attempts update := ∃ attemptId status summary isFinal,
    update = .ended attemptId status summary isFinal ∧ status ≠ .succeeded

def JobOperation.writes : JobOperation → Writes
  | .claim jobId _ _ => claimWrites jobId
  | .claimNextJob _ _ _ =>
    { updates := fun update => ∃ jobId, (claimWrites jobId).updates update
      attempts := fun update => ∃ jobId, (claimWrites jobId).attempts update
      inserts := fun _ => True }
  | .release jobId _ _ => releaseWrites jobId
  | .requeueReady jobId _ _ _ => requeueWrites jobId
  | .submitForReview jobId _ _ => submitWrites jobId
  | .approveReview jobId _ _ => approveWrites jobId
  | .rejectReview jobId _ _ => rejectWrites jobId
  | .markJobDone jobId _ => doneWrites jobId
  | .cancelJob jobId _ => closingWrites jobId .cancelled
  | .markJobFailed jobId _ => closingWrites jobId .failed
  | .updatePhase jobId newPhase => phaseWrites jobId newPhase
  | .completeAttempt _ _ _ =>
    { attempts := fun update => ∃ attemptId status result isFinal,
        update = .completed attemptId status result isFinal }
  | .passTime _ => {}

theorem JobCall.Writes.within {α : Type} {call : JobCall α} {writes : Jobs.Writes}
    (issues : call.Writes writes) (more : Jobs.Writes) (updates : ∀ update, writes.updates update → more.updates update)
    (attempts : ∀ update, writes.attempts update → more.attempts update)
    (inserts : ∀ jobId, writes.inserts jobId → more.inserts jobId) : call.Writes more := by
  refine Issues.imp issues fun stmt allowed => ?_
  cases stmt with
  | updateJobs update => exact updates update allowed
  | updateAttempts update => exact attempts update allowed
  | insertAttempt new => exact inserts new.jobId allowed
  | _ => trivial

section

variable (jobId : JobId)

theorem updatePhase_writes (newPhase : Phase) : (updatePhase jobId newPhase).Writes (phaseWrites jobId newPhase) := by
  refine Issues.found trivial trivial fun currentJob => ?_
  simp only
  split
  · next valid =>
      split
      · trivial
      · exact Issues.found ⟨_, valid, rfl⟩ trivial fun _ => trivial
  · trivial

theorem claimPending_writes (currentJob : Job) (agentId : String) (harness : Option String)
    (pendingAttempt : JobAttempt) :
    (claimPending currentJob jobId agentId harness pendingAttempt).Writes (claimWrites jobId) := by
  refine Issues.found ⟨_, _, _, _, _, rfl⟩ trivial fun attempt => ?_
  refine Issues.bind (issues_perform ⟨agentId, rfl⟩) fun _ => ?_
  exact ⟨trivial, fun _ => ⟨trivial, fun _ => trivial⟩⟩

theorem insertAttempt_writes {writes : Writes} {new : NewAttempt}
    (inserts : writes.inserts new.jobId) : (insertAttempt new).Writes writes := by
  refine ⟨inserts, fun db => ?_⟩
  beta_reduce
  split <;> trivial

theorem claimReady_writes (currentJob : Job) (agentId : String) (harness : Option String) :
    (claimReady currentJob jobId agentId harness).Writes (claimWrites jobId) := by
  refine Issues.bind (issues_perform trivial) fun count => ?_
  refine Issues.bind (insertAttempt_writes rfl) fun attempt => ?_
  refine Issues.bind (issues_perform ⟨agentId, rfl⟩) fun _ => ?_
  exact ⟨trivial, fun _ => ⟨trivial, fun _ => trivial⟩⟩

variable (agentId : String)

theorem claim_writes (harness : Option String) : (claim jobId agentId harness).Writes (claimWrites jobId) := by
  refine Issues.found trivial trivial fun currentJob => ?_
  simp only
  split
  · trivial
  · refine Issues.bind (issues_perform trivial) fun pending => ?_
    cases pending with
    | some pendingAttempt => exact claimPending_writes jobId currentJob agentId harness _
    | none =>
      simp only
      split
      · trivial
      · exact claimReady_writes jobId currentJob agentId harness

variable (reason : Option String)

theorem release_writes : (release jobId agentId reason).Writes (releaseWrites jobId) := by
  refine Issues.found trivial trivial fun currentJob => ?_
  simp only
  split
  · trivial
  · refine Issues.bind (issues_perform trivial) fun running => ?_
    cases running with
    | none =>
      exact Issues.found (.inl rfl) trivial fun requeuedJob => ⟨trivial, fun _ => trivial⟩
    | some currentAttempt =>
      refine Issues.bind (issues_perform ⟨_, _, _, rfl⟩) fun ended => ?_
      refine Issues.bind (issues_perform (.inr rfl)) fun updated => ?_
      cases ended with
      | none => trivial
      | some endedAttempt => exact ⟨trivial, fun _ => ⟨trivial, fun _ => trivial⟩⟩

theorem requeueReady_writes (actor : String) (deferUntil : Option (Option Timestamp)) (reason : Option String) :
    (requeueReady jobId actor deferUntil reason).Writes (requeueWrites jobId) := by
  refine Issues.found trivial trivial fun currentJob => ?_
  refine Issues.bind (issues_perform ⟨deferUntil, rfl⟩) fun _ => ?_
  exact ⟨trivial, fun _ => trivial⟩

theorem submitForReview_writes (summary : String) :
    (submitForReview jobId agentId summary).Writes (submitWrites jobId) := by
  refine Issues.found trivial trivial fun currentJob => ?_
  simp only
  split
  · trivial
  · refine Issues.found trivial trivial fun activeAttempt => ?_
    refine Issues.bind (issues_perform ⟨_, _, rfl⟩) fun _ => ?_
    exact Issues.found rfl trivial fun updatedJob => ⟨trivial, fun _ => trivial⟩

theorem approveReview_writes (reviewerId : String) (comment : Option String) :
    (approveReview jobId reviewerId comment).Writes (approveWrites jobId) := by
  refine Issues.found trivial trivial fun currentJob => ?_
  simp only
  split
  · trivial
  · refine Issues.bind (issues_perform ⟨_, _, rfl⟩) fun _ => ?_
    exact ⟨trivial, fun _ => trivial⟩

theorem rejectReview_writes (reviewerId reason : String) :
    (rejectReview jobId reviewerId reason).Writes (rejectWrites jobId) := by
  refine Issues.found trivial trivial fun currentJob => ?_
  simp only
  split
  · trivial
  · refine Issues.bind (issues_perform ⟨_, rfl⟩) fun updated => ?_
    refine Issues.bind (issues_perform trivial) fun nextNum => ?_
    refine Issues.bind (insertAttempt_writes rfl) fun attempt => ?_
    exact ⟨trivial, fun _ => trivial⟩

theorem markJobDone_writes (summary : Option String) : (markJobDone jobId summary).Writes (doneWrites jobId) := by
  have submits := fun agentId summary => (submitForReview_writes jobId agentId summary).within
    (doneWrites jobId) (fun _ => .inl) (fun _ => id) fun _ => id
  have finishes := (updatePhase_writes jobId .done).within (doneWrites jobId) (fun _ => .inr)
    (fun _ => False.elim) fun _ => id
  refine Issues.found trivial trivial fun job => ?_
  simp only
  split
  · trivial
  · split
    · split
      · refine Issues.bind (submits _ _) fun _ => ?_
        exact issues_perform trivial
      · exact issues_perform trivial
    · exact finishes.bind fun _ => trivial

theorem closeJobAndAttempt_writes (reason : String) {status : AttemptStatus}
    (unsuccessful : status ≠ .succeeded) (isFinal : status.live = false) (disposition : FailureDisposition) :
    (closeJobAndAttempt jobId reason status isFinal disposition).Writes (closingWrites jobId disposition) := by
  have closes : (do
      let updatedJob ← updateJobs (.closed jobId reason disposition)
      deleteGates [jobId]
      let _ ← updateManyJobs (.gatesCleared [jobId])
      return updatedJob : JobCall (Option Job)).Writes (closingWrites jobId disposition) :=
    ⟨.inl ⟨_, rfl⟩, fun _ => ⟨trivial, fun _ => ⟨.inr (.inl ⟨_, rfl⟩), fun _ => trivial⟩⟩⟩
  exact Issues.found trivial closes fun attempt =>
    ⟨⟨_, _, _, _, rfl, unsuccessful⟩, fun _ => closes⟩

theorem cancelJob_writes : (cancelJob jobId reason).Writes (closingWrites jobId .cancelled) := by
  refine Issues.found trivial trivial fun job => ?_
  simp only
  split
  · trivial
  · refine Issues.bind (closeJobAndAttempt_writes jobId _ (by decide) _ _) fun closed => ?_
    cases closed with
    | none => trivial
    | some updatedJob => exact ⟨.inr (.inr (.inr ⟨_, _, rfl⟩)), fun _ => trivial⟩

theorem markJobFailed_writes : (markJobFailed jobId reason).Writes (closingWrites jobId .failed) := by
  refine Issues.found trivial trivial fun job => ?_
  simp only
  split
  · trivial
  · refine Issues.bind (closeJobAndAttempt_writes jobId _ (by decide) _ _) fun closed => ?_
    cases closed with
    | none => trivial
    | some updatedJob =>
      have ends : ∀ result : Option Job, (do
          let _ ← updateManyJobs (.backlogChildrenClosed jobId
            ("Parent job " ++ jobId ++ " failed") .upstreamFailed)
          return result : JobCall (Option Job)).Writes (closingWrites jobId .failed) :=
        fun _ => ⟨.inr (.inr (.inr ⟨_, _, rfl⟩)), fun _ => trivial⟩
      refine Issues.bind (issues_perform (.inr (.inr (.inl ⟨_, rfl⟩)))) fun cancelled => ?_
      split
      · refine Issues.bind (issues_perform trivial) fun _ => ?_
        refine Issues.bind (issues_perform (.inr (.inl ⟨_, rfl⟩))) fun _ => ?_
        exact ends _
      · exact ends _

end

theorem claimNextJob_writes (projectId : Option String) (agentId : String) (harness : Option String) :
    (claimNextJob projectId agentId harness).Writes (JobOperation.claimNextJob projectId agentId harness).writes := by
  refine Issues.bind (issues_perform trivial) fun readyJobs => ?_
  cases readyJobs with
  | nil => trivial
  | cons job rest =>
    have claims := (claim_writes job.id agentId (harness <|> job.harness <|> job.hints.harness)).within
      (JobOperation.claimNextJob projectId agentId harness).writes
      (fun _ claimed => ⟨job.id, claimed⟩) (fun _ started => ⟨job.id, started⟩) fun _ _ => trivial
    refine Issues.bind claims fun result => ?_
    split
    · exact Issues.found trivial trivial fun _ => trivial
    · trivial

theorem JobOperation.call_writes (operation : JobOperation) : operation.call.Writes operation.writes := by
  cases operation with
  | claim jobId agentId harness => exact (claim_writes jobId agentId harness).bind fun _ => trivial
  | claimNextJob projectId agentId harness =>
    exact (claimNextJob_writes projectId agentId harness).bind fun _ => trivial
  | release jobId agentId reason => exact (release_writes jobId agentId reason).bind fun _ => trivial
  | requeueReady jobId actor deferUntil reason =>
    exact (requeueReady_writes jobId actor deferUntil reason).bind fun _ => trivial
  | submitForReview jobId agentId summary =>
    exact (submitForReview_writes jobId agentId summary).bind fun _ => trivial
  | approveReview jobId reviewerId comment =>
    exact (approveReview_writes jobId reviewerId comment).bind fun _ => trivial
  | rejectReview jobId reviewerId reason =>
    exact (rejectReview_writes jobId reviewerId reason).bind fun _ => trivial
  | markJobDone jobId summary => exact (markJobDone_writes jobId summary).bind fun _ => trivial
  | cancelJob jobId reason => exact (cancelJob_writes jobId reason).bind fun _ => trivial
  | markJobFailed jobId reason => exact (markJobFailed_writes jobId reason).bind fun _ => trivial
  | updatePhase jobId newPhase => exact (updatePhase_writes jobId newPhase).bind fun _ => trivial
  | completeAttempt attemptId status result =>
    exact Issues.bind (issues_perform ⟨_, _, _, _, rfl⟩) fun _ => trivial
  | passTime elapsed => exact issues_perform trivial

end EveHorizon.Jobs
