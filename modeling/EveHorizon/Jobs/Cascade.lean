import EveHorizon.Jobs.TerminalPhases
import EveHorizon.Library.Closure
import EveHorizon.Library.Solo

/-!
# The failure cascade

What `cancelJob` and `markJobFailed` leave behind when nothing interleaves with them: the
phase of every job after the call as a function of its phase before, and the attempt the
call ends.
-/

namespace EveHorizon.Jobs

open Interleaving List Call
open JobStatement (effect)

def DependsOn (relations : List JobRelation) (dependent blocker : JobId) : Prop :=
  ∃ relation ∈ relations, relation.relationType.blocking = true ∧
    relation.jobId = dependent ∧ relation.relatedJobId = blocker

variable {relations : List JobRelation} {dependent : JobId} {known : List JobId} {root : JobId}

theorem mem_downstreamStep : dependent ∈ downstreamStep relations root known ↔
      ∃ blocker, DependsOn relations dependent blocker ∧ (blocker = root ∨ blocker ∈ known) := by
  simp only [downstreamStep, mem_dedup, mem_map, mem_filter, Bool.and_eq_true,
    Bool.or_eq_true, beq_iff_eq, contains_iff_mem]
  constructor
  · rintro ⟨relation, ⟨member, isBlocking, reached⟩, rfl⟩
    exact ⟨_, ⟨relation, member, isBlocking, rfl, rfl⟩, reached⟩
  · rintro ⟨_, ⟨relation, member, isBlocking, rfl, rfl⟩, reached⟩
    exact ⟨relation, ⟨member, isBlocking, reached⟩, rfl⟩

theorem downstreamStep_grows (relations : List JobRelation) (root : JobId) {more : List JobId} (grows : known ⊆ more) :
    downstreamStep relations root known ⊆ downstreamStep relations root more := by
  intro dependent member
  obtain ⟨blocker, depends, reached⟩ := mem_downstreamStep.mp member
  exact mem_downstreamStep.mpr ⟨blocker, depends, reached.imp_right fun old => grows old⟩

theorem downstreamStep_within (relations : List JobRelation) (root : JobId) (known : List JobId) :
    downstreamStep relations root known ⊆ relations.map (·.jobId) := by
  intro dependent member
  obtain ⟨_, ⟨relation, present, _, rfl, _⟩, _⟩ := mem_downstreamStep.mp member
  exact mem_map_of_mem present

theorem mem_downstream :
    dependent ∈ downstream relations root ↔ Relation.TransGen (DependsOn relations) dependent root := by
  have closed : downstreamStep relations root (downstream relations root) ⊆ downstream relations root := by
    have reached := Closure.closed_after_bound
      (fun {_ _} => downstreamStep_grows relations root)
      (downstreamStep_within relations root)
    rwa [length_map] at reached
  constructor
  · intro member
    have sound : ∀ round, ∀ known ∈ (downstreamStep relations root)^[round] [],
        Relation.TransGen (DependsOn relations) known root := by
      intro round
      induction round with
      | zero => exact fun _ none => absurd none not_mem_nil
      | succ round ih =>
        intro known member
        rw [Function.iterate_succ_apply'] at member
        obtain ⟨blocker, depends, rfl | earlier⟩ := mem_downstreamStep.mp member
        · exact .single depends
        · exact .head depends (ih blocker earlier)
    exact sound relations.length dependent member
  · intro depends
    induction depends using Relation.TransGen.head_induction_on with
    | single depends =>
      exact closed (mem_downstreamStep.mpr ⟨root, depends, .inl rfl⟩)
    | head depends _ ih =>
      exact closed (mem_downstreamStep.mpr ⟨_, depends, .inr ih⟩)

/-- The jobs after a call, as phases computed from each job's id, parent and phase
before it, and the attempts after it: all as before but for the one it ended. -/
structure Rewritten (before after : JobsDb) (phase : JobId → Option JobId → Phase → Phase)
    (ended : Option AttemptId) : Prop where
  jobs : ∃ rewrite : Job → Job, after.jobs = before.jobs.map rewrite ∧
    ∀ row, (rewrite row).id = row.id ∧ (rewrite row).parentId = row.parentId ∧
      (rewrite row).phase = phase row.id row.parentId row.phase
  attempts : ∃ rewrite : JobAttempt → JobAttempt, after.attempts = before.attempts.map rewrite ∧
    ∀ row, (ended = some row.id → (rewrite row).id = row.id ∧ (rewrite row).jobId = row.jobId ∧
        (rewrite row).status.live = false) ∧ (ended ≠ some row.id → rewrite row = row)
  relations : after.relations = before.relations

namespace Rewritten

variable {before middle after : JobsDb} {first second : JobId → Option JobId → Phase → Phase}
variable {ended : Option AttemptId}

theorem unchanged (jobs : after.jobs = before.jobs) (attempts : after.attempts = before.attempts)
    (relations : after.relations = before.relations) :
    Rewritten before after (fun _ _ phase => phase) none where
  jobs := ⟨id, by simpa using jobs, fun _ => ⟨rfl, rfl, rfl⟩⟩
  attempts := ⟨id, by simpa using attempts, fun _ => ⟨by simp, fun _ => rfl⟩⟩
  relations := relations

theorem trans (earlier : Rewritten before middle first ended)
    (later : Rewritten middle after second none) :
    Rewritten before after
      (fun id parent phase => second id parent (first id parent phase)) ended where
  jobs := by
    obtain ⟨rewrite, changed, rows⟩ := earlier.jobs
    obtain ⟨again, changedAgain, rowsAgain⟩ := later.jobs
    refine ⟨again ∘ rewrite, by rw [changedAgain, changed, map_map], ?_⟩
    intro row
    obtain ⟨sameId, sameParent, phase⟩ := rows row
    obtain ⟨sameId', sameParent', phase'⟩ := rowsAgain (rewrite row)
    exact ⟨sameId'.trans sameId, sameParent'.trans sameParent, by
      rw [Function.comp_apply, phase', sameId, sameParent, phase]⟩
  attempts := by
    obtain ⟨rewrite, changed, rows⟩ := earlier.attempts
    obtain ⟨again, changedAgain, rowsAgain⟩ := later.attempts
    have same : again = id := by
      funext row
      exact (rowsAgain row).2 (by simp)
    refine ⟨rewrite, by rw [changedAgain, same, map_id, changed], rows⟩
  relations := later.relations.trans earlier.relations

theorem phaseOf (rewritten : Rewritten before after first ended) (jobId : JobId) :
    after.phaseOf jobId = (before.findJob jobId).map fun row => first jobId row.parentId row.phase := by
  obtain ⟨rewrite, changed, rows⟩ := rewritten.jobs
  have same : (fun row : Job => row.id == jobId) ∘ rewrite = fun row => row.id == jobId := by
    funext row
    simp [(rows row).1]
  rw [JobsDb.phaseOf, JobsDb.findJob, changed, find?_map, same, Option.map_map]
  cases found : before.jobs.find? fun row => row.id == jobId with
  | none => simp [JobsDb.findJob, found]
  | some row =>
    have isJob : row.id = jobId := findJob_id found
    simp [JobsDb.findJob, found, (rows row).2.2, isJob]

end Rewritten

@[simp] theorem JobUpdate.changes_parentId (now : Timestamp) (update : JobUpdate) (row : Job) :
    (update.changes now row).parentId = row.parentId := by
  cases update with
  | requeued jobId deferUntil => cases deferUntil <;> rfl
  | _ => rfl

variable {phase : JobId → Option JobId → Phase → Phase} (db : JobsDb)

theorem rewritten_updateJobs (update : JobUpdate)
    (writes : ∀ row, (if update.selects db row then (update.changes db.now row).phase else row.phase) =
      phase row.id row.parentId row.phase) :
    Rewritten db (effect (.updateJobs update) db) phase none where
  jobs := by
    refine ⟨_, rfl, ?_⟩
    intro row
    have written := writes row
    cases chosen : update.selects db row with
    | true =>
      rw [chosen] at written
      exact ⟨update.changes_id db.now row, update.changes_parentId db.now row, written⟩
    | false =>
      rw [chosen] at written
      exact ⟨rfl, rfl, written⟩
  attempts := ⟨id, by simp [effect], fun _ => ⟨by simp, fun _ => rfl⟩⟩
  relations := rfl

variable (jobId : JobId)

def closing : JobId → Option JobId → Phase → Phase :=
  fun id _ phase => if id == jobId && !phase.terminal then .cancelled else phase

def cascading (relations : List JobRelation) (jobId : JobId) : JobId → Option JobId → Phase → Phase :=
  fun id _ phase =>
    if (downstream relations jobId).contains id && !phase.terminal then .cancelled else phase

def closingBacklog : JobId → Option JobId → Phase → Phase :=
  fun _ parent phase => if parent == some jobId && phase == .backlog then .cancelled else phase

def JobsDb.runningAttempt (jobId : JobId) : Option AttemptId :=
  (db.latestAttempt jobId (· == .running)).map (·.id)

theorem rewritten_ended (attemptId : AttemptId) (status : AttemptStatus) (summary : String)
    (isFinal : status.live = false) :
    Rewritten db (effect (.updateAttempts (.ended attemptId status summary isFinal)) db)
      (fun _ _ phase => phase) (some attemptId) where
  jobs := ⟨id, by simp [effect], fun _ => ⟨rfl, rfl, rfl⟩⟩
  attempts := by
    refine ⟨_, rfl, ?_⟩
    intro row
    constructor
    · intro ended
      have chosen : (row.id == attemptId) = true := by simpa using ended.symm
      simp [AttemptUpdate.selects, AttemptUpdate.changes, chosen, isFinal]
    · intro other
      have skipped : (row.id == attemptId) = false := by simpa using Ne.symm other
      simp [AttemptUpdate.selects, skipped]
  relations := rfl

theorem rewritten_ungated (jobIds : List JobId) :
    Rewritten db (effect (.updateJobs (.gatesCleared jobIds))
      (effect (.deleteGates jobIds) db)) (fun _ _ phase => phase) none := by
  have deleted : Rewritten db (effect (.deleteGates jobIds) db) (fun _ _ phase => phase) none := .unchanged rfl rfl rfl
  exact deleted.trans (rewritten_updateJobs _ _ fun row => by
    simp [JobUpdate.selects, JobUpdate.changes])

def closeRow (reason : String) (disposition : FailureDisposition) : JobCall (Option Job) := do
  let updatedJob ← updateJobs (.closed jobId reason disposition)
  deleteGates [jobId]
  let _ ← updateManyJobs (.gatesCleared [jobId])
  return updatedJob

theorem cancelled_final : AttemptStatus.cancelled.live = false := rfl

theorem failed_final : AttemptStatus.failed.live = false := rfl

variable {db : JobsDb} {jobId : JobId} {job : Job}

theorem closeRow_alone (present : job ∈ db.jobs) (isJob : job.id = jobId)
    (isOpen : job.phase.terminal = false) (reason : String) (disposition : FailureDisposition) :
    (closeRow jobId reason disposition).Ends (fun result after =>
      (∃ closed, result = .ok (some closed)) ∧ Rewritten db after (closing jobId) none) db := by
  let update := JobUpdate.closed jobId reason disposition
  have selected : update.selects db job = true := by simp [update, JobUpdate.selects, isJob, isOpen]
  obtain ⟨row, isRow⟩ := Option.isSome_iff_exists.mp (find?_isSome.mpr ⟨job, present, selected⟩)
  have closed : Rewritten db (effect (.updateJobs update) db) (closing jobId) none :=
    rewritten_updateJobs db update fun row => by
      simp [update, JobUpdate.selects, JobUpdate.changes, closeJob, closing]
  refine ⟨⟨update.changes db.now row, ?_⟩, closed.trans (rewritten_ungated _ [jobId])⟩
  change Except.ok (Table.returning (update.selects db) (update.changes db.now) db.jobs) = _
  rw [Table.returning, isRow, Option.map_some]

section

variable (found : db.findJob jobId = some job)
include found

section

variable (isOpen : job.phase.terminal = false)
include isOpen

theorem closeJobAndAttempt_alone (reason : String) (status : AttemptStatus) (isFinal : status.live = false)
    (disposition : FailureDisposition) : (closeJobAndAttempt jobId reason status isFinal disposition).Ends
      (fun result after => (∃ closed, result = .ok (some closed)) ∧
        Rewritten db after (closing jobId) (db.runningAttempt jobId)) db := by
  have present : job ∈ db.jobs := mem_of_find?_eq_some found
  have isJob := findJob_id found
  cases running : db.latestAttempt jobId (· == .running) with
  | none =>
    have same : (closeJobAndAttempt jobId reason status isFinal disposition).alone db =
        (closeRow jobId reason disposition).alone db := by
      simp only [closeJobAndAttempt, getCurrentAttempt, select, alone_perform_bind, running]
      rfl
    rw [Ends, same, JobsDb.runningAttempt, running, Option.map_none]
    exact closeRow_alone present isJob isOpen reason disposition
  | some attempt =>
    let ended := effect
      (.updateAttempts (.ended attempt.id status reason isFinal)) db
    have same : (closeJobAndAttempt jobId reason status isFinal disposition).alone db =
        (closeRow jobId reason disposition).alone ended := by
      simp only [closeJobAndAttempt, getCurrentAttempt, select, alone_perform_bind, running]
      rfl
    have stillPresent : job ∈ ended.jobs := present
    obtain ⟨closes, rewritten⟩ := closeRow_alone stillPresent isJob isOpen reason disposition
    rw [Ends, same, JobsDb.runningAttempt, running, Option.map_some]
    exact ⟨closes, (rewritten_ended db attempt.id status reason isFinal).trans rewritten⟩

def cancelOpen (jobId : JobId) (reason : Option String) : JobCall (Option Job) := do
  match ← closeJobAndAttempt jobId (reason.getD "Job cancelled") .cancelled cancelled_final .cancelled with
  | none => return none
  | some updatedJob =>
    let _ ← updateManyJobs (.backlogChildrenClosed jobId ("Parent job " ++ jobId ++ " cancelled") .cancelled)
    return some updatedJob

def failOpen (jobId : JobId) (reason : Option String) : JobCall (Option Job) := do
  match ← closeJobAndAttempt jobId (reason.getD "Job failed") .failed failed_final .failed with
  | none => return none
  | some updatedJob =>
    let cancelled ← updateManyJobs (.cascaded jobId ("Upstream job " ++ jobId ++ " failed"))
    if cancelled ≠ [] then
      deleteGates cancelled
      let _ ← updateManyJobs (.gatesCleared cancelled)
    let _ ← updateManyJobs (.backlogChildrenClosed jobId ("Parent job " ++ jobId ++ " failed") .upstreamFailed)
    return some updatedJob

variable (reason : Option String)

theorem cancelJob_open : (cancelJob jobId reason).alone db = (cancelOpen jobId reason).alone db := by
  simp only [cancelJob, findById, select, alone_perform_bind, found, isOpen]
  rfl

theorem markJobFailed_open : (markJobFailed jobId reason).alone db = (failOpen jobId reason).alone db := by
  simp only [markJobFailed, findById, select, alone_perform_bind, found, isOpen]
  rfl

omit isOpen in
omit found in
theorem JobsDb.closed_or_open (db : JobsDb) (jobId : JobId) :
    (∀ job, db.findJob jobId = some job → job.phase.terminal = true) ∨
      ∃ job, db.findJob jobId = some job ∧ job.phase.terminal = false := by
  cases found : db.findJob jobId with
  | none => exact .inl fun _ impossible => nomatch impossible
  | some job =>
    cases isClosed : job.phase.terminal with
    | false => exact .inr ⟨job, rfl, isClosed⟩
    | true =>
      refine .inl fun other same => ?_
      cases same
      exact isClosed

omit isOpen in
omit found in
theorem closing_calls_skip (closed : ∀ job, db.findJob jobId = some job → job.phase.terminal = true)
    (reason : Option String) :
    ((cancelJob jobId reason).alone db).2 = db ∧ ((markJobFailed jobId reason).alone db).2 = db := by
  cases found : db.findJob jobId with
  | none =>
    simp only [cancelJob, markJobFailed, findById, select, alone_perform_bind, found]
    exact ⟨rfl, rfl⟩
  | some job =>
    have isClosed := closed job found
    simp only [cancelJob, markJobFailed, findById, select, alone_perform_bind, found, isClosed]
    exact ⟨rfl, rfl⟩

def cancelling (jobId : JobId) : JobId → Option JobId → Phase → Phase :=
  fun id parent phase => closingBacklog jobId id parent (closing jobId id parent phase)

def failing (relations : List JobRelation) (jobId : JobId) : JobId → Option JobId → Phase → Phase :=
  fun id parent phase => closingBacklog jobId id parent
    (cascading relations jobId id parent (closing jobId id parent phase))

omit isOpen in
omit found in
theorem rewritten_backlogChildrenClosed (db : JobsDb) (jobId : JobId) (reason : String)
    (disposition : FailureDisposition) :
    Rewritten db (effect (.updateJobs (.backlogChildrenClosed jobId reason disposition)) db)
      (closingBacklog jobId) none :=
  rewritten_updateJobs db _ fun row => by
    simp [JobUpdate.selects, JobUpdate.changes, closeJob, closingBacklog]

theorem cancelOpen_alone : (cancelOpen jobId reason).Ends (fun _ after =>
      Rewritten db after (cancelling jobId) (db.runningAttempt jobId)) db := by
  refine (closeJobAndAttempt_alone found isOpen _ .cancelled rfl .cancelled).bind ?_ ?_
  · rintro value reached ⟨⟨closed, isClosed⟩, rewritten⟩
    cases isClosed
    exact rewritten.trans (rewritten_backlogChildrenClosed reached jobId _ .cancelled)
  · rintro error reached ⟨⟨closed, isClosed⟩, _⟩
    cases isClosed

theorem failOpen_alone : (failOpen jobId reason).Ends (fun _ after =>
      Rewritten db after (failing db.relations jobId) (db.runningAttempt jobId)) db := by
  refine (closeJobAndAttempt_alone found isOpen _ .failed rfl .failed).bind ?_ ?_
  · rintro value reached ⟨⟨closed, isClosed⟩, rewritten⟩
    cases isClosed
    let update := JobUpdate.cascaded jobId ("Upstream job " ++ jobId ++ " failed")
    let cascadedDb := effect (.updateJobs update) reached
    have sameRelations : reached.relations = db.relations := rewritten.relations
    have cascade : Rewritten reached cascadedDb (cascading db.relations jobId) none :=
      rewritten_updateJobs reached update fun row => by
        simp [update, JobUpdate.selects, JobUpdate.changes, closeJob, cascading, sameRelations]
    have both := rewritten.trans cascade
    simp only [Ends, updateManyJobs, alone_perform_bind]
    split
    · exact (both.trans (rewritten_ungated cascadedDb _)).trans
        (rewritten_backlogChildrenClosed _ jobId _ .upstreamFailed)
    · exact both.trans (rewritten_backlogChildrenClosed cascadedDb jobId _ .upstreamFailed)
  · rintro error reached ⟨⟨closed, isClosed⟩, _⟩
    cases isClosed

end

end

def ClosedBy (before after : JobsDb) (jobId : JobId) : Prop :=
  ∃ phase, before.phaseOf jobId = some phase ∧ phase.terminal = false ∧ after.phaseOf jobId = some .cancelled

variable (db)

/-- The checks of `claim` pass: the job is ready, or active with a pending attempt. -/
def JobsDb.Claimable (jobId : JobId) : Prop :=
  db.phaseOf jobId = some .ready ∨ db.phaseOf jobId = some .active ∧
      ∃ attempt ∈ db.attempts, attempt.jobId = jobId ∧ attempt.status = .pending

def ChildOf (child parent : JobId) : Prop :=
  ∃ row ∈ db.jobs, row.id = child ∧ row.parentId = some parent

def AllClosed (jobId : JobId) : Prop :=
  ∀ phase, db.phaseOf jobId = some phase → phase.terminal = true

def CascadeComplete (before after : JobsDb) : Prop :=
  ∀ closed, ClosedBy before after closed →
    (∀ dependent, Relation.TransGen (DependsOn before.relations) dependent closed → AllClosed after dependent) ∧
    ∀ descendant, Relation.TransGen (ChildOf before) descendant closed → ¬ after.Claimable descendant

theorem failing_of_downstream (depends : Relation.TransGen (DependsOn relations) dependent jobId)
    (parent : Option JobId) (phase : Phase) : (failing relations jobId dependent parent phase).terminal = true := by
  have reached : (downstream relations jobId).contains dependent = true := by
    rw [contains_iff_mem]
    exact mem_downstream.mpr depends
  have cascaded : (cascading relations jobId dependent parent
      (closing jobId dependent parent phase)).terminal = true := by
    simp only [cascading, reached, Bool.true_and]
    split
    · rfl
    · next isClosed => simpa using isClosed
  simp only [failing, closingBacklog]
  split
  · rfl
  · exact cascaded

theorem failing_self (relations : List JobRelation) (jobId : JobId) (parent : Option JobId)
    {phase : Phase} (isOpen : phase.terminal = false) : failing relations jobId jobId parent phase = .cancelled := by
  have closed : closing jobId jobId parent phase = .cancelled := by simp [closing, isOpen]
  rw [failing, closed]
  simp [cascading, closingBacklog, Phase.terminal]

theorem failing_others {id : JobId} {parent : Option JobId} {phase : Phase} (other : id ≠ jobId)
    (upstream : ¬ Relation.TransGen (DependsOn relations) id jobId)
    (noStagedChild : ¬ (parent = some jobId ∧ phase = .backlog)) : failing relations jobId id parent phase = phase := by
  have notOwn : closing jobId id parent phase = phase := by simp [closing, other]
  have notReached : (downstream relations jobId).contains id = false := by
    rw [Bool.eq_false_iff, ne_eq, contains_iff_mem]
    exact fun reached => upstream (mem_downstream.mp reached)
  have notCascaded : cascading relations jobId id parent phase = phase := by
    rw [cascading, notReached, Bool.false_and]
    rfl
  have notStaged : closingBacklog jobId id parent phase = phase := by
    simp only [closingBacklog, Bool.and_eq_true, beq_iff_eq]
    exact if_neg noStagedChild
  rw [failing, notOwn, notCascaded, notStaged]

theorem failing_cases (relations : List JobRelation) (jobId id : JobId) (parent : Option JobId) (phase : Phase) :
    failing relations jobId id parent phase = phase ∨ failing relations jobId id parent phase = .cancelled := by
  simp only [failing, closingBacklog, cascading, closing]
  split_ifs <;> simp

theorem failing_backlog_child (relations : List JobRelation) (jobId id : JobId) (phase : Phase) :
    failing relations jobId id (some jobId) phase ≠ .backlog := by
  simp only [failing, closingBacklog, beq_self_eq_true, Bool.true_and, beq_iff_eq]
  split
  · simp
  · assumption

variable {ended : Option AttemptId} {before after : JobsDb}

theorem Rewritten.claimable (rewritten : Rewritten before after phase ended)
    (closes : ∀ id parent old, phase id parent old = old ∨ phase id parent old = .cancelled)
    (claimable : after.Claimable jobId) : before.Claimable jobId := by
  have kept : ∀ {current : Phase}, current ≠ .cancelled → after.phaseOf jobId = some current →
      before.phaseOf jobId = some current := by
    intro current isOpen found
    rw [rewritten.phaseOf] at found
    obtain ⟨row, isRow, isPhase⟩ := Option.map_eq_some_iff.mp found
    rcases closes jobId row.parentId row.phase with same | cancelled
    · rw [JobsDb.phaseOf, isRow, Option.map_some, ← isPhase, same]
    · exact absurd (isPhase.symm.trans cancelled) isOpen
  rcases claimable with ready | ⟨active, attempt, member, ofJob, pending⟩
  · exact .inl (kept (by decide) ready)
  · refine .inr ⟨kept (by decide) active, ?_⟩
    obtain ⟨rewrite, changed, rows⟩ := rewritten.attempts
    rw [changed] at member
    obtain ⟨old, present, rfl⟩ := mem_map.mp member
    by_cases isEnded : ended = some old.id
    · have isFinal := ((rows old).1 isEnded).2.2
      rw [pending] at isFinal
      cases isFinal
    · rw [(rows old).2 isEnded] at ofJob pending
      exact ⟨old, present, ofJob, pending⟩

theorem markJobFailed_alone (jobId : JobId) (reason : Option String) :
    ((markJobFailed jobId reason).alone db).2 = db ∨
      Rewritten db ((markJobFailed jobId reason).alone db).2 (failing db.relations jobId)
        (db.runningAttempt jobId) := by
  rcases db.closed_or_open jobId with closed | ⟨job, found, isOpen⟩
  · exact .inl (closing_calls_skip closed reason).2
  · rw [markJobFailed_open found isOpen]
    exact .inr (failOpen_alone found isOpen reason)

variable {db}

theorem not_closedBy_self : ¬ ClosedBy db db jobId := by
  rintro ⟨phase, found, isOpen, cancelled⟩
  rw [found] at cancelled
  cases cancelled
  cases isOpen

theorem closedBy_of_open {job : Job} (found : db.findJob jobId = some job) (isOpen : job.phase.terminal = false)
    (reason : Option String) : ClosedBy db ((markJobFailed jobId reason).alone db).2 jobId := by
  have rewritten : Rewritten db ((markJobFailed jobId reason).alone db).2 (failing db.relations jobId)
      (db.runningAttempt jobId) := by
    rw [markJobFailed_open found isOpen]
    exact failOpen_alone found isOpen reason
  refine ⟨job.phase, by rw [JobsDb.phaseOf, found, Option.map_some], isOpen, ?_⟩
  rw [rewritten.phaseOf, found, Option.map_some, failing_self db.relations jobId job.parentId isOpen]

def StagedChild (db : JobsDb) (child parent : JobId) : Prop :=
  ∃ row, db.findJob child = some row ∧ row.parentId = some parent ∧ row.phase = .backlog

theorem Rewritten.phaseOf_others {other : JobId}
    (rewritten : Rewritten before after (failing before.relations jobId) ended) (different : other ≠ jobId)
    (upstream : ¬ Relation.TransGen (DependsOn before.relations) other jobId)
    (noStagedChild : ¬ StagedChild before other jobId) : after.phaseOf other = before.phaseOf other := by
  rw [rewritten.phaseOf, JobsDb.phaseOf]
  cases found : before.findJob other with
  | none => rfl
  | some row =>
    refine congrArg some (failing_others different upstream ?_)
    rintro ⟨isChild, staged⟩
    exact noStagedChild ⟨row, found, isChild, staged⟩

/-- The call closes an open job and, with it, every open job downstream of it and its
backlog children; any other job keeps its phase, and no job becomes claimable. -/
theorem failure_cascade_closed (db : JobsDb) (jobId : JobId) (reason : Option String) :
    (∀ job, db.findJob jobId = some job → job.phase.terminal = false →
      ClosedBy db ((markJobFailed jobId reason).alone db).2 jobId) ∧
    (∀ closed, ClosedBy db ((markJobFailed jobId reason).alone db).2 closed →
      (closed = jobId ∨ Relation.TransGen (DependsOn db.relations) closed jobId) →
      ∀ dependent, Relation.TransGen (DependsOn db.relations) dependent closed →
        AllClosed ((markJobFailed jobId reason).alone db).2 dependent) ∧
    (ClosedBy db ((markJobFailed jobId reason).alone db).2 jobId →
      ∀ child ∈ ((markJobFailed jobId reason).alone db).2.jobs, child.parentId = some jobId → child.phase ≠ .backlog) ∧
    (∀ other, other ≠ jobId → ¬ Relation.TransGen (DependsOn db.relations) other jobId → ¬ StagedChild db other jobId →
      ((markJobFailed jobId reason).alone db).2.phaseOf other = db.phaseOf other) ∧
    ∀ job, ((markJobFailed jobId reason).alone db).2.Claimable job → db.Claimable job := by
  refine ⟨fun job found isOpen => ?_, ?_⟩
  · exact closedBy_of_open found isOpen reason
  rcases markJobFailed_alone db jobId reason with same | rewritten
  · rw [same]
    exact ⟨fun _ closed => absurd closed not_closedBy_self, fun closed => absurd closed not_closedBy_self,
      fun _ _ _ _ => rfl, fun _ claimable => claimable⟩
  · refine ⟨?_, ?_, fun other => rewritten.phaseOf_others, ?_⟩
    · intro closed _ reached dependent depends phase found
      have depends' : Relation.TransGen (DependsOn db.relations) dependent jobId := by
        rcases reached with rfl | further
        · exact depends
        · exact depends.trans further
      rw [rewritten.phaseOf] at found
      obtain ⟨row, _, rfl⟩ := Option.map_eq_some_iff.mp found
      exact failing_of_downstream depends' row.parentId row.phase
    · intro _ child member isChild
      obtain ⟨rewrite, changed, rows⟩ := rewritten.jobs
      rw [changed] at member
      obtain ⟨row, _, rfl⟩ := mem_map.mp member
      obtain ⟨_, sameParent, isPhase⟩ := rows row
      rw [isPhase, ← sameParent, isChild]
      exact failing_backlog_child db.relations jobId row.id row.phase
    · exact fun job claimable =>
        rewritten.claimable (failing_cases db.relations jobId) claimable

def promotedChild : JobsDb :=
  { jobs := [{ id := "parent", projectId := "proj", phase := .active },
      { id := "child", projectId := "proj", parentId := some "parent", phase := .ready }] }

/-- Failing the parent leaves its promoted child claimable. -/
theorem promoted_child_stays_claimable : ¬ ∀ (db : JobsDb) (jobId : JobId) (reason : Option String),
      CascadeComplete db ((markJobFailed jobId reason).alone db).2 := by
  intro complete
  have closed : ClosedBy promotedChild ((markJobFailed "parent" none).alone promotedChild).2 "parent" :=
    ⟨.active, by decide, rfl, by decide⟩
  have child : ChildOf promotedChild "child" "parent" := ⟨_, .tail _ (.head _), rfl, rfl⟩
  refine (complete promotedChild "parent" none "parent" closed).2 "child" (.single child) ?_
  exact .inl (by decide)

end EveHorizon.Jobs
