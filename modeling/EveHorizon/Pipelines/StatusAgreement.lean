import EveHorizon.Pipelines.RunStatus
import EveHorizon.Pipelines.Atomicity
import EveHorizon.Library.Contracts

/-!
# Agreement of a run with its steps

A run that has ended keeps its status, and the status and the steps it reports say what
became of its jobs, in every interleaving in which no call finishes or cancels the run
behind the back of another, and no job of the run is cancelled in a way that the reasons
do not tell from a failure.
-/

namespace EveHorizon.Pipelines

open Interleaving List Statement
open Jobs (JobId Timestamp Job JobsDb JobStatement JobUpdate JobOperation Phase)

/-- The job was closed by a failure: its own, or that of a job it depended on. -/
def Failed (job : Job) : Prop :=
  job.phase = .cancelled ∧ (job.failureDisposition = some .failed ∨ job.failureDisposition = some .upstreamFailed)

instance (job : Job) : Decidable (Failed job) := inferInstanceAs (Decidable (_ ∧ _))

def finished (db : PipelineDb) (id : RunId) : Bool := (db.findRunById id).any (·.status.terminal)

def FaithfulSteps (db : PipelineDb) (run : PipelineRun) : Prop :=
  ∀ entry ∈ (db.listJobsForRun run).zipIdx, (jobToStepResponse run.id entry).status = .failed → Failed entry.1

structure Agrees (db : PipelineDb) (id : RunId) : Prop where
  failed : ∀ run, db.findRunById id = some run → run.status = .failed → ∃ job ∈ db.jobsOfRun id, Failed job
  succeeded : ∀ run, db.findRunById id = some run → run.status = .succeeded → ∀ job ∈ db.jobsOfRun id, job.phase = .done
  cancelled : ∀ run, db.findRunById id = some run → run.status = .cancelled →
    run.runMode = some "jobs" → FaithfulSteps db run

def KeepsStatus (before after : PipelineDb) (id : RunId) : Prop :=
  ∀ run, before.findRunById id = some run → run.status.terminal = true →
    ∃ later, after.findRunById id = some later ∧ later.status = run.status

variable (db : PipelineDb)

/-- The reasons tell whether the jobs of a run failed: if one seems to have failed, one
did, and if none seems to, all are done. -/
def Attributable (id : RunId) : Prop :=
  ((∃ job ∈ db.jobsOfRun id, countsAsFailed job = true) → ∃ job ∈ db.jobsOfRun id, Failed job) ∧
  ((∀ job ∈ db.jobsOfRun id, countsAsFailed job = false) → ∀ job ∈ db.jobsOfRun id, job.phase = .done)

def plain (reason : Option String) : Bool :=
  reason.all fun reason => reason == "" || neutralReasons.contains reason

def cancellation : JobUpdate → Job → Option (Option String)
  | .closed _ reason .cancelled, _ => some (some reason)
  | .backlogChildrenClosed _ reason .cancelled, _ => some (some reason)
  | .phaseChanged _ _ .cancelled _, row => some row.closeReason
  | _, _ => none

def SparesClosed (id : RunId) (update : JobUpdate) : Prop :=
  ∀ target ∈ update.overwrites, ∀ job ∈ db.jobsOfRun id, job.id = target.1 → job.phase.terminal = false

def CancelsPlainly (run : PipelineRun) (update : JobUpdate) : Prop :=
  ∀ job ∈ db.jobs.jobs, isReported run job = true → update.selects db.jobs job = true →
    ∀ reason ∈ cancellation update job, plain reason = true

def Orderly (id : RunId) : RunStatement → PipelineDb → Prop
  | .pipeline (.closeRun run _), db => run = id → ∀ row ∈ db.findRunById id,
      (row.status.terminal = true → row.status = .cancelled) ∧ (row.runMode = some "jobs" → FaithfulSteps db row)
  | .pipeline (.jobs (.updateJobs update)), db => SparesClosed db id update ∧
      ∀ row ∈ db.findRunById id, row.status = .cancelled → row.runMode = some "jobs" → CancelsPlainly db row update
  | .startRun run, db => run = id → finished db id = false
  | .finishRun run status _ _, db => run = id → ∀ row ∈ db.findRunById id,
      row.status.terminal = true → row.status = status
  | .countJobs run, db => run = id → finished db id = false →
      (∀ job ∈ db.jobsOfRun id, job.phase.terminal = true) → Attributable db id
  | _, _ => True

instance (db : PipelineDb) (run : PipelineRun) : Decidable (FaithfulSteps db run) :=
  inferInstanceAs (Decidable (∀ _ ∈ _, _))

instance (db : PipelineDb) (id : RunId) : Decidable (Attributable db id) :=
  inferInstanceAs (Decidable (_ ∧ _))

instance (db : PipelineDb) (id : RunId) (update : JobUpdate) : Decidable (SparesClosed db id update) :=
  inferInstanceAs (Decidable (∀ _ ∈ _, _))

instance (db : PipelineDb) (run : PipelineRun) (update : JobUpdate) : Decidable (CancelsPlainly db run update) :=
  inferInstanceAs (Decidable (∀ _ ∈ _, _))

instance (id : RunId) (stmt : RunStatement) (db : PipelineDb) : Decidable (Orderly id stmt db) := by
  unfold Orderly
  split <;> infer_instance

def outcome (job : Job) : Phase × Option Jobs.FailureDisposition × Option String :=
  (job.phase, job.failureDisposition, job.closeReason)

theorem changes_identity (now : Timestamp) (update : JobUpdate) (row : Job) :
    (update.changes now row).runId = row.runId ∧ (update.changes now row).projectId = row.projectId ∧
      (update.changes now row).labels = row.labels := by
  cases update with
  | requeued jobId deferUntil => cases deferUntil <;> exact ⟨rfl, rfl, rfl⟩
  | _ => exact ⟨rfl, rfl, rfl⟩

def jobChange (db : PipelineDb) : RunStatement → Job → Job
  | .pipeline (.jobs (.updateJobs update)), row =>
    if update.selects db.jobs row then update.changes db.jobs.now row else row
  | .skipConditional jobId, row =>
    if row.id == jobId && !row.phase.terminal then Jobs.skipRow db.jobs.now row else row
  | _, row => row

def runChange (db : PipelineDb) : RunStatement → PipelineRun → PipelineRun
  | .pipeline (.closeRun id errorMessage), row =>
    if row.id == id then db.closeRun errorMessage row else row
  | .startRun id, row => if row.id == id then db.startRun row else row
  | .finishRun id status startedAt errorMessage, row =>
    if row.id == id then db.finishRun status startedAt errorMessage row else row
  | _, row => row

/-- The statements of the calls: none of them inserts, and runs are finished with one of
two statuses. -/
def Updates : RunStatement → Prop
  | .pipeline (.insertRun _) | .pipeline (.insertJob _) | .pipeline (.insertRelation _) => False
  | .finishRun _ status _ _ => status = .failed ∨ status = .succeeded
  | _ => True

variable {db : PipelineDb} {stmt : RunStatement} {id : RunId}

theorem jobs_effect (updates : Updates stmt) :
    (effect stmt db).jobs.jobs = db.jobs.jobs.map (jobChange db stmt) := by
  have unchanged : db.jobs.jobs = db.jobs.jobs.map fun row => row := by simp
  cases stmt with
  | pipeline stmt =>
    cases stmt with
    | insertRun run | insertJob job | insertRelation relation => cases updates
    | jobs stmt =>
      cases stmt with
      | updateJobs update => rfl
      | insertAttempt new =>
        exact (Jobs.insertAttempt_jobs new db.jobs).trans unchanged
      | _ => exact unchanged
    | _ => exact unchanged
  | skipConditional jobId => rfl
  | _ => exact unchanged

theorem findRunById_effect (updates : Updates stmt) :
    (effect stmt db).findRunById id = (db.findRunById id).map (runChange db stmt) := by
  have unchanged : db.findRunById id = (db.findRunById id).map fun row => row := by simp
  cases stmt with
  | pipeline stmt =>
    cases stmt with
    | insertRun run | insertJob job | insertRelation relation => cases updates
    | closeRun run errorMessage =>
      exact Table.find?_updateWhere PipelineRun.id (·.id == run) (db.closeRun errorMessage) (fun _ _ => rfl) db.runs id
    | _ => exact unchanged
  | startRun run =>
    exact Table.find?_updateWhere PipelineRun.id (·.id == run) db.startRun (fun _ _ => rfl)
      db.runs id
  | finishRun run status startedAt errorMessage =>
    exact Table.find?_updateWhere PipelineRun.id (·.id == run)
      (db.finishRun status startedAt errorMessage) (fun _ _ => rfl) db.runs id
  | _ => exact unchanged

variable (db stmt) in
theorem runChange_identity (row : PipelineRun) :
    (runChange db stmt row).id = row.id ∧ (runChange db stmt row).projectId = row.projectId ∧
      (runChange db stmt row).runMode = row.runMode := by
  unfold runChange
  split
  all_goals try split
  all_goals exact ⟨rfl, rfl, rfl⟩

variable (db stmt) in
theorem jobChange_cases (row : Job) : jobChange db stmt row = row ∨
    (∃ update, stmt = .pipeline (.jobs (.updateJobs update)) ∧ update.selects db.jobs row = true ∧
      jobChange db stmt row = update.changes db.jobs.now row) ∨
    ∃ jobId, stmt = .skipConditional jobId ∧ row.phase.terminal = false ∧
      jobChange db stmt row = Jobs.skipRow db.jobs.now row := by
  unfold jobChange
  split
  · rename_i update
    split
    · rename_i chosen
      exact .inr (.inl ⟨update, rfl, chosen, rfl⟩)
    · exact .inl rfl
  · rename_i jobId
    split
    · rename_i chosen
      have isOpen : row.phase.terminal = false := by simpa using (Bool.and_eq_true_iff.mp chosen).2
      exact .inr (.inr ⟨jobId, rfl, isOpen, rfl⟩)
    · exact .inl rfl
  · exact .inl rfl

variable (db stmt) in
theorem jobChange_identity (row : Job) :
    (jobChange db stmt row).runId = row.runId ∧ (jobChange db stmt row).projectId = row.projectId ∧
      (jobChange db stmt row).labels = row.labels := by
  rcases jobChange_cases db stmt row with
    same | ⟨update, _, _, updated⟩ | ⟨jobId, _, _, skipped⟩
  · rw [same]
    exact ⟨rfl, rfl, rfl⟩
  · rw [updated]
    exact changes_identity _ _ _
  · rw [skipped]
    exact ⟨rfl, rfl, rfl⟩

variable {job : Job}

theorem mem_jobsOfRun : job ∈ db.jobsOfRun id ↔ job ∈ db.jobs.jobs ∧ job.runId = some id := by
  simp [PipelineDb.jobsOfRun]

theorem Orderly.outcome_eq (orderly : Orderly id stmt db) (member : job ∈ db.jobsOfRun id)
    (closed : job.phase.terminal = true) : outcome (jobChange db stmt job) = outcome job := by
  rcases jobChange_cases db stmt job with
    same | ⟨update, rfl, chosen, updated⟩ | ⟨jobId, _, isOpen, _⟩
  · rw [same]
  · rw [updated]
    cases overwrites : update.overwrites with
    | none =>
      obtain ⟨jobIds, rfl⟩ := Jobs.guarded_update_clears overwrites closed chosen
      rfl
    | some target =>
      obtain ⟨selects, _⟩ := Jobs.overwriting_update db.jobs overwrites job
      rw [selects, beq_iff_eq] at chosen
      have spared := orderly.1 target overwrites job member chosen
      rw [closed] at spared
      cases spared
  · rw [closed] at isOpen
    cases isOpen

/-- Later tables in which the closed jobs of the run, and that it has ended, are as they
were. -/
structure Continues (id : RunId) (before after : PipelineDb) : Prop where
  forward : ∀ old ∈ before.jobsOfRun id, ∃ new ∈ after.jobsOfRun id,
    old.phase.terminal = true → outcome new = outcome old
  backward : ∀ new ∈ after.jobsOfRun id, ∃ old ∈ before.jobsOfRun id,
    old.phase.terminal = true → outcome new = outcome old
  ended : finished before id = true → finished after id = true

theorem Continues.refl (id : RunId) (db : PipelineDb) : Continues id db db where
  forward := fun job member => ⟨job, member, fun _ => rfl⟩
  backward := fun job member => ⟨job, member, fun _ => rfl⟩
  ended := fun isFinished => isFinished

variable {second first : Job}

theorem phase_of_outcome (same : outcome first = outcome second) : first.phase = second.phase :=
  (Prod.mk.inj same).1

theorem Continues.trans {first second third : PipelineDb} (earlier : Continues id first second)
    (later : Continues id second third) : Continues id first third where
  forward := by
    intro old member
    obtain ⟨middle, isMiddle, toMiddle⟩ := earlier.forward old member
    obtain ⟨new, isNew, toNew⟩ := later.forward middle isMiddle
    refine ⟨new, isNew, fun closed => ?_⟩
    have same := toMiddle closed
    exact (toNew (by rw [phase_of_outcome same]; exact closed)).trans same
  backward := by
    intro new member
    obtain ⟨middle, isMiddle, fromMiddle⟩ := later.backward new member
    obtain ⟨old, isOld, fromOld⟩ := earlier.backward middle isMiddle
    refine ⟨old, isOld, fun closed => ?_⟩
    have same := fromOld closed
    exact (fromMiddle (by rw [phase_of_outcome same]; exact closed)).trans same
  ended := fun isFinished => later.ended (earlier.ended isFinished)

variable {run : PipelineRun}

theorem Orderly.status_cases (orderly : Orderly id stmt db) (isRun : db.findRunById id = some run) :
    (runChange db stmt run).status = run.status ∨
      (∃ errorMessage, stmt = .pipeline (.closeRun id errorMessage) ∧
        run.status.terminal = false ∧ (run.runMode = some "jobs" → FaithfulSteps db run)) ∨
      ((runChange db stmt run).status = .running ∧ run.status.terminal = false) ∨
      ∃ startedAt errorMessage, run.status.terminal = false ∧
        stmt = .finishRun id (runChange db stmt run).status startedAt errorMessage := by
  have named : run.id = id := by simpa using find?_some isRun
  have targets {other : RunId} (chosen : (run.id == other) = true) : other = id :=
    (beq_iff_eq.mp chosen).symm.trans named
  have open_of (notFinished : finished db id = false) : run.status.terminal = false := by
    simpa [finished, isRun] using notFinished
  unfold runChange
  split
  · rename_i other errorMessage
    split
    · rename_i chosen
      have same := targets chosen
      obtain ⟨ended, steps⟩ := orderly same run isRun
      cases isTerminal : run.status.terminal with
      | true => exact .inl (ended isTerminal).symm
      | false =>
        rw [same]
        exact .inr (.inl ⟨errorMessage, rfl, rfl, steps⟩)
    · exact .inl rfl
  · rename_i other
    split
    · rename_i chosen
      exact .inr (.inr (.inl ⟨rfl, open_of (orderly (targets chosen))⟩))
    · exact .inl rfl
  · rename_i other status startedAt errorMessage
    split
    · rename_i chosen
      have same := targets chosen
      cases isTerminal : run.status.terminal with
      | true => exact .inl (orderly same run isRun isTerminal).symm
      | false =>
        rw [same]
        exact .inr (.inr (.inr ⟨startedAt, errorMessage, rfl, rfl⟩))
    · exact .inl rfl
  · exact .inl rfl

theorem Orderly.keepsStatus (orderly : Orderly id stmt db) (updates : Updates stmt) :
    KeepsStatus db (effect stmt db) id := by
  intro run isRun isTerminal
  refine ⟨runChange db stmt run, by rw [findRunById_effect updates, isRun]; rfl, ?_⟩
  cases orderly.status_cases isRun with
  | inl same => exact same
  | inr other =>
    have isOpen : run.status.terminal = false := by
      cases other with
      | inl cancelled =>
        obtain ⟨_, _, isOpen, _⟩ := cancelled
        exact isOpen
      | inr other =>
        cases other with
        | inl running => exact running.2
        | inr ended =>
          obtain ⟨_, _, isOpen, _⟩ := ended
          exact isOpen
    rw [isTerminal] at isOpen
    cases isOpen

theorem Orderly.continues (orderly : Orderly id stmt db) (updates : Updates stmt) :
    Continues id db (effect stmt db) where
  forward := by
    intro old member
    obtain ⟨present, owned⟩ := mem_jobsOfRun.mp member
    refine ⟨jobChange db stmt old, mem_jobsOfRun.mpr ⟨?_, ?_⟩, orderly.outcome_eq member⟩
    · rw [jobs_effect updates]
      exact mem_map_of_mem present
    · exact (jobChange_identity db stmt old).1.trans owned
  backward := by
    intro new member
    obtain ⟨present, owned⟩ := mem_jobsOfRun.mp member
    rw [jobs_effect updates] at present
    obtain ⟨old, wasPresent, rfl⟩ := mem_map.mp present
    have wasOwned : old.runId = some id := (jobChange_identity db stmt old).1.symm.trans owned
    have wasMember := mem_jobsOfRun.mpr ⟨wasPresent, wasOwned⟩
    exact ⟨old, wasMember, orderly.outcome_eq wasMember⟩
  ended := by
    intro isFinished
    unfold finished at *
    obtain ⟨run, isRun, isTerminal⟩ := (Option.any_eq_true _ _).mp isFinished
    obtain ⟨later, isLater, same⟩ := orderly.keepsStatus updates run isRun isTerminal
    rw [isLater]
    simpa [same] using isTerminal

theorem failed_of_outcome (same : outcome first = outcome second) : Failed first ↔ Failed second := by
  obtain ⟨phase, rest⟩ := Prod.mk.inj same
  rw [Failed, Failed, phase, (Prod.mk.inj rest).1]

variable {before after : PipelineDb}

theorem Continues.failed (continues : Continues id before after)
    (someFailed : ∃ job ∈ before.jobsOfRun id, Failed job) : ∃ job ∈ after.jobsOfRun id, Failed job := by
  obtain ⟨old, member, failed⟩ := someFailed
  obtain ⟨new, isNew, same⟩ := continues.forward old member
  have closed : old.phase.terminal = true := by rw [failed.1]; rfl
  exact ⟨new, isNew, (failed_of_outcome (same closed)).mpr failed⟩

theorem Continues.done (continues : Continues id before after)
    (allDone : ∀ job ∈ before.jobsOfRun id, job.phase = .done) : ∀ job ∈ after.jobsOfRun id, job.phase = .done := by
  intro new member
  obtain ⟨old, wasMember, same⟩ := continues.backward new member
  have done := allDone old wasMember
  have closed : old.phase.terminal = true := by rw [done]; rfl
  exact (phase_of_outcome (same closed)).trans done

theorem stepStatus_failed_iff : stepStatus job = .failed ↔ cancelledIsFailure job = true := by
  unfold stepStatus
  cases cancelledIsFailure job with
  | true => simp
  | false => cases job.phase <;> simp [mapJobPhaseToStepStatus]

theorem cancelledIsFailure_iff : cancelledIsFailure job = true ↔
    job.phase = .cancelled ∧ plain job.closeReason = false := by
  unfold cancelledIsFailure plain
  cases job.closeReason with
  | none => simp
  | some reason =>
    by_cases empty : reason = ""
    · simp [empty]
    · simp [empty, Option.filter_some]

theorem faithfulSteps_iff : FaithfulSteps db run ↔
    ∀ job ∈ db.jobs.jobs, isReported run job = true → stepStatus job = .failed → Failed job := by
  have listed (job : Job) : job ∈ db.listJobsForRun run ↔ job ∈ db.jobs.jobs ∧ isReported run job = true := by
    rw [PipelineDb.listJobsForRun, mem_insertionSort, mem_filter]
  constructor
  · intro faithful job member reported
    obtain ⟨index, isEntry⟩ := mem_iff_getElem?.mp ((listed job).mpr ⟨member, reported⟩)
    exact faithful (job, index) (mem_zipIdx_iff_getElem?.mpr isEntry)
  · intro faithful entry member
    have isJob := mem_of_getElem? (mem_zipIdx_iff_getElem?.mp member)
    obtain ⟨present, reported⟩ := (listed entry.1).mp isJob
    exact faithful entry.1 present reported

theorem changes_failure {now : Timestamp} {update : JobUpdate} {row : Job}
    (failure : cancelledIsFailure (update.changes now row) = true) :
    Failed (update.changes now row) ∨ (∃ reason, cancellation update row = some reason ∧ plain reason = false) ∨
      outcome (update.changes now row) = outcome row := by
  obtain ⟨phase, reason⟩ := cancelledIsFailure_iff.mp failure
  cases update with
  | closed jobId text disposition | backlogChildrenClosed parentId text disposition =>
    cases disposition with
    | cancelled => exact .inr (.inl ⟨_, rfl, reason⟩)
    | failed => exact .inl ⟨phase, .inl rfl⟩
    | upstreamFailed => exact .inl ⟨phase, .inr rfl⟩
  | cascaded jobId text => exact .inl ⟨phase, .inr rfl⟩
  | phaseChanged jobId current new valid =>
    cases new with
    | cancelled => exact .inr (.inl ⟨_, rfl, reason⟩)
    | _ => cases phase
  | gatesCleared jobIds => exact .inr (.inr rfl)
  | requeued jobId deferUntil => cases deferUntil <;> cases phase
  | _ => cases phase

theorem failed_of_unchanged {old new : Job} (faithful : FaithfulSteps db run)
    (member : old ∈ db.jobs.jobs) (reported : isReported run old = true)
    (same : outcome new = outcome old) (failure : cancelledIsFailure new = true) : Failed new := by
  obtain ⟨phase, rest⟩ := Prod.mk.inj same
  obtain ⟨isCancelled, reason⟩ := cancelledIsFailure_iff.mp failure
  apply (failed_of_outcome same).mpr
  apply faithfulSteps_iff.mp faithful old member reported
  apply stepStatus_failed_iff.mpr
  rw [cancelledIsFailure_iff, ← phase, ← (Prod.mk.inj rest).2]
  exact ⟨isCancelled, reason⟩

theorem Orderly.faithfulSteps (orderly : Orderly id stmt db) (updates : Updates stmt)
    (isRun : db.findRunById id = some run) (jobsMode : run.runMode = some "jobs")
    (cancelled : run.status = .cancelled) (faithful : FaithfulSteps db run) :
    FaithfulSteps (effect stmt db) (runChange db stmt run) := by
  apply faithfulSteps_iff.mpr
  intro new member reported failed
  rw [jobs_effect updates] at member
  obtain ⟨old, wasMember, rfl⟩ := mem_map.mp member
  obtain ⟨_, sameProject, sameLabels⟩ := jobChange_identity db stmt old
  obtain ⟨sameId, sameRunProject, _⟩ := runChange_identity db stmt run
  have wasReported : isReported run old = true := by
    unfold isReported at *
    rw [← sameProject, ← sameLabels, ← sameId, ← sameRunProject]
    exact reported
  have failure := stepStatus_failed_iff.mp failed
  rcases jobChange_cases db stmt old with
    same | ⟨update, rfl, chosen, updated⟩ | ⟨jobId, _, _, skipped⟩
  · rw [same] at failure ⊢
    exact failed_of_unchanged faithful wasMember wasReported rfl failure
  · rw [updated] at failure ⊢
    rcases changes_failure failure with fails | ⟨reason, isReason, own⟩ | same
    · exact fails
    · have isPlain := orderly.2 run isRun cancelled jobsMode old wasMember wasReported chosen reason isReason
      rw [own] at isPlain
      cases isPlain
    · exact failed_of_unchanged faithful wasMember wasReported same failure
  · rw [skipped] at failure
    cases (cancelledIsFailure_iff.mp failure).1

def Reports (db : PipelineDb) (id : RunId) (status : RunStatus) : Prop :=
  (status = .failed → ∃ job ∈ db.jobsOfRun id, Failed job) ∧
    (status = .succeeded → ∀ job ∈ db.jobsOfRun id, job.phase = .done)

theorem Continues.reports (continues : Continues id before after) {status : RunStatus}
    (reports : Reports before id status) : Reports after id status :=
  ⟨fun failed => continues.failed (reports.1 failed), fun succeeded => continues.done (reports.2 succeeded)⟩

def Concludes (id : RunId) : RunStatement → PipelineDb → Prop
  | .finishRun run status _ _, db => run = id → finished db id = false → Reports db id status
  | _, _ => True

theorem finished_eq (isRun : db.findRunById id = some run) : finished db id = run.status.terminal := by
  rw [finished, isRun]
  rfl

theorem Agrees.reports (agrees : Agrees db id) (isRun : db.findRunById id = some run) : Reports db id run.status :=
  ⟨agrees.failed run isRun, agrees.succeeded run isRun⟩

theorem Orderly.reports (orderly : Orderly id stmt db) (agrees : Agrees db id)
    (concludes : Concludes id stmt db) (isRun : db.findRunById id = some run) :
    Reports db id (runChange db stmt run).status := by
  rcases orderly.status_cases isRun with
    same | ⟨errorMessage, rfl, isOpen, _⟩ | ⟨running, _⟩ | ⟨startedAt, errorMessage, isOpen, isFinish⟩
  · rw [same]
    exact agrees.reports isRun
  · have named : run.id = id := by simpa using find?_some isRun
    have cancelled : (runChange db (.pipeline (.closeRun id errorMessage)) run).status = .cancelled := by
      simp [runChange, named, PipelineDb.closeRun]
    rw [cancelled]
    simp [Reports]
  · rw [running]
    simp [Reports]
  · generalize (runChange db stmt run).status = status at isFinish
    subst isFinish
    exact concludes rfl ((finished_eq isRun).trans isOpen)

theorem Agrees.effect (agrees : Agrees db id) (orderly : Orderly id stmt db)
    (updates : Updates stmt) (concludes : Concludes id stmt db) : Agrees (effect stmt db) id := by
  have continues := orderly.continues updates
  have origin (run : PipelineRun) (isRun : (Statement.effect stmt db).findRunById id = some run) :
      ∃ old, db.findRunById id = some old ∧ runChange db stmt old = run := by
    rw [findRunById_effect updates] at isRun
    exact Option.map_eq_some_iff.mp isRun
  have reports (run : PipelineRun) (isRun : (Statement.effect stmt db).findRunById id = some run) :
      Reports (Statement.effect stmt db) id run.status := by
    obtain ⟨old, isOld, rfl⟩ := origin run isRun
    exact continues.reports (orderly.reports agrees concludes isOld)
  constructor
  · intro run isRun
    exact (reports run isRun).1
  · intro run isRun
    exact (reports run isRun).2
  · intro run isRun isCancelled jobsMode
    obtain ⟨old, isOld, rfl⟩ := origin run isRun
    have wasJobs : old.runMode = some "jobs" := (runChange_identity db stmt old).2.2.symm.trans jobsMode
    rcases orderly.status_cases isOld with
      same | ⟨errorMessage, rfl, _, steps⟩ | ⟨running, _⟩ | ⟨_, _, _, isFinish⟩
    · have wasCancelled := same.symm.trans isCancelled
      exact orderly.faithfulSteps updates isOld wasJobs wasCancelled (agrees.cancelled old isOld wasCancelled wasJobs)
    · have faithful := faithfulSteps_iff.mp (steps wasJobs)
      obtain ⟨sameId, sameProject, _⟩ := runChange_identity db (.pipeline (.closeRun id errorMessage)) old
      apply faithfulSteps_iff.mpr
      intro job member reported
      apply faithful job member
      unfold isReported at *
      rw [← sameId, ← sameProject]
      exact reported
    · rw [running] at isCancelled
      cases isCancelled
    · rw [isFinish, isCancelled] at updates
      cases updates with
      | inl failed => cases failed
      | inr succeeded => cases succeeded

def agreement (id : RunId) : Contract RunStatement PipelineDb Empty where
  inv db := Agrees db id
  met := Orderly id
  allowed stmt db := Updates stmt ∧ Concludes id stmt db
  rely := Continues id
  rely_refl := Continues.refl id
  rely_trans := Continues.trans
  keeps := fun agrees orderly allowed => agrees.effect orderly allowed.1 allowed.2
  respects := fun _ orderly allowed => orderly.continues allowed.1
  due key _ := key.elim
  settling key _ := key.elim

def Neutral : RunStatement → Prop
  | .finishRun _ _ _ _ => False
  | stmt => Updates stmt

theorem Neutral.allowed (neutral : Neutral stmt) : Updates stmt ∧ Concludes id stmt db := by
  cases stmt with
  | finishRun run status startedAt errorMessage => cases neutral
  | _ => exact ⟨neutral, trivial⟩

theorem neutral_follows {α : Type} {call : RunCall α} (issues : call.Issues Neutral) :
    call.Follows (agreement id) (fun _ => True) db :=
  (issues.issuesWhile fun _ => True).follows (fun _ _ => trivial)
    (fun _ _ neutral _ _ => neutral.allowed) fun _ _ _ _ _ key => key.elim

theorem closes_neutral {stmt : PipelineStatement} (closes : Closes stmt) : Neutral (.pipeline stmt) := by
  cases stmt with
  | insertRun run | insertJob job | insertRelation relation => cases closes
  | _ => trivial

theorem closed_of_counts {jobs : List Job}
    (all : (jobs.filter (·.phase == .done)).length + (jobs.filter (·.phase == .cancelled)).length =
      jobs.length) : ∀ job ∈ jobs, job.phase.terminal = true := by
  have together : (jobs.filter (·.phase == .done)).length + (jobs.filter (·.phase == .cancelled)).length =
        (jobs.filter (·.phase.terminal)).length := by
    clear all
    induction jobs with
    | nil => rfl
    | cons first rest ih =>
      have isTerminal : first.phase.terminal = (first.phase == .done || first.phase == .cancelled) := by
        cases first.phase <;> rfl
      simp only [filter_cons, isTerminal]
      cases first.phase <;> simp <;> omega
  rw [together] at all
  exact length_filter_eq_length_iff.mp all

theorem finalise_follows {runId : RunId} {failed : Nat} {counted : PipelineDb}
    (since : Continues id counted db) (known : runId = id → finished counted id = false →
      Reports counted id (if failed > 0 then .failed else .succeeded)) :
    (finalise runId run failed).Follows (agreement id) (fun _ => True) db := by
  have reports {found : PipelineDb} (later : Continues id db found) (same : runId = id)
      (isOpen : finished found id = false) :
      Reports found id (if failed > 0 then .failed else .succeeded) := by
    have sinceCount := since.trans later
    apply sinceCount.reports
    apply known same
    cases ended : finished counted id with
    | false => rfl
    | true =>
      rw [sinceCount.ended ended] at isOpen
      cases isOpen
  unfold finalise
  split
  · rename_i someFailed
    rw [if_pos someFailed] at reports
    intro found relied holds
    refine ⟨⟨trivial, trivial⟩, fun meets => ⟨fun key => key.elim, ?_⟩⟩
    intro later relied' holds'
    refine ⟨⟨.inl rfl, reports (relied.trans relied')⟩, fun meets' => ⟨fun key => key.elim, ?_⟩⟩
    intro last _ _
    exact ⟨⟨trivial, trivial⟩, fun _ => ⟨fun key => key.elim, trivial⟩⟩
  · rename_i noneFailed
    rw [if_neg noneFailed] at reports
    intro found relied holds
    exact ⟨⟨.inr rfl, reports relied⟩, fun meets => ⟨fun key => key.elim, trivial⟩⟩

theorem syncPipelineRunStatus_follows (runId : RunId) :
    (syncPipelineRunStatus runId).Follows (agreement id) (fun _ => True) db := by
  intro found _ _
  refine ⟨⟨trivial, trivial⟩, fun _ => ⟨fun key => key.elim, ?_⟩⟩
  dsimp only [Call.lift, Call.bind, id_eq]
  cases found.findRunById runId with
  | none => trivial
  | some run =>
    dsimp only
    split
    · trivial
    · split
      · trivial
      · intro counted _ _
        refine ⟨⟨trivial, trivial⟩, fun meets => ⟨fun key => key.elim, ?_⟩⟩
        have known (all : (counted.countJobs runId).done + (counted.countJobs runId).cancelled =
            (counted.countJobs runId).total) (same : runId = id)
            (isOpen : finished counted id = false) : Reports counted id
              (if (counted.countJobs runId).failed > 0 then .failed else .succeeded) := by
          subst same
          obtain ⟨someFailed, noneFailed⟩ := meets rfl isOpen (closed_of_counts all)
          split
          · rename_i positive
            obtain ⟨job, member⟩ := length_pos_iff_exists_mem.mp positive
            exact ⟨fun _ => someFailed ⟨job, mem_filter.mp member⟩, by simp⟩
          · rename_i zero
            have none := filter_eq_nil_iff.mp (length_eq_zero_iff.mp (Nat.eq_zero_of_not_pos zero))
            exact ⟨by simp, fun _ => noneFailed fun job member => by simpa using none job member⟩
        have finalises (reached : PipelineDb) (since : Continues id counted reached) :
            Call.Follows (agreement id) (fun _ => True)
              (if (counted.countJobs runId).done + (counted.countJobs runId).cancelled =
                  (counted.countJobs runId).total then
                finalise runId run (counted.countJobs runId).failed
              else .ret ()) reached := by
          split
          · rename_i all
            exact finalise_follows since (known all)
          · trivial
        dsimp only [Call.bind]
        split
        · trivial
        · split
          · intro starting since _
            refine ⟨⟨trivial, trivial⟩, fun orderly => ⟨fun key => key.elim, ?_⟩⟩
            have starts : Orderly id (.startRun runId) starting := orderly
            exact finalises _ (since.trans (starts.continues trivial))
          · exact finalises _ (.refl id counted)

theorem call_follows (catalog : Catalog) (operation : RunOperation) :
    (operation.call catalog).Follows (agreement id) (fun _ => True) db := by
  cases operation with
  | syncPipelineRunStatus runId => exact syncPipelineRunStatus_follows runId
  | cancelRun runId reason =>
    apply neutral_follows
    exact Call.Issues.lift ((cancelRun_closes catalog runId reason).imp fun _ => closes_neutral)
  | job operation =>
    apply neutral_follows
    refine Call.Issues.bind (Call.Issues.lift (Call.Issues.lift ?_)) fun _ => trivial
    exact operation.call.issues_true
  | skipConditionalJob jobId =>
    apply neutral_follows
    exact Call.issues_perform trivial

theorem agrees_of_open (isOpen : finished db id = false) : Agrees db id := by
  have status {run : PipelineRun} (isRun : db.findRunById id = some run) : run.status.terminal = false :=
    (finished_eq isRun).symm.trans isOpen
  constructor
  · intro run isRun failed
    have running := status isRun
    rw [failed] at running
    cases running
  · intro run isRun succeeded
    have running := status isRun
    rw [succeeded] at running
    cases running
  · intro run isRun cancelled
    have running := status isRun
    rw [cancelled] at running
    cases running

/-- In an orderly run of the system, a run that has ended keeps its status, and at any time
its status and its steps say what became of its jobs. -/
theorem run_status_agrees (catalog : Catalog) (id : RunId) (db : PipelineDb)
    (schedule : List (Choice RunOperation)) (start : Agrees db id)
    (orderly : ∀ execution ∈ (runRuns catalog db schedule).trace, Orderly id execution.statement execution.before) :
    Agrees (runRuns catalog db schedule).store id ∧ ∀ execution ∈ (runRuns catalog db schedule).trace,
        KeepsStatus execution.before execution.after id ∧ Agrees execution.before id ∧ Agrees execution.after id := by
  have follows : (runRuns catalog db schedule).Follows (agreement id) :=
    System.run_follows (fun _ (operation : RunOperation) => operation.call catalog)
      (fun _ operation _ _ _ => call_follows catalog operation) start (fun key => key.elim)
      orderly
  refine ⟨follows.inv, ?_⟩
  intro execution member
  obtain ⟨agrees, updates, concludes⟩ := follows.executed execution member
  obtain ⟨_, executed⟩ := System.run_executes _ db schedule execution member
  have meets := orderly execution member
  rw [executed]
  exact ⟨meets.keepsStatus updates, agrees, agrees.effect meets updates concludes⟩

def releaseRun : PipelineRun where
  id := "run_1"
  projectId := "proj_1"
  pipelineName := "release"
  envName := none
  gitSha := none
  manifestHash := some "hash"
  inputs := none
  status := .running
  completedAt := none
  errorMessage := none
  runMode := some "jobs"
  dedupeKey := none
  createdAt := 0

def releaseJob (id stepName : String) (phase : Phase) : Job where
  id := id
  projectId := "proj_1"
  labels := ["pipeline:release", "run:run_1"]
  phase := phase
  runId := some "run_1"
  stepName := some stepName

def releaseDb : PipelineDb where
  jobs := { jobs := [releaseJob "job_1" "build" .done, releaseJob "job_2" "deploy" .active] }
  runs := [releaseRun]

def alone (operation : RunOperation) : List (Choice RunOperation) :=
  .start operation :: List.replicate 20 (.advance 0)

/-- The deployment fails and the run is found to have failed. -/
theorem release_failure_agrees :
    Agrees (runRuns (releaseCatalog []) releaseDb (alone (.job (.markJobFailed "job_2" (some "exit 1"))) ++
        alone (.syncPipelineRunStatus "run_1"))).store "run_1" :=
  (run_status_agrees (releaseCatalog []) "run_1" releaseDb _ (agrees_of_open (by decide +kernel))
    (by decide +kernel)).1

/-- A run is cancelled while it deploys, and reports the deployment as failed. -/
theorem cancelled_run_reports_failure :
    ¬∀ (catalog : Catalog) (id : RunId) (db : PipelineDb) (schedule : List (Choice RunOperation)),
      Agrees db id → Agrees (runRuns catalog db schedule).store id ∧ ∀ execution ∈ (runRuns catalog db schedule).trace,
          KeepsStatus execution.before execution.after id ∧ Agrees execution.before id ∧ Agrees execution.after id := by
  intro holds
  have agrees := (holds (releaseCatalog []) "run_1" releaseDb (alone (.cancelRun "run_1" none))
    (agrees_of_open (by decide +kernel))).1
  have misreported : ∃ run, (runRuns (releaseCatalog []) releaseDb
      (alone (.cancelRun "run_1" none))).store.findRunById "run_1" = some run ∧
      run.status = .cancelled ∧ run.runMode = some "jobs" ∧ ¬FaithfulSteps (runRuns (releaseCatalog []) releaseDb
        (alone (.cancelRun "run_1" none))).store run :=
    ⟨{ releaseRun with status := .cancelled, completedAt := some 0 }, by decide +kernel, rfl, rfl,
      by decide +kernel⟩
  obtain ⟨run, isRun, cancelled, jobsMode, unfaithful⟩ := misreported
  exact unfaithful (agrees.cancelled run isRun cancelled jobsMode)

end EveHorizon.Pipelines
