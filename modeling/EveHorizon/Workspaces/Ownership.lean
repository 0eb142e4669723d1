import EveHorizon.Library.Recollection
import EveHorizon.Workspaces.Pool

/-!
# Capacity and ownership of workspaces

When a pool stays within its size, and a workspace belongs to one job at a time.
-/

namespace EveHorizon.Workspaces

open Interleaving Statement Table System

abbrev PoolExecution := Execution WorkspaceStatement WorkspaceTable

variable (jobId : JobId)

def WorkspaceStatement.acquires : WorkspaceStatement → Prop
  | .acquireIdle _ job _ _ => job = jobId
  | .insert params _ => params.jobId = jobId
  | _ => False

variable {table : WorkspaceTable} {row : Workspace} {stmt : WorkspaceStatement}

theorem acquired_after (member : row ∈ (effect stmt table).rows) (acquired : row.state = .acquired) :
    (∃ old ∈ table.rows, old.id = row.id ∧ old.state = .acquired ∧ old.lastJobId = row.lastJobId) ∨
      ∃ jobId, stmt.acquires jobId ∧ row.lastJobId = some jobId ∧
        ∀ old ∈ table.rows, old.id = row.id → old.state ≠ .acquired := by
  cases stmt with
  | acquireIdle projectId jobId locked now =>
    simp only [effect, WorkspaceStatement.effect] at member
    split at member
    · exact .inl ⟨row, member, rfl, acquired, rfl⟩
    · next candidate found =>
        obtain ⟨present, _, idle⟩ := idleCandidate_mem found
        obtain ⟨old, before, ⟨selected, rfl⟩ | ⟨_, rfl⟩⟩ := mem_updateWhere member
        · refine .inr ⟨jobId, rfl, rfl, ?_⟩
          intro other inTable sameId
          have named : old.id = candidate.id := by simpa using selected
          have same : other = candidate := Table.Keyed.eq_of_key inTable present (sameId.trans named)
          rw [same, idle]
          nofun
        · exact .inl ⟨row, before, rfl, acquired, rfl⟩
  | countLive projectId => exact .inl ⟨row, member, rfl, acquired, rfl⟩
  | insert params now =>
    rcases Table.Keyed.mem_insert member with old | ⟨free, rfl⟩
    · exact .inl ⟨row, old, rfl, acquired, rfl⟩
    · exact .inr ⟨params.jobId, rfl, rfl, fun old present sameId =>
        absurd sameId (Table.Keyed.free_iff.mp free old present)⟩
  | release workspaceId owner now | markForTeardown workspaceId now | resetStale staleCutoff now =>
    obtain ⟨old, before, ⟨_, rfl⟩ | ⟨_, rfl⟩⟩ := mem_updateWhere member
    · cases acquired
    · exact .inl ⟨row, before, rfl, acquired, rfl⟩
  | heartbeat workspaceId now =>
    obtain ⟨old, before, ⟨_, rfl⟩ | ⟨_, rfl⟩⟩ := mem_updateWhere member
    · exact .inl ⟨old, before, rfl, acquired, rfl⟩
    · exact .inl ⟨row, before, rfl, acquired, rfl⟩
  | delete workspaceId =>
    exact .inl ⟨row, (Table.Keyed.mem_delete.mp member).1, rfl, acquired, rfl⟩

theorem liveCount_le (projectId : ProjectId) (table : WorkspaceTable)
    (notInsert : ∀ params now, stmt ≠ .insert params now) :
    liveCount projectId (effect stmt table) ≤ liveCount projectId table := by
  cases stmt with
  | acquireIdle project jobId locked now =>
    simp only [effect, WorkspaceStatement.effect]
    split
    · exact Nat.le_refl _
    · next candidate found =>
        obtain ⟨present, _, idle⟩ := idleCandidate_mem found
        refine countP_updateWhere_le fun row inTable selected isCounted => ?_
        have named : row.id = candidate.id := by simpa using selected
        have same : row = candidate := Table.Keyed.eq_of_key inTable present named
        have ofProject : row.projectId = projectId := by simpa [live, Workspace.acquiredBy] using isCounted
        rw [same] at ofProject
        simp [live, ofProject, same, idle]
  | countLive project => exact Nat.le_refl _
  | insert params now => exact absurd rfl (notInsert params now)
  | release workspaceId owner now =>
    refine countP_updateWhere_le fun row _ selected isCounted => ?_
    simp only [releasable, Bool.and_eq_true, beq_iff_eq] at selected
    have ofProject : row.projectId = projectId := by simpa [live, Workspace.released] using isCounted
    simp [live, ofProject, selected.1.2]
  | heartbeat workspaceId now =>
    exact countP_updateWhere_le fun row _ _ (isCounted : live projectId row = true) => isCounted
  | markForTeardown workspaceId now =>
    refine countP_updateWhere_le fun row _ _ isCounted => ?_
    simp [live, Workspace.tornDown] at isCounted
  | delete workspaceId => exact List.filter_sublist.countP_le
  | resetStale staleCutoff now =>
    refine countP_updateWhere_le fun row _ selected isCounted => ?_
    simp only [stale, Bool.and_eq_true, beq_iff_eq] at selected
    have ofProject : row.projectId = projectId := by simpa [live, Workspace.released] using isCounted
    simp [live, ofProject, selected.1]

variable {now : Timestamp} {params : NewWorkspace}

theorem liveCount_insert (free : table.free params.id = true) (projectId : ProjectId) :
    liveCount projectId (effect (WorkspaceStatement.insert params now) table) =
      liveCount projectId table + if params.projectId = projectId then 1 else 0 := by
  have rows : (table.insert (params.row now)).rows = table.rows ++ [params.row now] := by
    rw [Table.Keyed.rows_insert]
    exact if_pos free
  have isLive : live projectId (params.row now) = decide (params.projectId = projectId) := by
    have running : (WorkspaceState.acquired != .teardown) = true := rfl
    simp only [live, NewWorkspace.row, running, Bool.and_true, beq_eq_decide]
  simp only [liveCount, effect, WorkspaceStatement.effect, rows, List.countP_append,
    List.countP_singleton, isLive, decide_eq_true_eq]

theorem effect_insert_refused (taken : table.free params.id = false) :
    (effect (WorkspaceStatement.insert params now) table).rows = table.rows := by
  simp [effect, WorkspaceStatement.effect, Table.Keyed.rows_insert, NewWorkspace.row, taken]

variable (poolSize : ProjectId → Nat)

def WithinCapacity (table : WorkspaceTable) : Prop :=
  ∀ projectId, liveCount projectId table ≤ poolSize projectId

def FindsRoom (execution : PoolExecution) : Prop :=
  ∀ params now, execution.statement = .insert params now → execution.before.free params.id = true →
      liveCount params.projectId execution.before < poolSize params.projectId

variable {execution : PoolExecution}

theorem withinCapacity_effect_iff {poolSize : ProjectId → Nat}
    (executes : execution.after = effect execution.statement execution.before)
    (within : WithinCapacity poolSize execution.before) :
    WithinCapacity poolSize execution.after ↔ FindsRoom poolSize execution := by
  rw [executes]
  by_cases inserts : ∃ params now, execution.statement = .insert params now
  · obtain ⟨params, now, isInsert⟩ := inserts
    rw [isInsert]
    cases free : execution.before.free params.id with
    | true =>
      constructor
      · intro after other otherNow same _
        cases isInsert.symm.trans same
        have room := after params.projectId
        rw [liveCount_insert free, if_pos rfl] at room
        exact room
      · intro room projectId
        have below := room params now isInsert free
        rw [liveCount_insert free]
        split
        · next same => exact same ▸ below
        · exact within projectId
    | false =>
      constructor
      · intro _ other otherNow same isFree
        cases isInsert.symm.trans same
        rw [free] at isFree
        cases isFree
      · intro _ projectId
        rw [liveCount, effect_insert_refused free]
        exact within projectId
  · constructor
    · intro _ params now same
      exact absurd ⟨params, now, same⟩ inserts
    · intro _ projectId
      have fewer := liveCount_le projectId execution.before fun params now same =>
        inserts ⟨params, now, same⟩
      exact Nat.le_trans fewer (within projectId)

def HeldBy (workspaceId : WorkspaceId) (table : WorkspaceTable) : Prop :=
  ∃ row ∈ table.rows, row.id = workspaceId ∧ row.state = .acquired ∧ row.lastJobId = some jobId

def WorkspaceOperation.calls (workspaceId : WorkspaceId) : WorkspaceOperation → Prop
  | .heartbeat job workspace _ => job = jobId ∧ workspace = workspaceId
  | .releaseWorkspace job workspace _ => job = jobId ∧ workspace = workspaceId
  | _ => False

/-- A heartbeat or release of a job finds a workspace that the job held before acquired for another. -/
structure Overtaken (schedule : List (Choice WorkspaceOperation)) (earlier : List PoolExecution)
    (execution : PoolExecution) (jobId : JobId) (row : Workspace) : Prop where
  calls : ∃ operation, (operations schedule)[execution.session]? = some operation ∧ operation.calls jobId row.id
  held : ∃ older ∈ earlier, HeldBy jobId row.id older.before
  present : row ∈ execution.before.rows
  acquired : row.state = .acquired
  other : row.lastJobId ≠ some jobId

/-- A call that does not name its job comes before another job has the workspace, or writes the
times the row has already. -/
def Timely (schedule : List (Choice WorkspaceOperation)) (earlier : List PoolExecution)
    (execution : PoolExecution) : Prop :=
  ∀ jobId row, Overtaken schedule earlier execution jobId row →
    match execution.statement with
    | .heartbeat _ now => row.heartbeatAt = some now ∧ row.updatedAt = now
    | .release _ owner _ => owner.isSome = true
    | _ => True

def WorkspaceOperation.issues : WorkspaceOperation → WorkspaceStatement → Prop
  | .heartbeat _ workspaceId now, stmt => stmt = .heartbeat workspaceId now
  | .releaseWorkspace jobId workspaceId now, stmt =>
    stmt = .release workspaceId (ownerOf (some jobId)) now
  | _, _ => True

theorem poolProgram_issues (session : Nat) (operation : WorkspaceOperation) :
    (poolProgram poolSize session operation).Issues operation.issues := by
  cases operation with
  | heartbeat jobId workspaceId now | releaseWorkspace jobId workspaceId now => exact ⟨rfl, fun _ => trivial⟩
  | acquireWorkspace projectId projectSlug jobId k8sNamespace inputs => exact Call.issues_true _
  | markForTeardown workspaceId now | delete workspaceId => exact Call.issues_true _
  | resetStaleWorkspaces staleMinutes dateNow now => exact Call.issues_true _

theorem beaten_mem_iff (present : row ∈ table.rows) (acquired : row.state = .acquired) :
    row ∈ (effect (WorkspaceStatement.heartbeat row.id now) table).rows ↔
      row.heartbeatAt = some now ∧ row.updatedAt = now := by
  have selected : beatable row.id row = true := by simp [beatable, acquired]
  constructor
  · intro member
    obtain ⟨old, before, ⟨_, same⟩ | ⟨unselected, same⟩⟩ := mem_updateWhere member
    · have beat : row.heartbeatAt = some now := by rw [same]; rfl
      have updated : row.updatedAt = now := by rw [same]; rfl
      exact ⟨beat, updated⟩
    · rw [← same, selected] at unselected
      cases unselected
  · intro stamped
    have unchanged : row.beaten now = row := by
      rw [Workspace.beaten, ← stamped.1]
      cases row
      cases stamped.2
      rfl
    have successor : (if beatable row.id row = true then row.beaten now else row) ∈
        updateWhere (beatable row.id) (Workspace.beaten now) table.rows :=
      mem_updateWhere_of_mem present
    rw [if_pos selected, unchanged] at successor
    exact successor

variable {jobId : JobId}

theorem released_mem_iff (present : row ∈ table.rows) (acquired : row.state = .acquired)
    (other : row.lastJobId ≠ some jobId) :
    row ∈ (effect (WorkspaceStatement.release row.id (ownerOf (some jobId)) now) table).rows ↔
      (ownerOf (some jobId)).isSome = true := by
  cases named : ownerOf (some jobId) with
  | none =>
    refine ⟨fun member => ?_, nofun⟩
    have selected : releasable row.id none row = true := by simp [releasable, acquired]
    obtain ⟨old, before, ⟨_, same⟩ | ⟨unselected, same⟩⟩ := mem_updateWhere member
    · rw [same] at acquired
      cases acquired
    · rw [← same, selected] at unselected
      cases unselected
  | some owner =>
    refine ⟨fun _ => rfl, fun _ => ?_⟩
    have isJob : owner = jobId := by
      obtain ⟨same, _⟩ := Option.filter_eq_some_iff.mp named
      cases same
      rfl
    have unselected : releasable row.id (some owner) row = false := by
      simp [releasable, acquired, isJob, other]
    have successor : (if releasable row.id (some owner) row = true then row.released now else row) ∈
        updateWhere (releasable row.id (some owner)) (Workspace.released now) table.rows :=
      mem_updateWhere_of_mem present
    rw [unselected] at successor
    exact successor

structure PoolKept (poolSize : ProjectId → Nat) (table : WorkspaceTable)
    (schedule : List (Choice WorkspaceOperation)) : Prop where
  capacity : ∀ execution ∈ (runPool poolSize table schedule).trace, WithinCapacity poolSize execution.after
  /-- An acquired workspace is recorded for one job. -/
  recorded : ∀ execution ∈ (runPool poolSize table schedule).trace,
    ∀ row ∈ execution.after.rows, row.state = .acquired → ∃! jobId, row.lastJobId = some jobId
  /-- It is the job that has it already, or one that acquires it while nobody has it. -/
  acquired : ∀ execution ∈ (runPool poolSize table schedule).trace,
    ∀ jobId workspaceId, HeldBy jobId workspaceId execution.after → HeldBy jobId workspaceId execution.before ∨
        (execution.statement.acquires jobId ∧ ∀ other, ¬ HeldBy other workspaceId execution.before)
  /-- No call of a job changes a workspace that another job has acquired since. -/
  overtaken : ∀ earlier execution later, (runPool poolSize table schedule).trace = earlier ++ execution :: later →
      ∀ jobId row, Overtaken schedule earlier execution jobId row → row ∈ execution.after.rows

def Recorded (table : WorkspaceTable) : Prop :=
  ∀ row ∈ table.rows, row.state = .acquired → row.lastJobId.isSome = true

theorem Recorded.effect (recorded : Recorded table) (stmt : WorkspaceStatement) :
    Recorded (effect stmt table) := by
  intro row member acquired
  rcases acquired_after member acquired with ⟨old, present, _, wasAcquired, same⟩ | ⟨jobId, _, named, _⟩
  · rw [← same]
    exact recorded old present wasAcquired
  · rw [named]
    rfl

theorem overtaken_iff {poolSize : ProjectId → Nat} {schedule : List (Choice WorkspaceOperation)}
    {earlier : List PoolExecution} (member : execution ∈ (runPool poolSize table schedule).trace)
    (overtaken : Overtaken schedule earlier execution jobId row) :
    row ∈ execution.after.rows ↔
      match execution.statement with
      | .heartbeat _ now => row.heartbeatAt = some now ∧ row.updatedAt = now
      | .release _ owner _ => owner.isSome = true
      | _ => True := by
  have executes := (run_executes (poolProgram poolSize) table schedule execution member).2
  obtain ⟨operation, started, isIssued⟩ := run_attributed (poolProgram poolSize) (poolProgram_issues poolSize)
    table schedule execution member
  obtain ⟨other, named, calls⟩ := overtaken.calls
  cases started.symm.trans named
  rw [executes]
  cases operation with
  | heartbeat job workspaceId now =>
    obtain ⟨_, sameId⟩ := calls
    have isBeat : execution.statement = .heartbeat workspaceId now := isIssued
    rw [isBeat, sameId]
    exact beaten_mem_iff overtaken.present overtaken.acquired
  | releaseWorkspace job workspaceId now =>
    obtain ⟨sameJob, sameId⟩ := calls
    have isRelease : execution.statement = .release workspaceId (ownerOf (some job)) now := isIssued
    rw [isRelease, sameId, sameJob]
    exact released_mem_iff overtaken.present overtaken.acquired overtaken.other
  | acquireWorkspace projectId projectSlug job k8sNamespace inputs => cases calls
  | markForTeardown workspaceId now | delete workspaceId => cases calls
  | resetStaleWorkspaces staleMinutes dateNow now => cases calls

theorem acquired_holder (executes : execution.after = effect execution.statement execution.before)
    {workspaceId : WorkspaceId} (held : HeldBy jobId workspaceId execution.after) :
    HeldBy jobId workspaceId execution.before ∨
      (execution.statement.acquires jobId ∧ ∀ other, ¬ HeldBy other workspaceId execution.before) := by
  obtain ⟨row, member, named, acquired, ofJob⟩ := held
  rw [executes] at member
  rcases acquired_after member acquired with ⟨old, present, sameId, wasAcquired, sameJob⟩ |
    ⟨job, acquires, recordedFor, nobody⟩
  · exact .inl ⟨old, present, sameId.trans named, wasAcquired, sameJob.trans ofJob⟩
  · cases recordedFor.symm.trans ofJob
    refine .inr ⟨acquires, fun other held => ?_⟩
    obtain ⟨old, present, oldNamed, wasAcquired, _⟩ := held
    exact nobody old present (oldNamed.trans named.symm) wasAcquired

/-- A run keeps the pool exactly if each insertion finds room and each call that does not name
its job is timely. -/
theorem pool_kept_iff (poolSize : ProjectId → Nat) (table : WorkspaceTable)
    (schedule : List (Choice WorkspaceOperation)) (within : WithinCapacity poolSize table) (recorded : Recorded table) :
    PoolKept poolSize table schedule ↔
      (∀ execution ∈ (runPool poolSize table schedule).trace, FindsRoom poolSize execution) ∧ ∀ earlier execution later,
        (runPool poolSize table schedule).trace = earlier ++ execution :: later →
          Timely schedule earlier execution := by
  have executes := run_executes (poolProgram poolSize) table schedule
  have capacity := run_invariant_iff (poolProgram poolSize) within (FindsRoom poolSize)
    schedule fun execution member => withinCapacity_effect_iff (executes execution member).2
  have inTrace : ∀ earlier execution later, (runPool poolSize table schedule).trace = earlier ++ execution :: later →
        execution ∈ (runPool poolSize table schedule).trace := by
    intro earlier execution later split
    rw [split]
    exact List.mem_append_right _ List.mem_cons_self
  constructor
  · intro kept
    refine ⟨capacity.mp kept.capacity, ?_⟩
    intro earlier execution later split jobId row overtaken
    have unchanged := kept.overtaken earlier execution later split jobId row overtaken
    exact (overtaken_iff (inTrace _ _ _ split) overtaken).mp unchanged
  · intro meets
    obtain ⟨room, timely⟩ := meets
    have throughout := run_invariant (poolProgram poolSize) recorded schedule fun execution member holds => by
        rw [(executes execution member).2]
        exact holds.effect execution.statement
    constructor
    · exact capacity.mpr room
    · intro execution member row present acquired
      have named := (throughout.2 execution member).2 row present acquired
      obtain ⟨jobId, ofJob⟩ := Option.isSome_iff_exists.mp named
      exact ⟨jobId, ofJob, fun other same => Option.some.inj (same.symm.trans ofJob)⟩
    · intro execution member jobId workspaceId held
      exact acquired_holder (executes execution member).2 held
    · intro earlier execution later split jobId row overtaken
      have meets := timely earlier execution later split jobId row overtaken
      exact (overtaken_iff (inTrace _ _ _ split) overtaken).mpr meets

def acquisition (jobId random : String) (now : Timestamp) : WorkspaceOperation :=
  .acquireWorkspace "proj" "app" jobId none { random, acquiredAt := now, insertedAt := now }

/-- The workspace of a job is reset and acquired for another, which the first may still release. -/
def handedOver : List (Choice WorkspaceOperation) :=
  [.start (acquisition "job-1" "a" 0), .advance 0, .advance 0, .advance 0, .start (.heartbeat "job-1" "ws_app_a" 9),
    .advance 1, .start (.resetStaleWorkspaces 30 3600000 3600000), .advance 2,
    .start (acquisition "job-2" "b" 3600001), .advance 3, .start (.releaseWorkspace "job-1" "ws_app_a" 3600002),
    .advance 4, .start (.heartbeat "job-2" "ws_app_a" 3600003), .advance 5]

def WorkspaceOperation.beatsFor (row : Workspace) : WorkspaceOperation → Bool
  | .heartbeat jobId _ _ => row.lastJobId == some jobId
  | _ => false

/-- An insertion finds no live workspace, and a heartbeat comes from the holder. -/
def orderly (execution : PoolExecution) : Bool :=
  match execution.statement with
  | .insert params _ => liveCount params.projectId execution.before == 0
  | .heartbeat .. => execution.before.rows.all fun row => row.state != .acquired ||
      (operations handedOver)[execution.session]?.any (·.beatsFor row)
  | .release _ owner _ => owner.isSome
  | _ => true

theorem handed_over_kept : PoolKept (fun _ => 1) .empty handedOver := by
  have inOrder : ∀ execution ∈ (runPool (fun _ => 1) .empty handedOver).trace, orderly execution = true := by
    decide +kernel
  refine (pool_kept_iff (fun _ => 1) .empty handedOver (fun _ => Nat.zero_le 1) nofun).mpr ⟨?_, ?_⟩
  · intro execution member params now inserts _
    have vacant := inOrder execution member
    simp only [orderly, inserts, beq_iff_eq] at vacant
    exact vacant ▸ Nat.one_pos
  · intro earlier execution later split jobId row overtaken
    have kept := inOrder execution (split ▸ List.mem_append_right _ List.mem_cons_self)
    obtain ⟨operation, started, calls⟩ := overtaken.calls
    cases stmt : execution.statement with
    | heartbeat workspaceId now =>
      simp only [orderly, stmt, List.all_eq_true, Bool.or_eq_true, bne_iff_ne, started, Option.any_some] at kept
      have held := (kept row overtaken.present).resolve_left (not_not_intro overtaken.acquired)
      cases operation with
      | heartbeat job _ _ =>
        obtain ⟨rfl, -⟩ := calls
        exact absurd (beq_iff_eq.mp held) overtaken.other
      | _ => cases held
    | release _ owner _ =>
      simpa only [orderly, stmt] using kept
    | _ => trivial

def crowded : List (Choice WorkspaceOperation) :=
  [.start (acquisition "job-1" "a" 0), .start (acquisition "job-2" "b" 0),
    .advance 0, .advance 1, .advance 0, .advance 1, .advance 0, .advance 1]

/-- The workspace of a job is reset and acquired for another; then a heartbeat of the first comes. -/
def lateHeartbeat : List (Choice WorkspaceOperation) :=
  [.start (acquisition "job-1" "a" 0), .advance 0, .advance 0, .advance 0,
    .start (.resetStaleWorkspaces 30 3600000 3600000), .advance 1, .start (acquisition "job-2" "b" 3600001), .advance 2,
    .start (.heartbeat "job-1" "ws_app_a" 3600002), .advance 3]

/-- A pool of one workspace comes to hold two, and a heartbeat changes another job's workspace. -/
theorem pool_overrun : ¬ PoolKept (fun _ => 1) .empty crowded ∧ ¬ PoolKept (fun _ => 1) .empty lateHeartbeat := by
  constructor
  · intro kept
    have crowds : ((runPool (fun _ => 1) .empty crowded).trace.any fun execution =>
        decide (1 < liveCount "proj" execution.after)) = true := by decide +kernel
    obtain ⟨execution, member, exceeds⟩ := List.any_eq_true.mp crowds
    have below := kept.capacity execution member "proj"
    exact absurd (of_decide_eq_true exceeds) (Nat.not_lt.mpr below)
  · intro kept
    let steps := (runPool (fun _ => 1) .empty lateHeartbeat).trace
    have held : ((steps.take 5).any fun older => older.before.rows.any fun row =>
        row.id == "ws_app_a" && row.state == .acquired && row.lastJobId == some "job-1") = true := by
      decide +kernel
    have found : (steps[5]?.any fun beat => beat.session == 3 && beat.before.rows.any fun row =>
        row.id == "ws_app_a" && row.state == .acquired && row.lastJobId != some "job-1" &&
          !beat.after.rows.contains row) = true := by
      decide +kernel
    obtain ⟨older, earlier, hadIt⟩ := List.any_eq_true.mp held
    obtain ⟨oldRow, wasThere, isIts⟩ := List.any_eq_true.mp hadIt
    obtain ⟨beat, sixth, isBeat⟩ := (Option.any_eq_true _ _).mp found
    obtain ⟨inRange, rfl⟩ := List.getElem?_eq_some_iff.mp sixth
    rw [Bool.and_eq_true, beq_iff_eq] at isBeat
    obtain ⟨session, changed⟩ := isBeat
    obtain ⟨row, present, others⟩ := List.any_eq_true.mp changed
    simp only [Bool.and_eq_true, beq_iff_eq, bne_iff_ne, Bool.not_eq_true'] at isIts others
    obtain ⟨⟨⟨named, acquired⟩, other⟩, gone⟩ := others
    have split : steps = steps.take 5 ++ steps[5] :: steps.drop 6 := by
      rw [List.getElem_cons_drop, List.take_append_drop]
    have overtaken : Overtaken lateHeartbeat (steps.take 5) steps[5] "job-1" row := {
      calls := ⟨.heartbeat "job-1" "ws_app_a" 3600002, by rw [session]; rfl, rfl, named.symm⟩
      held := ⟨older, earlier, oldRow, wasThere, isIts.1.1.trans named.symm, isIts.1.2, isIts.2⟩
      present := present
      acquired := acquired
      other := other }
    have unchanged := kept.overtaken _ _ _ split "job-1" row overtaken
    rw [List.contains_iff_mem.mpr unchanged] at gone
    cases gone

end EveHorizon.Workspaces
