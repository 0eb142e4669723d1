import EveHorizon.Loop.Slots

/-! Which slots are in use, in every order of claims, ends and forced recoveries. The
limiter is a sum: what the tick holds, what pipelines and tracked dispatches hold, and what
is lost. Only a claim that throws and a second dispatch of a job lose a slot. -/

namespace EveHorizon.Loop

open Machine List
open Jobs (JobId Timestamp)

def starts (move : Move LoopEvent Orchestrator) : Bool :=
  decide (move.before.dispatched < move.after.dispatched) ||
    decide (move.before.pipelines.length < move.after.pipelines.length)

def acquires (move : Move LoopEvent Orchestrator) : Bool :=
  (move.after.stage == .claimingPipeline || move.after.stage == .claimingJob) &&
    (move.before.stage != move.after.stage ||
      decide (move.before.pipelines.length < move.after.pipelines.length))

variable {limiter : ConcurrencyLimiter}

theorem tryAcquire_within {acquired : ConcurrencyLimiter} (taken : limiter.tryAcquire = some acquired) :
    acquired.inFlight = limiter.inFlight + 1 ∧ acquired.inFlight ≤ acquired.limit := by
  unfold ConcurrencyLimiter.tryAcquire at taken
  split at taken
  · cases taken
  · cases taken
    exact ⟨rfl, by simp only; omega⟩

theorem release_eq {released : ConcurrencyLimiter} (isReleased : limiter.release = .ok released) :
    0 < limiter.inFlight ∧ released.inFlight = limiter.inFlight - 1 := by
  unfold ConcurrencyLimiter.release at isReleased
  split at isReleased
  · cases isReleased
  · cases isReleased
    exact ⟨by omega, rfl⟩

theorem release_of_pos (busy : 0 < limiter.inFlight) : ∃ released, limiter.release = .ok released := by
  refine ⟨{ limiter with inFlight := limiter.inFlight - 1 }, ?_⟩
  unfold ConcurrencyLimiter.release
  rw [if_neg (by omega)]

/-! ## Slots nobody will give back -/

variable {next : Orchestrator → Orchestrator}

namespace Orchestrator

variable (loop : Orchestrator)

def unassigned : Int :=
  loop.limiter.inFlight - loop.pipelines.length - loop.inFlightJobs.keys.length

def held : Int := if loop.stage.holding then 1 else 0

def lost : Int := loop.unassigned - loop.held

variable {loop : Orchestrator}

theorem lost_of_free (free : loop.stage.holding = false) : loop.lost = loop.unassigned := by
  simp [lost, held, free]

theorem lost_of_holding (holds : loop.stage.holding = true) : loop.lost = loop.unassigned - 1 := by
  simp [lost, held, holds]

variable (loop)

theorem requestTick_lost : loop.requestTick.lost = loop.lost := by
  unfold requestTick
  split
  · rfl
  · split
    · next idle => simp [lost, held, unassigned, idle, TickStage.holding]
    · rfl

theorem wakeLoop_lost : loop.wakeLoop.lost = loop.lost := by
  unfold wakeLoop
  split
  · exact loop.requestTick_lost
  · rfl

theorem endTick_lost : loop.endTick.lost = loop.unassigned := by
  unfold endTick
  split <;> simp [lost, held, unassigned, TickStage.holding]

theorem acquire_lost (loop : Orchestrator) {stage : TickStage} (holds : stage.holding = true) :
    (loop.acquire stage).lost = loop.unassigned := by
  unfold acquire
  cases taken : loop.limiter.tryAcquire with
  | none => exact loop.endTick_lost
  | some acquired =>
    obtain ⟨more, _⟩ := tryAcquire_within taken
    simp only [lost, held, unassigned, holds, more, ↓reduceIte]
    omega

theorem claimLoop_lost : loop.claimLoop.lost = loop.unassigned := by
  unfold claimLoop
  split
  · exact loop.acquire_lost rfl
  · exact loop.endTick_lost

variable {loop}

theorem releaseHeld_lost (busy : 0 < loop.limiter.inFlight)
    (settles : ∀ released, (next released).lost = released.unassigned) :
    (loop.releaseHeld next).lost = loop.unassigned - 1 := by
  obtain ⟨released, isReleased⟩ := release_of_pos busy
  obtain ⟨_, less⟩ := release_eq isReleased
  rw [releaseHeld, isReleased]
  simp only [settles, unassigned, less]
  omega

theorem releaseAndWake_lost {loop : Orchestrator} (busy : 0 < loop.limiter.inFlight) :
    loop.releaseAndWake.lost = loop.lost - 1 := by
  obtain ⟨released, isReleased⟩ := release_of_pos busy
  obtain ⟨_, less⟩ := release_eq isReleased
  rw [releaseAndWake, isReleased]
  simp only [wakeLoop_lost]
  simp only [lost, held, unassigned, less]
  omega

theorem dispatchPipeline_unassigned (loop : Orchestrator) (run : String) :
    (loop.dispatchPipeline run).unassigned = loop.unassigned - 1 := by
  simp only [dispatchPipeline, unassigned, length_cons]
  omega

theorem dispatchJob_unassigned (loop : Orchestrator) (jobId : JobId) (now : Timestamp) :
    (loop.dispatchJob jobId now).unassigned = loop.unassigned - 1 + if jobId ∈ loop.inFlightJobs then 1 else 0 := by
  simp only [dispatchJob, unassigned, AList.keys_insert, length_cons]
  split
  · next tracked =>
    have present := AList.mem_keys.mp tracked
    have some_ := length_pos_of_mem present
    rw [length_erase_of_mem present]
    omega
  · next untracked =>
    rw [erase_of_not_mem fun present => untracked (AList.mem_keys.mpr present)]
    omega

theorem endPipeline_lost (start : 0 ≤ loop.lost) (run : String) : (loop.endPipeline run).lost = loop.lost := by
  unfold endPipeline
  split
  · next running =>
    have some_ := length_pos_of_mem running
    have less := length_erase_of_mem running
    simp only [lost, held, unassigned] at start
    rw [releaseAndWake_lost]
    · simp only [lost, held, unassigned, less]
      omega
    · simp only
      split at start <;> omega
  · rfl

variable {jobId : JobId}

theorem busy_of_tracked (start : 0 ≤ loop.lost) (tracked : jobId ∈ loop.inFlightJobs) :
    0 < loop.limiter.inFlight ∧ 0 < loop.inFlightJobs.keys.length := by
  have some_ := length_pos_of_mem (AList.mem_keys.mp tracked)
  simp only [lost, held, unassigned] at start
  refine ⟨?_, some_⟩
  split at start <;> omega

theorem keys_erase_length (tracked : jobId ∈ loop.inFlightJobs) :
    (loop.inFlightJobs.erase jobId).keys.length = loop.inFlightJobs.keys.length - 1 := by
  rw [AList.keys_erase, length_erase_of_mem (AList.mem_keys.mp tracked)]

theorem endDispatch_lost (start : 0 ≤ loop.lost) (dispatch : Dispatch) :
    (loop.endDispatch dispatch).lost = loop.lost := by
  unfold endDispatch
  split
  · simp only
    split
    · next tracked =>
      obtain ⟨busy, some_⟩ := busy_of_tracked start tracked
      have released := @releaseAndWake_lost { loop with
        inFlightJobs := loop.inFlightJobs.erase dispatch.jobId
        dispatches := loop.dispatches.erase dispatch } busy
      rw [released]
      simp only [lost, held, unassigned, keys_erase_length tracked]
      omega
    · next untracked =>
      have same := erase_of_not_mem fun present => untracked (AList.mem_keys.mpr present)
      rw [wakeLoop_lost]
      simp only [lost, held, unassigned, AList.keys_erase, same]
  · rfl

theorem watchdog_lost (start : 0 ≤ loop.lost) (jobId : JobId) :
    (loop.releaseInFlightDispatchForWatchdog jobId).lost = loop.lost := by
  unfold releaseInFlightDispatchForWatchdog
  cases found : loop.inFlightJobs.lookup jobId with
  | none => rfl
  | some dispatchStart =>
    have tracked : jobId ∈ loop.inFlightJobs := by
      rw [← AList.lookup_isSome, found]
      rfl
    obtain ⟨busy, some_⟩ := busy_of_tracked start tracked
    obtain ⟨released, isReleased⟩ := release_of_pos busy
    obtain ⟨_, less⟩ := release_eq isReleased
    simp only [isReleased, lost, held, unassigned, less, keys_erase_length tracked]
    omega

theorem forceRecover_lost (start : 0 ≤ loop.lost) (jobId : JobId) (now : Timestamp) :
    (loop.forceRecover jobId now).lost = loop.lost := by
  unfold forceRecover
  cases loop.inFlightJobs.lookup jobId with
  | none => rfl
  | some dispatchStart =>
    simp only
    split
    · rfl
    · exact watchdog_lost start jobId

theorem setConcurrency_lost (loop : Orchestrator) (newLimit : Int) :
    (loop.setConcurrency newLimit).lost = loop.lost := by
  unfold setConcurrency ConcurrencyLimiter.setLimit
  split
  · rfl
  · next accepted =>
    split at accepted
    · cases accepted
      rfl
    · cases accepted

end Orchestrator

/-- Slots an event loses for good: that of a claim which throws, and that of a dispatch
whose entry another dispatch of the job overwrites. -/
def LoopEvent.loses (event : LoopEvent) (loop : Orchestrator) : Int :=
  match event, loop.stage with
  | .pipelineClaimed (.error _), .claimingPipeline => 1
  | .jobClaimed (.error _) _, .claimingJob => 1
  | .assignedJobClaimed (.error _) _, .claimingAssignedJob => 1
  | .jobClaimed (.ok (some jobId)) _, .claimingJob => if jobId ∈ loop.inFlightJobs then 1 else 0
  | .assignedJobClaimed (.ok (some jobId)) _, .claimingAssignedJob =>
    if jobId ∈ loop.inFlightJobs then 1 else 0
  | _, _ => 0

namespace Orchestrator

variable {loop : Orchestrator}

theorem throwTick_lost : loop.throwTick.lost = loop.unassigned := by
  simp [throwTick, lost, held, unassigned, TickStage.holding]

theorem busy_of_holding (start : 0 ≤ loop.lost) (holds : loop.stage.holding = true) : 0 < loop.limiter.inFlight := by
  rw [lost_of_holding holds, unassigned] at start
  omega

theorem dispatched_lost (holds : loop.stage.holding = true) (jobId : JobId) (now : Timestamp) :
    (loop.dispatchJob jobId now).claimLoop.lost = loop.lost + if jobId ∈ loop.inFlightJobs then 1 else 0 := by
  rw [claimLoop_lost, dispatchJob_unassigned, lost_of_holding holds]

end Orchestrator

variable {loop : Orchestrator}

open Orchestrator in
theorem step_lost (start : 0 ≤ loop.lost) (event : LoopEvent) :
    (event.step loop).lost = loop.lost + event.loses loop := by
  have free {stage : TickStage} (idle : stage.holding = false) (isStage : loop.stage = stage) :
      loop.lost = loop.unassigned :=
    lost_of_free (isStage ▸ idle)
  have keeps {stage : TickStage} (holds : stage.holding = true) (isStage : loop.stage = stage) :
      loop.stage.holding = true :=
    isStage ▸ holds
  -- One case for each arm of the step.
  unfold LoopEvent.step
  split
  · simp [LoopEvent.loses, requestTick_lost]
  · next stage =>
    simp only [LoopEvent.loses, Int.add_zero]
    split
    · rw [endTick_lost, free rfl stage]
    · rw [claimLoop_lost, free rfl stage]
  · next stage => simp [LoopEvent.loses, throwTick_lost, free rfl stage]
  · next stage => simp [LoopEvent.loses, stage, throwTick_lost, lost_of_holding (keeps rfl stage)]
  · next stage =>
    simp [LoopEvent.loses, claimLoop_lost, dispatchPipeline_unassigned, lost_of_holding (keeps rfl stage)]
  · next stage =>
    have released := releaseHeld_lost (busy_of_holding start (keeps rfl stage))
      fun released => @acquire_lost released .claimingJob rfl
    simp [LoopEvent.loses, released, lost_of_holding (keeps rfl stage)]
  · next stage => simp [LoopEvent.loses, stage, throwTick_lost, lost_of_holding (keeps rfl stage)]
  · next stage => simp [LoopEvent.loses, stage, dispatched_lost (keeps rfl stage)]
  · next stage => simp [LoopEvent.loses, stage, lost, held, unassigned, TickStage.holding]
  · next stage => simp [LoopEvent.loses, stage, throwTick_lost, lost_of_holding (keeps rfl stage)]
  · next stage => simp [LoopEvent.loses, stage, dispatched_lost (keeps rfl stage)]
  · next stage =>
    have released := releaseHeld_lost (busy_of_holding start (keeps rfl stage)) endTick_lost
    simp [LoopEvent.loses, released, lost_of_holding (keeps rfl stage)]
  · simp [LoopEvent.loses, endPipeline_lost start]
  · simp [LoopEvent.loses, endDispatch_lost start]
  · simp [LoopEvent.loses, watchdog_lost start]
  · simp [LoopEvent.loses, forceRecover_lost start]
  · simp [LoopEvent.loses, setConcurrency_lost]
  · simp only [LoopEvent.loses, Int.add_zero]
    rfl
  · unfold LoopEvent.loses
    split <;> simp_all

/-! ## Starting below the limit -/

structure Pauses (before after : Orchestrator) : Prop where
  stage : after.stage = before.stage ∨ (after.stage ≠ .claimingPipeline ∧ after.stage ≠ .claimingJob)
  dispatched : after.dispatched = before.dispatched
  pipelines : after.pipelines.length ≤ before.pipelines.length

def Fits (loop : Orchestrator) : Prop :=
  loop.stage = .claimingPipeline ∨ loop.stage = .claimingJob → loop.limiter.inFlight ≤ loop.limiter.limit

theorem Pauses.of_same {before after : Orchestrator} (stage : after.stage = before.stage)
    (dispatched : after.dispatched = before.dispatched) (pipelines : after.pipelines = before.pipelines) :
    Pauses before after :=
  ⟨.inl stage, dispatched, Nat.le_of_eq (congrArg List.length pipelines)⟩

namespace Orchestrator

variable (loop)

theorem requestTick_pauses : Pauses loop loop.requestTick := by
  unfold requestTick
  split
  · exact .of_same rfl rfl rfl
  · split
    · exact ⟨.inr ⟨by simp, by simp⟩, rfl, Nat.le_refl _⟩
    · exact .of_same rfl rfl rfl

theorem endTick_pauses : Pauses loop loop.endTick := by
  unfold endTick
  split
  · exact ⟨.inr ⟨by simp, by simp⟩, rfl, Nat.le_refl _⟩
  · exact ⟨.inr ⟨by simp, by simp⟩, rfl, Nat.le_refl _⟩

theorem wakeLoop_pauses : Pauses loop loop.wakeLoop := by
  unfold wakeLoop
  split
  · exact loop.requestTick_pauses
  · exact .of_same rfl rfl rfl

theorem releaseAndWake_pauses : Pauses loop loop.releaseAndWake := by
  unfold releaseAndWake
  split
  · exact .of_same rfl rfl rfl
  · next released _ =>
    have woken := { loop with limiter := released }.wakeLoop_pauses
    exact ⟨woken.stage, woken.dispatched, woken.pipelines⟩

theorem endPipeline_pauses (run : String) : Pauses loop (loop.endPipeline run) := by
  unfold endPipeline
  split
  · have ended := { loop with pipelines := loop.pipelines.erase run }.releaseAndWake_pauses
    exact ⟨ended.stage, ended.dispatched, Nat.le_trans ended.pipelines length_erase_le⟩
  · exact .of_same rfl rfl rfl

theorem endDispatch_pauses (dispatch : Dispatch) : Pauses loop (loop.endDispatch dispatch) := by
  let ended := { loop with
    inFlightJobs := loop.inFlightJobs.erase dispatch.jobId
    dispatches := loop.dispatches.erase dispatch }
  unfold endDispatch
  split
  · simp only
    split
    · have released := ended.releaseAndWake_pauses
      exact ⟨released.stage, released.dispatched, released.pipelines⟩
    · have woken := ended.wakeLoop_pauses
      exact ⟨woken.stage, woken.dispatched, woken.pipelines⟩
  · exact .of_same rfl rfl rfl

theorem watchdog_pauses (jobId : JobId) : Pauses loop (loop.releaseInFlightDispatchForWatchdog jobId) := by
  unfold releaseInFlightDispatchForWatchdog
  split
  · exact .of_same rfl rfl rfl
  · simp only
    split
    · exact .of_same rfl rfl rfl
    · exact .of_same rfl rfl rfl

theorem forceRecover_pauses (jobId : JobId) (now : Timestamp) : Pauses loop (loop.forceRecover jobId now) := by
  unfold forceRecover
  split
  · exact .of_same rfl rfl rfl
  · split
    · exact .of_same rfl rfl rfl
    · exact loop.watchdog_pauses jobId

theorem setConcurrency_pauses (newLimit : Int) : Pauses loop (loop.setConcurrency newLimit) := by
  unfold setConcurrency
  split
  · exact .of_same rfl rfl rfl
  · exact .of_same rfl rfl rfl

theorem endTick_fits : Fits loop.endTick := by
  unfold endTick
  split
  · exact fun claims => by simp at claims
  · exact fun claims => by simp at claims

theorem acquire_fits (stage : TickStage) : Fits (loop.acquire stage) := by
  unfold acquire
  cases taken : loop.limiter.tryAcquire with
  | none => exact loop.endTick_fits
  | some acquired => exact fun _ => (tryAcquire_within taken).2

theorem claimLoop_fits : Fits loop.claimLoop := by
  unfold claimLoop
  split
  · exact loop.acquire_fits _
  · exact loop.endTick_fits

theorem claimLoop_starts_nothing :
    loop.claimLoop.dispatched = loop.dispatched ∧ loop.claimLoop.pipelines = loop.pipelines := by
  have ended : loop.endTick.dispatched = loop.dispatched ∧ loop.endTick.pipelines = loop.pipelines := by
    unfold endTick
    split <;> exact ⟨rfl, rfl⟩
  unfold claimLoop acquire
  split
  · split
    · exact ⟨rfl, rfl⟩
    · exact ended
  · exact ended

theorem releaseHeld_fits (fits : ∀ released, Fits (next released)) : Fits (loop.releaseHeld next) := by
  unfold releaseHeld
  split
  · exact fun claims => by simp [throwTick] at claims
  · exact fits _

end Orchestrator

structure KeepsToLimit (move : Move LoopEvent Orchestrator) : Prop where
  -- What is started is started on the slot the tick holds.
  onSlot : starts move = true → move.before.stage.holding = true
  -- A slot is taken below the limit: with it, at most the limit is in flight.
  below : acquires move = true → move.after.limiter.inFlight ≤ move.after.limiter.limit

variable {move : Move LoopEvent Orchestrator}

theorem Pauses.keepsToLimit (pauses : Pauses move.before move.after) : KeepsToLimit move := by
  refine ⟨fun started => ?_, fun acquired => ?_⟩
  · have dispatched := pauses.dispatched
    have pipelines := pauses.pipelines
    simp only [starts, Bool.or_eq_true, decide_eq_true_eq] at started
    omega
  · have pipelines := pauses.pipelines
    simp only [acquires, Bool.and_eq_true, Bool.or_eq_true, beq_iff_eq, bne_iff_ne, decide_eq_true_eq] at acquired
    obtain ⟨claims, entered⟩ := acquired
    rcases pauses.stage with same | elsewhere
    · rcases entered with moved | longer
      · exact absurd same.symm moved
      · omega
    · rcases claims with pipeline | job
      · exact absurd pipeline elsewhere.1
      · exact absurd job elsewhere.2

theorem keepsToLimit_of_fits (holds : starts move = true → move.before.stage.holding = true) (fits : Fits move.after) :
    KeepsToLimit move := by
  refine ⟨holds, fun acquired => fits ?_⟩
  simp only [acquires, Bool.and_eq_true, Bool.or_eq_true, beq_iff_eq] at acquired
  exact acquired.1

open Orchestrator in
theorem step_keepsToLimit (event : LoopEvent) (loop : Orchestrator) : KeepsToLimit ⟨event, loop, event.step loop⟩ := by
  have unchanged : Pauses loop loop := .of_same rfl rfl rfl
  have throws : Pauses loop loop.throwTick := ⟨.inr ⟨by simp [throwTick], by simp [throwTick]⟩,
    rfl, Nat.le_refl _⟩
  have onSlot {event : LoopEvent} {stage : TickStage} {after : Orchestrator} (held : stage.holding = true)
      (fits : Fits after) (isStage : loop.stage = stage) : KeepsToLimit ⟨event, loop, after⟩ :=
    keepsToLimit_of_fits (fun _ => isStage ▸ held) fits
  -- One case for each arm of the step.
  unfold LoopEvent.step
  split
  · exact loop.requestTick_pauses.keepsToLimit
  · split
    · exact loop.endTick_pauses.keepsToLimit
    · refine keepsToLimit_of_fits (fun started => ?_) loop.claimLoop_fits
      obtain ⟨dispatched, pipelines⟩ := loop.claimLoop_starts_nothing
      simp [starts, dispatched, pipelines] at started
  · exact throws.keepsToLimit
  · exact throws.keepsToLimit
  · exact onSlot rfl (claimLoop_fits _) ‹_›
  · exact onSlot rfl (loop.releaseHeld_fits fun released => released.acquire_fits _) ‹_›
  · exact throws.keepsToLimit
  · exact onSlot rfl (claimLoop_fits _) ‹_›
  · exact onSlot rfl (fun claims => by simp at claims) ‹_›
  · exact throws.keepsToLimit
  · exact onSlot rfl (claimLoop_fits _) ‹_›
  · exact onSlot rfl (loop.releaseHeld_fits endTick_fits) ‹_›
  · exact (loop.endPipeline_pauses _).keepsToLimit
  · exact (loop.endDispatch_pauses _).keepsToLimit
  · exact (loop.watchdog_pauses _).keepsToLimit
  · exact (loop.forceRecover_pauses _ _).keepsToLimit
  · exact (loop.setConcurrency_pauses _).keepsToLimit
  · exact Pauses.keepsToLimit (.of_same rfl rfl rfl)
  · exact unchanged.keepsToLimit

/-! ## Dispatches and the map -/

/-- A claim of the tick that does not throw, and claims no job with a dispatch that has not
ended yet. -/
def LoopEvent.orderly (event : LoopEvent) (loop : Orchestrator) : Bool :=
  match event, loop.stage with
  | .pipelineClaimed (.error _), .claimingPipeline => false
  | .jobClaimed (.error _) _, .claimingJob => false
  | .assignedJobClaimed (.error _) _, .claimingAssignedJob => false
  | .jobClaimed (.ok (some jobId)) _, .claimingJob =>
    loop.dispatches.all fun dispatch => dispatch.jobId != jobId
  | .assignedJobClaimed (.ok (some jobId)) _, .claimingAssignedJob =>
    loop.dispatches.all fun dispatch => dispatch.jobId != jobId
  | _, _ => true

/-- Every job has one dispatch at most, and the map holds the dispatches not recovered. -/
structure Tracked (loop : Orchestrator) : Prop where
  distinct : (loop.dispatches.map (·.jobId)).Nodup
  tracked : ∀ jobId, jobId ∈ loop.inFlightJobs ↔
    ∃ dispatch ∈ loop.dispatches, dispatch.jobId = jobId ∧ dispatch.recovered = false

theorem Tracked.of_same {before after : Orchestrator} (tracked : Tracked before)
    (jobs : after.inFlightJobs = before.inFlightJobs)
    (dispatches : after.dispatches = before.dispatches) : Tracked after := by
  constructor
  · rw [dispatches]
    exact tracked.distinct
  · rw [jobs, dispatches]
    exact tracked.tracked

def Orchestrator.working (loop : Orchestrator) : List Dispatch :=
  loop.dispatches.filter fun dispatch => !dispatch.recovered

theorem Tracked.count (tracked : Tracked loop) : loop.inFlightJobs.keys.length = loop.working.length := by
  have distinct : (loop.working.map (·.jobId)).Nodup := tracked.distinct.sublist (filter_sublist.map _)
  have same : loop.inFlightJobs.keys.Perm (loop.working.map (·.jobId)) := by
    refine (perm_ext_iff_of_nodup loop.inFlightJobs.keys_nodup distinct).mpr fun jobId => ?_
    rw [← AList.mem_keys, tracked.tracked jobId]
    simp only [Orchestrator.working, mem_map, mem_filter, Bool.not_eq_true']
    constructor
    · intro ⟨dispatch, member, named, running⟩
      exact ⟨dispatch, ⟨member, running⟩, named⟩
    · intro ⟨dispatch, ⟨member, running⟩, named⟩
      exact ⟨dispatch, member, named, running⟩
  rw [same.length_eq, length_map]

theorem dispatch_unique (tracked : Tracked loop) {left right : Dispatch}
    (first : left ∈ loop.dispatches) (second : right ∈ loop.dispatches)
    (same : left.jobId = right.jobId) : left = right :=
  inj_on_of_nodup_map tracked.distinct first second same

namespace Orchestrator

variable {loop : Orchestrator}

section

variable (tracked : Tracked loop)
include tracked

theorem requestTick_keeps : Tracked loop.requestTick := by
  unfold requestTick
  split
  · exact tracked
  · split
    · exact tracked.of_same rfl rfl
    · exact tracked.of_same rfl rfl

theorem wakeLoop_keeps : Tracked loop.wakeLoop := by
  unfold wakeLoop
  split
  · exact requestTick_keeps tracked
  · exact tracked

theorem endTick_keeps : Tracked loop.endTick := by
  unfold endTick
  split
  · exact tracked.of_same rfl rfl
  · exact tracked.of_same rfl rfl

theorem acquire_keeps (stage : TickStage) : Tracked (loop.acquire stage) := by
  unfold acquire
  split
  · exact tracked.of_same rfl rfl
  · exact endTick_keeps tracked

theorem claimLoop_keeps : Tracked loop.claimLoop := by
  unfold claimLoop
  split
  · exact acquire_keeps tracked _
  · exact endTick_keeps tracked

theorem releaseHeld_keeps (keeps : ∀ released, Tracked released → Tracked (next released)) :
    Tracked (loop.releaseHeld next) := by
  unfold releaseHeld
  split
  · exact tracked.of_same rfl rfl
  · exact keeps _ (tracked.of_same rfl rfl)

theorem releaseAndWake_keeps : Tracked loop.releaseAndWake := by
  unfold releaseAndWake
  split
  · exact tracked
  · exact wakeLoop_keeps (tracked.of_same rfl rfl)

theorem endPipeline_keeps (run : String) : Tracked (loop.endPipeline run) := by
  unfold endPipeline
  split
  · exact releaseAndWake_keeps (tracked.of_same rfl rfl)
  · exact tracked

theorem dispatchJob_keeps {jobId : JobId} (fresh : ∀ dispatch ∈ loop.dispatches, dispatch.jobId ≠ jobId)
    (now : Timestamp) : Tracked (loop.dispatchJob jobId now) := by
  constructor
  · simp only [dispatchJob, map_cons, nodup_cons]
    refine ⟨fun member => ?_, tracked.distinct⟩
    obtain ⟨dispatch, present, named⟩ := mem_map.mp member
    exact fresh dispatch present named
  · intro other
    simp only [dispatchJob, AList.mem_insert, tracked.tracked other, mem_cons]
    constructor
    · intro known
      rcases known with same | ⟨dispatch, member, named, running⟩
      · exact ⟨_, .inl rfl, same.symm, rfl⟩
      · exact ⟨dispatch, .inr member, named, running⟩
    · intro ⟨dispatch, isNew, named, running⟩
      rcases isNew with rfl | member
      · exact .inl named.symm
      · exact .inr ⟨dispatch, member, named, running⟩

theorem ended_tracked {dispatch : Dispatch} (member : dispatch ∈ loop.dispatches) : Tracked { loop with
      inFlightJobs := loop.inFlightJobs.erase dispatch.jobId
      dispatches := loop.dispatches.erase dispatch } := by
  have distinct := tracked.distinct.of_map
  constructor
  · exact tracked.distinct.sublist (erase_sublist.map _)
  · intro other
    simp only [AList.mem_erase, tracked.tracked other, distinct.mem_erase_iff]
    constructor
    · intro ⟨different, found, present, named, running⟩
      refine ⟨found, ⟨fun same => different ?_, present⟩, named, running⟩
      rw [← named, same]
    · intro ⟨found, ⟨different, present⟩, named, running⟩
      refine ⟨fun same => different ?_, found, present, named, running⟩
      exact dispatch_unique tracked present member (named.trans same)

theorem endDispatch_keeps (dispatch : Dispatch) : Tracked (loop.endDispatch dispatch) := by
  unfold endDispatch
  split
  · next member =>
    have ended := ended_tracked tracked member
    simp only
    split
    · exact releaseAndWake_keeps ended
    · exact wakeLoop_keeps ended
  · exact tracked

variable (jobId : JobId)

theorem recovered_tracked : Tracked { loop with
      inFlightJobs := loop.inFlightJobs.erase jobId
      dispatches := loop.recoverDispatches jobId } := by
  have named : ∀ dispatch : Dispatch, (if dispatch.jobId = jobId then
      { dispatch with recovered := true } else dispatch).jobId = dispatch.jobId := by
    intro dispatch
    split <;> rfl
  constructor
  · have same : (loop.recoverDispatches jobId).map (·.jobId) = loop.dispatches.map (·.jobId) := by
      simp only [recoverDispatches, map_map]
      exact map_congr_left fun dispatch _ => named dispatch
    rw [same]
    exact tracked.distinct
  · intro other
    simp only [AList.mem_erase, tracked.tracked other, recoverDispatches, mem_map]
    constructor
    · intro ⟨different, dispatch, member, isOther, running⟩
      refine ⟨dispatch, ⟨dispatch, member, ?_⟩, isOther, running⟩
      rw [if_neg (by rw [isOther]; exact different)]
    · intro ⟨recovered, ⟨dispatch, member, isRecovered⟩, isOther, running⟩
      subst isRecovered
      rw [named] at isOther
      split at running
      · cases running
      · next different =>
        rw [isOther] at different
        exact ⟨different, dispatch, member, isOther, running⟩

theorem watchdog_keeps : Tracked (loop.releaseInFlightDispatchForWatchdog jobId) := by
  unfold releaseInFlightDispatchForWatchdog
  split
  · exact tracked
  · simp only
    split
    · exact recovered_tracked tracked jobId
    · exact (recovered_tracked tracked jobId).of_same rfl rfl

theorem forceRecover_keeps (now : Timestamp) : Tracked (loop.forceRecover jobId now) := by
  unfold forceRecover
  split
  · exact tracked
  · split
    · exact tracked
    · exact watchdog_keeps tracked jobId

theorem setConcurrency_keeps (newLimit : Int) : Tracked (loop.setConcurrency newLimit) := by
  unfold setConcurrency
  split
  · exact tracked
  · exact tracked.of_same rfl rfl

end

end Orchestrator

variable {event : LoopEvent}

open Orchestrator in
theorem step_tracked (tracked : Tracked loop) (isOrderly : event.orderly loop = true) : Tracked (event.step loop) := by
  have fresh {jobId : JobId}
      (other : (loop.dispatches.all fun dispatch => dispatch.jobId != jobId) = true) :
      ∀ dispatch ∈ loop.dispatches, dispatch.jobId ≠ jobId := by
    intro dispatch member
    exact bne_iff_ne.mp (all_eq_true.mp other dispatch member)
  unfold LoopEvent.step
  split
  · exact requestTick_keeps tracked
  · split
    · exact endTick_keeps tracked
    · exact claimLoop_keeps tracked
  · exact tracked.of_same rfl rfl
  · exact tracked.of_same rfl rfl
  · exact claimLoop_keeps (tracked.of_same rfl rfl)
  · exact releaseHeld_keeps tracked fun _ kept => acquire_keeps kept _
  · exact tracked.of_same rfl rfl
  · next stage =>
    simp only [LoopEvent.orderly, stage] at isOrderly
    exact claimLoop_keeps (dispatchJob_keeps tracked (fresh isOrderly) _)
  · exact tracked.of_same rfl rfl
  · exact tracked.of_same rfl rfl
  · next stage =>
    simp only [LoopEvent.orderly, stage] at isOrderly
    exact claimLoop_keeps (dispatchJob_keeps tracked (fresh isOrderly) _)
  · exact releaseHeld_keeps tracked fun _ kept => endTick_keeps kept
  · exact endPipeline_keeps tracked _
  · exact endDispatch_keeps tracked _
  · exact watchdog_keeps tracked _
  · exact forceRecover_keeps tracked _ _
  · exact setConcurrency_keeps tracked _
  · exact tracked.of_same rfl rfl
  · exact tracked

theorem orderly_loses (tracked : Tracked loop) (isOrderly : event.orderly loop = true) : event.loses loop = 0 := by
  have untracked {jobId : JobId}
      (other : (loop.dispatches.all fun dispatch => dispatch.jobId != jobId) = true) :
      jobId ∉ loop.inFlightJobs := by
    intro present
    obtain ⟨dispatch, member, named, _⟩ := (tracked.tracked jobId).mp present
    exact bne_iff_ne.mp (all_eq_true.mp other dispatch member) named
  unfold LoopEvent.orderly at isOrderly
  unfold LoopEvent.loses
  split at isOrderly
  · cases isOrderly
  · cases isOrderly
  · cases isOrderly
  · simp [untracked isOrderly]
  · simp [untracked isOrderly]
  · rfl

theorem loses_nonneg (event : LoopEvent) (loop : Orchestrator) : 0 ≤ event.loses loop := by
  unfold LoopEvent.loses
  split <;> first | decide | (split <;> decide)

/-- Slots in use: the one the tick holds while it claims, those of the pipelines, and those
of the dispatches that have neither ended nor been recovered by force. -/
def Orchestrator.slotsInUse (loop : Orchestrator) : Int :=
  loop.held + loop.pipelines.length + loop.working.length

def Orchestrator.quiescent (loop : Orchestrator) : Bool :=
  !loop.stage.holding && loop.pipelines.isEmpty && loop.dispatches.isEmpty

theorem slotsInUse_of_quiescent (isQuiescent : loop.quiescent = true) : loop.slotsInUse = 0 := by
  simp only [Orchestrator.quiescent, Bool.and_eq_true, Bool.not_eq_true', List.isEmpty_iff] at isQuiescent
  obtain ⟨⟨free, noPipeline⟩, noDispatch⟩ := isQuiescent
  simp [Orchestrator.slotsInUse, Orchestrator.held, Orchestrator.working, free, noPipeline, noDispatch]

theorem inFlight_of_lost (loop : Orchestrator) :
    loop.limiter.inFlight = loop.held + loop.pipelines.length + loop.inFlightJobs.keys.length + loop.lost := by
  simp only [Orchestrator.lost, Orchestrator.unassigned]
  omega

theorem inFlight_nonneg (start : 0 ≤ loop.lost) : 0 ≤ loop.limiter.inFlight := by
  have total := inFlight_of_lost loop
  have held : 0 ≤ loop.held := by
    unfold Orchestrator.held
    split <;> omega
  omega

structure Conserved (loop : Orchestrator) : Prop where
  lost : loop.lost = 0
  tracked : Tracked loop

theorem Conserved.step (conserved : Conserved loop) (isOrderly : event.orderly loop = true) :
    Conserved (event.step loop) := by
  refine ⟨?_, step_tracked conserved.tracked isOrderly⟩
  have kept := step_lost (Int.le_of_eq conserved.lost.symm) event
  rw [kept, conserved.lost, orderly_loses conserved.tracked isOrderly]
  rfl

theorem Conserved.inFlight (conserved : Conserved loop) : loop.limiter.inFlight = loop.slotsInUse := by
  have total := inFlight_of_lost loop
  rw [conserved.lost, conserved.tracked.count] at total
  rw [total, Orchestrator.slotsInUse]
  omega

theorem started_conserved (unused : limiter.inFlight = 0) : Conserved { limiter } where
  lost := by simp [Orchestrator.lost, Orchestrator.unassigned, Orchestrator.held, unused, TickStage.holding]
  tracked := ⟨nodup_nil, fun jobId => by simp [AList.notMem_empty]⟩

/-- In every run the limiter never goes below zero, and takes slots below its limit only. In
a run whose claims do not throw and dispatch no job that has a dispatch in progress, it
counts the slots in use, and nothing when nothing runs. -/
theorem slots_conserved {limiter : ConcurrencyLimiter} (unused : limiter.inFlight = 0) (events : List LoopEvent) :
    (∀ move ∈ slotMoves limiter events, 0 ≤ move.after.limiter.inFlight ∧ KeepsToLimit move) ∧
    ((∀ move ∈ slotMoves limiter events, move.event.orderly move.before = true) → ∀ move ∈ slotMoves limiter events,
        move.after.limiter.inFlight = move.after.slotsInUse ∧
          (move.after.quiescent = true → move.after.limiter.inFlight = 0)) := by
  have started := started_conserved unused
  constructor
  · have kept : ∀ (event : LoopEvent) before, 0 ≤ before.lost → 0 ≤ (event.step before).lost := by
      intro event before start
      rw [step_lost start]
      exact Int.add_nonneg start (loses_nonneg event before)
    obtain ⟨_, throughout⟩ := moves_throughout kept events (Int.le_of_eq started.lost.symm)
    intro move member
    refine ⟨inFlight_nonneg (throughout move member).2, ?_⟩
    have isMove := after_eq member
    obtain ⟨event, before, after⟩ := move
    have same : after = event.step before := isMove
    rw [same]
    exact step_keepsToLimit event before
  · intro isOrderly move member
    have kept : ∀ (event : LoopEvent) before, Conserved before → event.orderly before = true →
        Conserved (event.step before) := fun _ _ conserved meets => conserved.step meets
    obtain ⟨_, throughout⟩ := moves_invariant kept events started isOrderly
    have conserved := (throughout move member).2
    refine ⟨conserved.inFlight, fun isQuiescent => ?_⟩
    rw [conserved.inFlight, slotsInUse_of_quiescent isQuiescent]

def oneSlot : ConcurrencyLimiter := { limit := 1, positive := by decide }

def oneDispatch : List LoopEvent :=
  [.requestTick, .sweepsDone, .pipelineClaimed (.ok none), .jobClaimed (.ok (some "job")) 0,
    .dispatchEnded { id := 0, jobId := "job" }]

theorem one_dispatch_conserved :
    ((slotMoves oneSlot oneDispatch).map fun move => move.after.limiter.inFlight) = [0, 1, 1, 1, 0] ∧
    ∀ move ∈ slotMoves oneSlot oneDispatch, move.after.limiter.inFlight = move.after.slotsInUse ∧
        (move.after.quiescent = true → move.after.limiter.inFlight = 0) :=
  ⟨by decide +kernel, (slots_conserved rfl oneDispatch).2 (by decide +kernel)⟩

def recoveredDispatch : List LoopEvent :=
  [.requestTick, .sweepsDone, .pipelineClaimed (.ok none), .jobClaimed (.ok (some "job")) 0,
    .releaseInFlightDispatchForWatchdog "job"]

theorem recovered_dispatch_uncounted :
    ¬ ∀ (limiter : ConcurrencyLimiter) (events : List LoopEvent), limiter.inFlight = 0 →
      ∀ move ∈ slotMoves limiter events, move.after.limiter.inFlight =
        move.after.held + move.after.pipelines.length + move.after.dispatches.length := by
  intro counted
  have found : ∃ move ∈ slotMoves oneSlot recoveredDispatch, move.after.limiter.inFlight ≠
      move.after.held + move.after.pipelines.length + move.after.dispatches.length := by
    decide +kernel
  obtain ⟨move, member, differs⟩ := found
  exact differs (counted oneSlot recoveredDispatch rfl move member)

end EveHorizon.Loop
