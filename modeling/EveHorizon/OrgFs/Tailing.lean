import EveHorizon.Library.Traces
import EveHorizon.OrgFs.EventLog

/-!
# Tailing the event log

Numbers are given out in the order of insertions, events can be read in the order of commits.
-/

namespace EveHorizon.OrgFs

open Interleaving List Statement

abbrev EventExecution := Execution EventStatement Tailing

namespace Tailing

def visible (store : Tailing) : List OrgFsEvent := store.log.visible store.orgId

theorem executed_polls (limits : List Int) (store : Tailing) : executed (limits.map EventStatement.poll) store =
      { store with
        given := Paging.readAll OrgFsEvent.seq store.start store.visible (limits.map boundedLimit)
          store.given } := by
  induction limits generalizing store with
  | nil => rfl
  | cons limit rest ih =>
    rw [map_cons, executed_cons, ih]
    rfl

theorem visible_distinct (store : Tailing) : (store.visible.map (·.seq)).Nodup := by
  have committed := store.log.distinct
  rw [map_append] at committed
  exact (nodup_append.mp committed).1.sublist (filter_sublist.map _)

def Sound (store : Tailing) : Prop := Paging.Sound OrgFsEvent.seq store.start store.visible store.given

def NothingMissed (store : Tailing) : Prop :=
  Paging.NothingMissed OrgFsEvent.seq store.start store.visible store.given

/-- If the client polls once for each event, every event of its organization that has committed
has been returned to it exactly once. -/
def CatchesUp (store : Tailing) : Prop :=
  ∀ limits : List Int, store.visible.length ≤ limits.length →
    ∀ event ∈ store.log.events, event.orgId = store.orgId → store.start < event.seq →
      (executed (limits.map EventStatement.poll) store).given.count event = 1

variable {store : Tailing} {event : OrgFsEvent}

theorem mem_visible : event ∈ store.visible ↔ event ∈ store.log.events ∧ event.orgId = store.orgId := by
  simp [visible, EventLog.visible, mem_filter]

theorem boundedLimit_pos (limit : Int) : 0 < boundedLimit limit := by
  have positive : 1 ≤ max 1 (min limit 500) := Int.le_max_left _ _
  rw [boundedLimit]
  omega

theorem count_of_sound {given : List OrgFsEvent}
    (sound : Paging.Sound OrgFsEvent.seq store.start store.visible given) (member : event ∈ given) :
    given.count event = 1 :=
  count_eq_one_of_mem (List.Nodup.of_map _ sound.once) member

theorem catchesUp_iff (sound : store.Sound) : store.CatchesUp ↔ store.NothingMissed := by
  constructor
  · intro catchesUp event present starts passed
    by_contra missing
    obtain ⟨committed, ofOrg⟩ := mem_visible.mp present
    let limits : List Int := List.replicate store.visible.length 1
    have counted := catchesUp limits (by simp [limits]) event committed ofOrg starts
    rw [executed_polls] at counted
    have never : event ∉ Paging.readAll OrgFsEvent.seq store.start store.visible
        (limits.map boundedLimit) store.given := Paging.readAll_missed _ passed missing
    rw [count_eq_zero.mpr never] at counted
    cases counted
  · intro nothing limits enough event committed ofOrg starts
    have fewer : Paging.ahead OrgFsEvent.seq store.start store.visible store.given ≤
        (limits.map boundedLimit).length := by
      rw [length_map]
      exact Nat.le_trans countP_le_length enough
    have positive : ∀ limit ∈ limits.map boundedLimit, 0 < limit := by
      intro limit member
      obtain ⟨asked, _, rfl⟩ := mem_map.mp member
      exact boundedLimit_pos asked
    obtain ⟨still, complete⟩ := Paging.readAll_complete store.visible_distinct
      (limits.map boundedLimit) positive sound nothing fewer
    rw [executed_polls]
    exact count_of_sound still (complete event (mem_visible.mpr ⟨committed, ofOrg⟩) starts)

def Ahead (execution : EventExecution) : Prop :=
  ∀ id, execution.statement = .commit id → ∀ event, execution.before.log.uncommitted.find? (·.id == id) = some event →
      event.orgId = execution.before.orgId → execution.before.start < event.seq → execution.before.afterSeq < event.seq

variable {id : String}

theorem visible_commit (found : store.log.uncommitted.find? (·.id == id) = some event) :
    (effect (EventStatement.commit id) store).visible =
      store.visible ++ if event.orgId = store.orgId then [event] else [] := by
  have committed : (store.log.commit id).events = store.log.events ++ [event] := by
    rw [EventLog.commit]
    split
    · next none => rw [found] at none; cases none
    · next other same => rw [found] at same; cases same; rfl
  simp only [visible, EventLog.visible, effect, EventStatement.effect, committed, filter_append, filter_singleton]
  simp

theorem commit_none (missing : store.log.uncommitted.find? (·.id == id) = none) :
    effect (EventStatement.commit id) store = store := by
  have unchanged : store.log.commit id = store.log := by
    rw [EventLog.commit]
    split
    · rfl
    · next other same => rw [missing] at same; cases same
  simp [effect, EventStatement.effect, unchanged]

theorem Sound.effect (sound : store.Sound) (stmt : EventStatement) : Sound (effect stmt store) := by
  cases stmt with
  | insert data => exact sound
  | poll limit => exact Paging.Sound.read sound store.visible_distinct (boundedLimit limit)
  | commit id =>
    cases found : store.log.uncommitted.find? (·.id == id) with
    | none =>
      rw [commit_none found]
      exact sound
    | some event =>
      constructor
      · intro row member
        obtain ⟨present, starts⟩ := sound.rows row member
        rw [visible_commit found]
        exact ⟨mem_append_left _ present, starts⟩
      · exact sound.once

theorem not_given (sound : store.Sound) (inFlight : event ∈ store.log.uncommitted) : event ∉ store.given := by
  intro member
  obtain ⟨present, _⟩ := sound.rows event member
  have committed := (mem_visible.mp present).1
  have distinct := store.log.distinct
  rw [map_append] at distinct
  exact (nodup_append.mp distinct).2.2 _ (mem_map_of_mem committed) _ (mem_map_of_mem inFlight) rfl

theorem nothingMissed_effect_iff {execution : EventExecution}
    (executes : execution.after = effect execution.statement execution.before)
    (sound : execution.before.Sound) (nothing : execution.before.NothingMissed) :
    execution.after.NothingMissed ↔ Ahead execution := by
  obtain ⟨session, stmt, store, after⟩ := execution
  dsimp only at executes sound nothing ⊢
  rw [executes]
  cases stmt with
  | insert data =>
    refine ⟨fun _ => nofun, fun _ => nothing⟩
  | poll limit =>
    have read := Paging.NothingMissed.read nothing store.visible_distinct (boundedLimit limit)
    exact ⟨fun _ => nofun, fun _ => read⟩
  | commit id =>
    cases found : store.log.uncommitted.find? (·.id == id) with
    | none =>
      rw [commit_none found]
      refine ⟨fun _ other same event isFound => ?_, fun _ => nothing⟩
      cases same
      rw [found] at isFound
      cases isFound
    | some event =>
      have inFlight := mem_of_find?_eq_some found
      constructor
      · intro after other same committed isFound ofOrg starts
        cases same
        cases found.symm.trans isFound
        by_contra passed
        have present : event ∈ (effect (EventStatement.commit id) store).visible := by
          rw [visible_commit found, if_pos ofOrg]
          exact mem_append_right _ (mem_singleton_self _)
        exact not_given sound inFlight (after event present starts (Nat.le_of_not_lt passed))
      · intro ahead row present starts passed
        rw [visible_commit found] at present
        rcases mem_append.mp present with old | new
        · exact nothing row old starts passed
        · split at new
          · next ofOrg =>
              cases mem_singleton.mp new
              have above := ahead id rfl event found ofOrg starts
              exact absurd above (Nat.not_lt.mpr passed)
          · cases new

end Tailing

/-- In every run of a client that starts with nothing: from every state it reaches, the client gets
every committed event exactly once, exactly if every commit is ahead of its cursor. -/
theorem events_tailed_iff (log : EventLog) (orgId : String) (start : Nat) (schedule : List (Choice EventOperation)) :
    (∀ execution ∈ (runEvents { log, orgId, start } schedule).trace, execution.after.CatchesUp) ↔
      ∀ execution ∈ (runEvents { log, orgId, start } schedule).trace, Tailing.Ahead execution := by
  let store : Tailing := { log, orgId, start }
  have executes := System.run_executes eventProgram store schedule
  have soundAtFirst : store.Sound := ⟨nofun, nodup_nil⟩
  have nothingAtFirst : store.NothingMissed := fun event _ starts passed =>
    absurd starts (Nat.not_lt.mpr passed)
  have sound := System.run_invariant eventProgram soundAtFirst schedule fun execution member holds => by
      rw [(executes execution member).2]
      exact holds.effect execution.statement
  have missed := System.run_invariant_iff eventProgram nothingAtFirst Tailing.Ahead schedule
    fun execution member nothing => Tailing.nothingMissed_effect_iff (executes execution member).2
      (sound.2 execution member).1 nothing
  refine Iff.trans ?_ missed
  constructor
  · intro catchUp execution member
    exact (Tailing.catchesUp_iff (sound.2 execution member).2).mp (catchUp execution member)
  · intro nothing execution member
    exact (Tailing.catchesUp_iff (sound.2 execution member).2).mpr (nothing execution member)

def upload (id : String) : CreateOrgFsEventData where
  id := id
  orgId := "org_1"
  eventType := "file.updated"
  path := "/notes/" ++ id
  sourceSide := .localSide

def overtakenCommit : List (Choice EventOperation) :=
  [.start (.createEvent (upload "fsev_1")), .start (.createEvent (upload "fsev_2")),
    .advance 0, .advance 1, .advance 1, .start (.listEvents 100), .advance 2, .advance 0]

/-- The event with the smaller number is never returned. -/
theorem smaller_number_lost : ¬ ∀ execution ∈ (runEvents { log := .empty, orgId := "org_1" } overtakenCommit).trace,
      execution.after.CatchesUp := by
  intro everywhere
  have loses : ((runEvents { log := .empty, orgId := "org_1" } overtakenCommit).trace.any
      fun execution => execution.after.visible.length == 2 &&
        execution.after.log.events.any fun event => event.orgId == "org_1" && decide (0 < event.seq) &&
          execution.after.start == 0 && execution.after.orgId == "org_1" &&
          ([.poll 100, .poll 100].foldl (fun store stmt => EventStatement.effect stmt store)
            execution.after).given.count event != 1) = true := by
    decide +kernel
  obtain ⟨execution, member, lost⟩ := any_eq_true.mp loses
  rw [Bool.and_eq_true, beq_iff_eq] at lost
  obtain ⟨two, lost⟩ := lost
  obtain ⟨event, committed, isLost⟩ := any_eq_true.mp lost
  simp only [Bool.and_eq_true, beq_iff_eq, decide_eq_true_eq, bne_iff_ne] at isLost
  obtain ⟨⟨⟨⟨ofOrg, positive⟩, start⟩, client⟩, notOnce⟩ := isLost
  have counted := everywhere execution member [100, 100] (by rw [two]; exact Nat.le_refl _) event
    committed (ofOrg.trans client.symm) (by rw [start]; exact positive)
  exact notOnce counted

end EveHorizon.OrgFs
