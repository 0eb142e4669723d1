import EveHorizon.Events.Router

/-!
# How often a trigger fires

A request for a match of an event is paid for by a claim of the event: within one
claim each match is requested at most once, and an event is claimed again only after
it has been re-queued.
-/

namespace EveHorizon.Events

open Interleaving List Call System
open EventStatement (claimPendingEvents effect matchTriggersForEvent post)

/-! ## Requests are paid for by claims -/

def created (id : EventId) (trigger : TriggerMatch) : EventStatement → EventDb → Nat
  | .post posted fired _, db =>
    if posted = id ∧ fired = trigger ∧ db.nextAnswer.createsRun = true then 1 else 0
  | _, _ => 0

def claimed (id : EventId) : EventStatement → EventDb → Nat
  | .claimPendingEvents limit, db => (db.claimedEvents limit).countP (·.id == id)
  | _, _ => 0

def share (id : EventId) (trigger : TriggerMatch) (event : EventId) (fired : TriggerMatch) : Nat :=
  if event = id ∧ fired = trigger then 1 else 0

section

variable (config : RouterConfig) (id : EventId) (trigger : TriggerMatch)

theorem callInternalApi_within (event : EventId) (fired : TriggerMatch) (request : Request) :
    (callInternalApi config event fired request).Within (claimed id) (created id trigger)
      (share id trigger event fired) := by
  unfold callInternalApi
  split
  · trivial
  · intro db
    refine ⟨?_, ?_⟩
    · simp only [created, claimed]
      split
      · next fires => simp [share, fires.1, fires.2.1]
      · exact Nat.zero_le _
    · simp only [bind_eq, ret_bind]
      split <;> trivial

theorem linkJobToEvent_within (event : EventId) (jobId : Option String) :
    (linkJobToEvent event jobId).Within (claimed id) (created id trigger) 0 := by
  unfold linkJobToEvent
  split
  · trivial
  · exact within_perform fun _ => rfl

variable (event : Event)

theorem triggerMatch_within (fired : TriggerMatch) :
    (triggerMatch config fired event).Within (claimed id) (created id trigger) (share id trigger event.id fired) := by
  have sends (request : Request) : (do
      let jobId ← callInternalApi config event.id fired request
      linkJobToEvent event.id jobId).Within (claimed id) (created id trigger)
        (share id trigger event.id fired) :=
    (callInternalApi_within config id trigger event.id fired request).bind
      fun jobId => linkJobToEvent_within id trigger event.id jobId
  unfold triggerMatch
  split
  · trivial
  · split
    · trivial
    · split
      · split
        · trivial
        · exact sends _
      · exact sends _

theorem fanOutAppLinkEvent_within : (fanOutAppLinkEvent event).Within (claimed id) (created id trigger) 0 := by
  have queues (row : AppLinkSubscription) :
      (queueFor event row).Within (claimed id) (created id trigger) 0 := by
    unfold queueFor
    split
    · show Call.Within _ _ (0 + 0) _
      refine (within_perform fun _ => rfl).bind fun known => ?_
      cases known <;> trivial
    · trivial
  unfold fanOutAppLinkEvent
  split
  · trivial
  · show Call.Within _ _ (0 + 0) _
    refine (within_perform fun _ => rfl).bind fun rows => ?_
    refine (Call.Within.forEach fun row _ => queues row).mono ?_
    simp

theorem triggerMatches_within :
    (triggerMatches config event).Within (claimed id) (created id trigger) (if event.id = id then 1 else 0) := by
  unfold triggerMatches
  rw [← Nat.zero_add (if event.id = id then 1 else 0)]
  refine (within_perform fun _ => rfl).bind fun found => ?_
  rw [← Nat.zero_add (if event.id = id then 1 else 0)]
  refine (fanOutAppLinkEvent_within id trigger event).bind fun _ => ?_
  rw [← Nat.zero_add (if event.id = id then 1 else 0)]
  refine (within_perform fun _ => rfl).bind fun _ => ?_
  have each (fired : TriggerMatch) : ((triggerMatch config fired event).handle .raise).Within
      (claimed id) (created id trigger) (share id trigger event.id fired + 0) :=
    (triggerMatch_within config id trigger event fired).handle fun _ => trivial
  refine (Call.Within.forEach fun fired _ => each fired).mono ?_
  simp only [Nat.add_zero, share, sum_indicator]
  by_cases same : event.id = id
  · simp only [same, true_and, ↓reduceIte]
    have once := nodup_iff_count_le_one.mp found.2 trigger
    simpa [List.count, BEq.beq] using once
  · simp [same]

theorem processEvent_within :
    (processEvent config event).Within (claimed id) (created id trigger) (if event.id = id then 1 else 0) := by
  unfold processEvent
  refine ((triggerMatches_within config id trigger event).bind fun _ =>
    within_perform fun _ => rfl).handle fun _ => within_perform fun _ => rfl

theorem tick_within (tickCount : Nat) : (tick config tickCount).Within (claimed id) (created id trigger) 0 := by
  have claiming : (do
      let claimedEvents ← .perform (.claimPendingEvents config.claimLimit) fun db =>
        db.claimedEvents config.claimLimit
      Call.forEach claimedEvents (processEvent config) : EventCall Unit).Within
        (claimed id) (created id trigger) 0 := by
    intro db
    refine ⟨Nat.zero_le _, ?_⟩
    have each := Call.Within.forEach fun event (_ : event ∈ db.claimedEvents config.claimLimit) =>
      processEvent_within config id trigger event
    refine each.mono ?_
    rw [sum_indicator]
    simp [claimed, created, BEq.beq]
  unfold tick
  split
  · exact (within_perform fun _ => rfl).bind fun _ => claiming
  · exact claiming

end

/-! ## Claims are paid for by re-queueing -/

def requeues (id : EventId) (execution : Execution EventStatement EventDb) : Bool :=
  match execution.statement with
  | .recoverStaleEvents staleAfterSeconds => execution.before.events.any fun event =>
    event.id == id && execution.before.isStale staleAfterSeconds event
  | _ => false

def taken (id : EventId) (db : EventDb) : Nat :=
  if (db.findById id).any (·.status != .pending) then 1 else 0

def EventDb.Distinct (db : EventDb) : Prop := (db.events.map Event.id).Nodup

theorem ids_modify (db : EventDb) (selected : Event → Bool) (change : Event → Event)
    (keeps : ∀ event, (change event).id = event.id) :
    (db.modify selected change).events.map Event.id = db.events.map Event.id := by
  simp only [EventDb.modify, Table.updateWhere, map_map]
  apply map_congr_left
  intro event _
  simp only [Function.comp]
  split
  · exact keeps event
  · rfl

theorem findById_modify (db : EventDb) (selected : Event → Bool) (change : Event → Event)
    (keeps : ∀ event, (change event).id = event.id) (id : EventId) :
    (db.modify selected change).findById id =
      (db.findById id).map fun event => if selected event then change event else event :=
  Table.find?_updateWhere Event.id selected change (fun event _ => keeps event) db.events id

variable {db : EventDb}

theorem distinct_effect (stmt : EventStatement) (distinct : db.Distinct) : (stmt.effect db).Distinct := by
  have modified (selected : Event → Bool) (change : Event → Event)
      (keeps : ∀ event, (change event).id = event.id) : (db.modify selected change).Distinct := by
    rw [EventDb.Distinct, ids_modify db selected change keeps]
    exact distinct
  cases stmt with
  | select | matchTriggersForEvent event | queueDelivery queued subscriptionId => exact distinct
  | insert event =>
    simp only [effect]
    split
    · exact distinct
    · next absent =>
        have missing : db.findById event.id = none := by simpa using absent
        rw [EventDb.findById, find?_eq_none] at missing
        simp only [EventDb.Distinct, map_append, map_cons, map_nil]
        refine nodup_append.mpr ⟨distinct, nodup_singleton _, ?_⟩
        intro older member newer singleton same
        obtain ⟨row, present, rfl⟩ := mem_map.mp member
        rw [mem_singleton.mp singleton] at same
        exact missing row present (by simpa using same)
  | claimPendingEvents limit | recoverStaleEvents staleAfterSeconds => exact modified _ _ fun _ => rfl
  | updateTriggerMetadata id | updateStatus id outcome => exact modified _ _ fun _ => rfl
  | linkJobToEvent id jobId => exact modified _ _ fun _ => rfl
  | post id trigger request | sync matching subscriptions | passTime seconds => exact distinct

variable {event : Event}

theorem EventDb.Distinct.findById_eq (distinct : db.Distinct) (member : event ∈ db.events) :
    db.findById event.id = some event := by
  obtain ⟨found, isFound⟩ : ∃ found, db.findById event.id = some found := by
    rw [← Option.isSome_iff_exists, EventDb.findById, find?_isSome]
    exact ⟨event, member, by simp⟩
  have same : found.id = event.id := by simpa using find?_some isFound
  rw [isFound, inj_on_of_nodup_map distinct (mem_of_find?_eq_some isFound) member same]

variable {limit : Nat} {id : EventId}

theorem mem_pendingIds (member : id ∈ db.pendingIds limit) :
    ∃ event ∈ db.events, event.id = id ∧ event.status = .pending := by
  obtain ⟨event, selected, rfl⟩ := mem_map.mp member
  have sorted := mem_of_mem_take selected
  rw [mem_insertionSort, mem_filter] at sorted
  exact ⟨event, sorted.1, rfl, by simpa using sorted.2⟩

variable (id)

theorem claimed_le_one (limit : Nat) (distinct : db.Distinct) : (db.claimedEvents limit).countP (·.id == id) ≤ 1 := by
  have same : (db.claimedEvents limit).countP (·.id == id) =
      ((db.events.filter (db.isClaimed limit)).map Event.id).count id := by
    rw [EventDb.claimedEvents, countP_map, List.count, countP_map]
    rfl
  rw [same]
  exact nodup_iff_count_le_one.mp (distinct.sublist (filter_sublist.map _)) id

def claims (execution : Execution EventStatement EventDb) : Bool :=
  decide (0 < claimed id execution.statement execution.before)

theorem claimed_le_claims {execution : Execution EventStatement EventDb} (distinct : execution.before.Distinct) :
    claimed id execution.statement execution.before ≤ if claims id execution then 1 else 0 := by
  by_cases none_claimed : claimed id execution.statement execution.before = 0
  · rw [none_claimed]
    exact Nat.zero_le _
  · rw [claims, decide_eq_true (Nat.pos_of_ne_zero none_claimed), if_pos rfl]
    unfold claimed
    split
    · exact claimed_le_one id _ distinct
    · exact Nat.zero_le _

theorem taken_le_one (db : EventDb) : taken id db ≤ 1 := by
  unfold taken
  split <;> omega

theorem taken_modify (selected : Event → Bool) (change : Event → Event) (keeps : ∀ event, (change event).id = event.id)
    (stays : ∀ event, db.findById id = some event → selected event = true → event.status ≠ .pending →
      (change event).status ≠ .pending) :
    taken id db ≤ taken id (db.modify selected change) := by
  unfold taken
  rw [findById_modify db selected change keeps]
  cases isFound : db.findById id with
  | none => exact Nat.le_refl _
  | some event =>
    cases chosen : selected event with
    | false => simp [chosen]
    | true =>
      by_cases waiting : event.status = .pending
      · simp [waiting]
      · have later := stays event isFound chosen waiting
        simp [chosen, waiting, later]

variable {id}

theorem taken_claim (distinct : db.Distinct) (isClaimed : claimed id (.claimPendingEvents limit) db ≠ 0) :
    taken id db = 0 ∧ taken id (db.modify (db.isClaimed limit) db.claim) = 1 := by
  obtain ⟨row, member, same⟩ := countP_pos_iff.mp (Nat.pos_of_ne_zero isClaimed)
  obtain ⟨old, selected, rfl⟩ := mem_map.mp member
  obtain ⟨present, chosen⟩ := mem_filter.mp selected
  have named : old.id = id := by simpa [EventDb.claim] using same
  obtain ⟨waiting, queued, sameId, isPending⟩ := mem_pendingIds (by simpa [EventDb.isClaimed] using chosen)
  have found := distinct.findById_eq present
  have foundWaiting := distinct.findById_eq queued
  rw [sameId, found] at foundWaiting
  cases foundWaiting
  rw [named] at found
  constructor
  · simp [taken, found, isPending]
  · have claimedRow := findById_modify db (db.isClaimed limit) db.claim (fun _ => rfl) id
    simp [taken, claimedRow, found, chosen, EventDb.claim]

theorem taken_effect (id : EventId) (execution : Execution EventStatement EventDb)
    (executed : execution.after = execution.statement.effect execution.before) (distinct : execution.before.Distinct) :
    taken id execution.before + (if claims id execution then 1 else 0) ≤
      taken id execution.after + if requeues id execution then 1 else 0 := by
  obtain ⟨session, stmt, db, after⟩ := execution
  simp only at executed distinct ⊢
  subst executed
  have unclaimed (nothing : claimed id stmt db = 0) : claims id
      ⟨session, stmt, db, stmt.effect db⟩ = false := by
    simp [claims, nothing]
  have unqueued (stays : taken id db ≤ taken id (stmt.effect db)) (nothing : claimed id stmt db = 0) :
      taken id db + (if claims id ⟨session, stmt, db, stmt.effect db⟩ then 1 else 0) ≤
        taken id (stmt.effect db) +
          if requeues id ⟨session, stmt, db, stmt.effect db⟩ then 1 else 0 := by
    rw [unclaimed nothing]
    exact Nat.le_trans stays (Nat.le_add_right _ _)
  cases stmt with
  | select | matchTriggersForEvent event | queueDelivery queued subscriptionId => exact unqueued (Nat.le_refl _) rfl
  | insert event =>
    refine unqueued ?_ rfl
    simp only [effect]
    split
    · exact Nat.le_refl _
    · unfold taken EventDb.findById
      rw [find?_append]
      cases db.events.find? fun row => row.id == id with
      | none => exact Nat.zero_le _
      | some row => exact Nat.le_refl _
  | claimPendingEvents limit =>
    by_cases nothing : claimed id (.claimPendingEvents limit) db = 0
    · refine unqueued (taken_modify id (db.isClaimed limit) db.claim (fun _ => rfl) ?_) nothing
      intro event _ _ _
      simp [EventDb.claim]
    · obtain ⟨before, after⟩ := taken_claim distinct nothing
      rw [before, effect, after]
      split <;> omega
  | recoverStaleEvents staleAfterSeconds =>
    rw [unclaimed rfl]
    cases requeued : requeues id ⟨session, .recoverStaleEvents staleAfterSeconds, db,
        effect (.recoverStaleEvents staleAfterSeconds) db⟩ with
    | true =>
      have bound := taken_le_one id db
      simp only [↓reduceIte, Bool.false_eq_true]
      omega
    | false =>
      refine Nat.add_le_add_right (taken_modify id (db.isStale staleAfterSeconds) db.requeue (fun _ => rfl) ?_) _
      intro event isFound isStale _
      have same : event.id = id := by simpa using find?_some isFound
      simp only [requeues, any_eq_false] at requeued
      have fresh := requeued event (mem_of_find?_eq_some isFound)
      simp [same, isStale] at fresh
  | updateTriggerMetadata id => exact unqueued (taken_modify _ _ _ (fun _ => rfl) fun _ _ _ waiting => waiting) rfl
  | updateStatus id outcome =>
    refine unqueued (taken_modify _ _ _ (fun _ => rfl) fun _ _ _ _ => ?_) rfl
    cases outcome <;> simp [EventOutcome.status]
  | linkJobToEvent id jobId => exact unqueued (taken_modify _ _ _ (fun _ => rfl) fun _ _ _ waiting => waiting) rfl
  | post id trigger request | sync matching subscriptions | passTime seconds => exact unqueued (Nat.le_refl _) rfl

section

variable (config : RouterConfig) (db : EventDb) (schedule : List (Choice EventOperation))

theorem operation_within (id : EventId) (trigger : TriggerMatch) (operation : EventOperation) :
    (operation.call config).Within (claimed id) (created id trigger) 0 := by
  cases operation with
  | tick tickCount => exact tick_within config id trigger tickCount
  | create event =>
    have inserts : (Call.perform (.insert event) fun _ => () : EventCall Unit).Within
        (claimed id) (created id trigger) 0 := within_perform fun _ => rfl
    simp only [EventOperation.call, create]
    cases truthy event.dedupeKey with
    | none => exact inserts
    | some dedupeKey =>
      show Call.Within _ _ (0 + 0) _
      refine (within_perform fun _ => rfl).bind fun existing => ?_
      cases existing with
      | none => exact inserts
      | some event => trivial
  | sync matching subscriptions | passTime seconds => exact within_perform fun _ => rfl

theorem runs_created (id : EventId) (trigger : TriggerMatch) :
    (runRouters config db schedule).store.runs.count (id, trigger) = db.runs.count (id, trigger) +
        total (created id trigger) (runRouters config db schedule).trace := by
  refine run_history _ (fun history reached => reached.runs.count (id, trigger) =
    db.runs.count (id, trigger) + total (created id trigger) history) (by simp [total]) ?_ schedule
  intro history session stmt before soFar _
  have last : (stmt.effect before).runs.count (id, trigger) =
      before.runs.count (id, trigger) + created id trigger stmt before := by
    cases stmt with
    | post posted fired request =>
      simp only [effect, EventDb.answer, created]
      cases before.nextAnswer.createsRun with
      | false => simp
      | true => simp [count_append, count_singleton, Prod.ext_iff]
    | insert event =>
      simp only [effect, created]
      split <;> rfl
    | _ => rfl
  simp only [total, map_append, sum_append, map_cons, map_nil, sum_cons, sum_nil] at soFar ⊢
  show (stmt.effect before).runs.count (id, trigger) = _
  omega

theorem distinct_throughout (distinct : db.Distinct) :
    ∀ execution ∈ (runRouters config db schedule).trace, execution.before.Distinct := by
  have kept := run_invariant (fun _ operation => EventOperation.call config operation)
    distinct schedule ?_
  · exact fun execution member => (kept.2 execution member).1
  · intro execution member before
    obtain ⟨_, executed⟩ := run_executes _ db schedule execution member
    rw [executed]
    exact distinct_effect execution.statement before

theorem runs_le_requeues (distinct : db.Distinct) (id : EventId) (trigger : TriggerMatch) :
    (runRouters config db schedule).store.runs.count (id, trigger) ≤ db.runs.count (id, trigger) + 1 +
        (runRouters config db schedule).trace.countP (requeues id) := by
  have paid := spent_le_gained (fun _ operation => EventOperation.call config operation)
    (claimed id) (created id trigger)
    (fun _ operation => operation_within config id trigger operation) db schedule
  have throughout := distinct_throughout config db schedule distinct
  have counted : total (claimed id) (runRouters config db schedule).trace ≤
      (runRouters config db schedule).trace.countP (claims id) :=
    total_le_countP fun execution member => claimed_le_claims id (throughout execution member)
  have balance := run_measure (fun _ operation => EventOperation.call config operation)
    (taken id) (claims id) (requeues id) db schedule fun execution member =>
      taken_effect id execution (run_executes _ db schedule execution member).2
        (throughout execution member)
  have final := taken_le_one id (runRouters config db schedule).store
  rw [runs_created]
  unfold runRouters at counted final ⊢
  omega

end

/-! ## Every match is requested -/

def needsRequest (event : Event) (trigger : TriggerMatch) : Bool :=
  match trigger.type with
  | .pipeline => (truthy event.refSha).isSome
  | .workflow => true

abbrev Steps := List (EventStatement × EventDb)

variable (steps : Steps)

def Requested (id : EventId) (trigger : TriggerMatch) : Prop :=
  ∃ request db, (post id trigger request, db) ∈ steps

def RequestFailed (id : EventId) : Prop :=
  ∃ trigger request db, (post id trigger request, db) ∈ steps ∧ db.nextAnswer.isOk = false

/-- A delivery of the event was queued for a subscription that was gone by then. -/
def FanOutFailed (id : EventId) : Prop :=
  ∃ subscriptionId db, (EventStatement.queueDelivery id subscriptionId, db) ∈ steps ∧
    db.subscribed subscriptionId = false

variable {steps more : Steps} {trigger : TriggerMatch}

theorem Requested.mono (requested : Requested steps id trigger) (inside : steps ⊆ more) :
    Requested more id trigger := by
  obtain ⟨request, db, member⟩ := requested
  exact ⟨request, db, inside member⟩

theorem RequestFailed.mono (failed : RequestFailed steps id) (inside : steps ⊆ more) : RequestFailed more id := by
  obtain ⟨trigger, request, db, member, refused⟩ := failed
  exact ⟨trigger, request, db, inside member, refused⟩

theorem FanOutFailed.mono (failed : FanOutFailed steps id) (inside : steps ⊆ more) : FanOutFailed more id := by
  obtain ⟨subscriptionId, db, member, gone⟩ := failed
  exact ⟨subscriptionId, db, inside member, gone⟩

def Served (steps : Steps) (event : Event) : Prop :=
  ∃ db, (matchTriggersForEvent event, db) ∈ steps ∧
    (FanOutFailed steps event.id ∨ RequestFailed steps event.id ∨ ∀ trigger ∈ (db.matching event).1,
      needsRequest event trigger = true → Requested steps event.id trigger)

theorem Served.mono (served : Served steps event) (inside : steps ⊆ more) : Served more event := by
  obtain ⟨db, lookedUp, fate⟩ := served
  refine ⟨db, inside lookedUp, ?_⟩
  rcases fate with unqueued | failed | all
  · exact .inl (unqueued.mono inside)
  · exact .inr (.inl (failed.mono inside))
  · exact .inr (.inr fun trigger member needed => (all trigger member needed).mono inside)

variable {config : RouterConfig} {steps : Steps}

section

variable (isConfigured : config.configured = true)
include isConfigured

theorem callInternalApi_path {request : Request} {result : Except String (Option String)}
    (path : (callInternalApi config id trigger request).Path steps result) :
    Requested steps id trigger ∧ ((∃ error, result = .error error) → RequestFailed steps id) := by
  simp only [RouterConfig.configured, Bool.and_eq_true, Option.isSome_iff_ne_none] at isConfigured
  unfold callInternalApi at path
  rw [if_neg (by simpa using isConfigured.1)] at path
  obtain ⟨db, rest, rfl, onward⟩ := path_stmt.mp path
  refine ⟨⟨request, db, mem_cons_self⟩, ?_⟩
  rintro ⟨error, rfl⟩
  refine ⟨trigger, request, db, mem_cons_self, ?_⟩
  simp only [bind_eq, ret_bind] at onward
  cases answered : db.nextAnswer with
  | ok jobId =>
    rw [answered] at onward
    cases (path_ret.mp onward).2
  | notOk status text created | networkError message created => rfl

variable {result : Except String Unit}

omit isConfigured in
theorem linkJobToEvent_path {jobId : Option String}
    (path : (linkJobToEvent id jobId).Path steps result) : result = .ok () := by
  unfold linkJobToEvent at path
  split at path
  · exact (path_ret.mp path).2
  · obtain ⟨_, _, same⟩ := path_perform.mp path
    exact same

theorem triggerMatch_path (path : (triggerMatch config trigger event).Path steps result) :
    (needsRequest event trigger = true → Requested steps event.id trigger) ∧
      ((∃ error, result = .error error) → RequestFailed steps event.id) := by
  have sends {request : Request} (sent : (do
      let jobId ← callInternalApi config event.id trigger request
      linkJobToEvent event.id jobId).Path steps result) :
      (needsRequest event trigger = true → Requested steps event.id trigger) ∧
        ((∃ error, result = .error error) → RequestFailed steps event.id) := by
    rcases Call.Path.of_bind sent with ⟨first, rest, jobId, rfl, called, linked⟩ | ⟨error, called, rfl⟩
    · obtain ⟨requested, _⟩ := callInternalApi_path isConfigured called
      refine ⟨fun _ => requested.mono (subset_append_left _ _), ?_⟩
      rintro ⟨error, rfl⟩
      cases linkJobToEvent_path linked
    · obtain ⟨requested, failed⟩ := callInternalApi_path isConfigured called
      exact ⟨fun _ => requested, fun _ => failed ⟨error, rfl⟩⟩
  have present := isConfigured
  simp only [RouterConfig.configured, Bool.and_eq_true, Option.isSome_iff_ne_none] at present
  unfold triggerMatch at path
  rw [if_neg (by simpa using present.1), if_neg (by simpa using present.2)] at path
  cases kind : trigger.type with
  | pipeline =>
    simp only [kind] at path
    split at path
    · next missing =>
        refine ⟨fun needed => ?_, ?_⟩
        · simp [needsRequest, kind, missing] at needed
        · rintro ⟨error, rfl⟩
          cases (path_ret.mp path).2
    · exact sends path
  | workflow =>
    simp only [kind] at path
    exact sends path

omit isConfigured in
theorem fanOutAppLinkEvent_path {error : String}
    (path : (fanOutAppLinkEvent event).Path steps (.error error)) : FanOutFailed steps event.id := by
  unfold fanOutAppLinkEvent at path
  split at path
  · cases (path_ret.mp path).2
  · obtain ⟨listed, rest, rfl, looped⟩ := path_stmt.mp path
    obtain ⟨row, _, part, within, queued⟩ := Call.Path.forEach_error looped
    unfold queueFor at queued
    split at queued
    · obtain ⟨db, after, rfl, onward⟩ := path_stmt.mp queued
      cases known : db.subscribed row.id with
      | true =>
        simp only [bind_eq, ret_bind, known] at onward
        cases (path_ret.mp onward).2
      | false => exact ⟨row.id, db, mem_cons_of_mem _ (within mem_cons_self), known⟩
    · cases (path_ret.mp queued).2

theorem triggerMatches_path (path : (triggerMatches config event).Path steps result) : Served steps event := by
  obtain ⟨db, rest, rfl, onward⟩ := path_stmt.mp path
  refine ⟨db, mem_cons_self, ?_⟩
  change Call.Path (fanOutAppLinkEvent event >>= _) rest result at onward
  rcases Call.Path.of_bind onward with ⟨fanned, others, _, rfl, _, through⟩ | ⟨error, fanned, rfl⟩
  on_goal 2 => exact .inl ((fanOutAppLinkEvent_path fanned).mono fun step member => mem_cons_of_mem _ member)
  refine .inr ?_
  obtain ⟨recorded, loop, rfl, looped⟩ := path_stmt.mp through
  have inside : loop ⊆ (matchTriggersForEvent event, db) ::
      (fanned ++ (EventStatement.updateTriggerMetadata event.id, recorded) :: loop) :=
    fun step member => mem_cons_of_mem _ (mem_append_right _ (mem_cons_of_mem _ member))
  cases result with
  | ok finished =>
    refine .inr fun trigger member needed => ?_
    obtain ⟨part, within, through⟩ := Call.Path.forEach_ok looped member
    rcases Call.Path.of_handle through with ⟨_, ended, _⟩ | ⟨_, _, _, _, _, rethrown⟩
    · obtain ⟨requested, _⟩ := triggerMatch_path isConfigured ended
      exact (requested needed).mono (List.Subset.trans within inside)
    · cases (path_raise.mp rethrown).2
  | error error =>
    obtain ⟨trigger, _, part, within, through⟩ := Call.Path.forEach_error looped
    rcases Call.Path.of_handle through with ⟨_, _, same⟩ | ⟨first, rest, thrown, rfl, failed, _⟩
    · cases same
    · obtain ⟨_, refused⟩ := triggerMatch_path isConfigured failed
      exact .inl ((refused ⟨thrown, rfl⟩).mono (List.Subset.trans (subset_append_left first rest)
          (List.Subset.trans within inside)))

theorem processEvent_path (path : (processEvent config event).Path steps result) : Served steps event := by
  have body {part : Steps} {outcome : Except String Unit}
      (through : (do
        triggerMatches config event
        .perform (.updateStatus event.id .completed) fun _ => () : EventCall Unit).Path part
          outcome) : Served part event := by
    rcases Call.Path.of_bind through with ⟨first, rest, _, rfl, triggered, _⟩ | ⟨_, triggered, _⟩
    · exact (triggerMatches_path isConfigured triggered).mono (subset_append_left _ _)
    · exact triggerMatches_path isConfigured triggered
  rcases Call.Path.of_handle path with ⟨_, through, _⟩ | ⟨first, rest, _, rfl, through, _⟩
  · exact body through
  · exact (body through).mono (subset_append_left _ _)

end

theorem processEvent_ok (path : (processEvent config event).Path steps result) : result = .ok () := by
  rcases Call.Path.of_handle path with ⟨_, _, same⟩ | ⟨_, _, _, _, _, handled⟩
  · exact same
  · obtain ⟨_, _, same⟩ := path_perform.mp handled
    exact same

def NotClaim (stmt : EventStatement) : Prop := ∀ limit, stmt ≠ .claimPendingEvents limit

theorem triggerMatch_issues (config : RouterConfig) (trigger : TriggerMatch) (event : Event) :
    (triggerMatch config trigger event).Issues NotClaim := by
  have links (jobId : Option String) : (linkJobToEvent event.id jobId).Issues NotClaim := by
    unfold linkJobToEvent
    split
    · trivial
    · exact ⟨by simp [NotClaim], fun _ => trivial⟩
  have calls (request : Request) : (callInternalApi config event.id trigger request).Issues NotClaim := by
    unfold callInternalApi
    split
    · trivial
    · refine ⟨by simp [NotClaim], fun db => ?_⟩
      simp only [bind_eq, ret_bind]
      split <;> trivial
  unfold triggerMatch
  split
  · trivial
  · split
    · trivial
    · split
      · split
        · trivial
        · exact (calls _).bind links
      · exact (calls _).bind links

theorem fanOutAppLinkEvent_issues (event : Event) : (fanOutAppLinkEvent event).Issues NotClaim := by
  unfold fanOutAppLinkEvent
  split
  · trivial
  · refine ⟨by simp [NotClaim], fun db => Issues.forEach fun row _ => ?_⟩
    unfold queueFor
    split
    · refine ⟨by simp [NotClaim], fun db => ?_⟩
      simp only [bind_eq, ret_bind]
      split <;> trivial
    · trivial

theorem processEvent_issues (config : RouterConfig) (event : Event) : (processEvent config event).Issues NotClaim := by
  have performs {α : Type} {stmt : EventStatement} (other : NotClaim stmt)
      (query : EventDb → α) : (Call.perform stmt query : EventCall α).Issues NotClaim :=
    ⟨other, fun _ => trivial⟩
  have triggers : (triggerMatches config event).Issues NotClaim := by
    refine (performs (by simp [NotClaim]) _).bind fun found => ?_
    refine (fanOutAppLinkEvent_issues event).bind fun _ => ?_
    refine (performs (by simp [NotClaim]) _).bind fun _ => ?_
    refine Issues.forEach fun trigger _ => ?_
    exact (triggerMatch_issues config trigger event).handle fun _ => trivial
  refine Issues.handle ?_ fun _ => performs (by simp [NotClaim]) _
  exact triggers.bind fun _ => performs (by simp [NotClaim]) _

theorem create_issues (event : Event) : (create event).Issues NotClaim := by
  have inserts : (Call.perform (.insert event) fun _ => () : EventCall Unit).Issues NotClaim :=
    ⟨by simp [NotClaim], fun _ => trivial⟩
  unfold create
  cases truthy event.dedupeKey with
  | none => exact inserts
  | some dedupeKey =>
    refine ⟨by simp [NotClaim], fun db => ?_⟩
    simp only [bind_eq, ret_bind]
    split
    · trivial
    · exact inserts

theorem tick_path (isConfigured : config.configured = true) {tickCount : Nat}
    (path : (tick config tickCount).Path steps result) (claim : (claimPendingEvents limit, db) ∈ steps)
    (member : event ∈ db.claimedEvents limit) : Served steps event := by
  have claiming {part : Steps} (through : (do
      let claimedEvents ← .perform (.claimPendingEvents config.claimLimit) fun db =>
        db.claimedEvents config.claimLimit
      Call.forEach claimedEvents (processEvent config) : EventCall Unit).Path part result)
      (inside : (claimPendingEvents limit, db) ∈ part) : Served part event := by
    obtain ⟨found, rest, rfl, looped⟩ := path_stmt.mp through
    have issues : (Call.forEach (found.claimedEvents config.claimLimit) (processEvent config)).Issues NotClaim :=
      Issues.forEach fun other _ => processEvent_issues config other
    rcases mem_cons.mp inside with first | later
    · cases first
      cases result with
      | ok finished =>
        obtain ⟨part, within, processed⟩ := Call.Path.forEach_ok looped member
        exact (processEvent_path isConfigured processed).mono fun step inPart => mem_cons_of_mem _ (within inPart)
      | error error =>
        obtain ⟨_, _, _, _, processed⟩ := Call.Path.forEach_error looped
        cases processEvent_ok processed
    · exact absurd rfl (issues.of_path looped _ later limit)
  unfold tick at path
  split at path
  · obtain ⟨_, rest, rfl, through⟩ := path_stmt.mp path
    rcases mem_cons.mp claim with first | later
    · cases first
    · exact (claiming through later).mono fun step inRest => mem_cons_of_mem _ inRest
  · exact claiming path claim

def sampleConfig : RouterConfig where
  claimLimit := 25
  staleAfterSeconds := 60
  internalApiKey := some "key"
  apiUrl := some "http://localhost:4701"

def pushEvent : Event where
  id := "evt_1"
  projectId := "proj_1"
  type := "github.push"
  source := "github"
  envName := none
  refSha := some "c0ffee"
  refBranch := some "main"
  actorType := none
  actorId := none
  payload := none
  dedupeKey := none
  jobId := none
  status := .pending
  processedAt := none
  createdAt := 0
  updatedAt := 0

def workflowMatch (name : String) : TriggerMatch where
  type := .workflow
  name := name
  projectId := "proj_1"
  envName := none

def sampleDb (matching : TriggerMatches) (answers : Nat → ApiAnswer) : EventDb where
  now := 0
  events := [pushEvent]
  matching := fun _ => matching
  answers := answers
  requests := 0
  runs := []

def oneMatch : TriggerMatches := ⟨[workflowMatch "build"], by decide⟩

def twoMatches : TriggerMatches := ⟨[workflowMatch "build", workflowMatch "notify"], by decide⟩

/-- A router claims the event and sends the request, and is never heard of again. A
minute later another router re-queues the event, claims it and sends the request. -/
def crashAfterRequest : List (Choice EventOperation) :=
  [.start (.tick 1), .advance 0, .advance 0, .advance 0, .advance 0, .advance 0, .start (.passTime 61), .advance 1,
    .advance 1, .start (.tick 6), .advance 1, .advance 1, .advance 1, .advance 1, .advance 1, .advance 1]

def crashed : System EventStatement EventDb String Unit :=
  runRouters sampleConfig (sampleDb oneMatch fun _ => .ok none) crashAfterRequest

def requests (id : EventId) (trigger : TriggerMatch) : EventStatement → Bool
  | .post posted fired _ => posted == id && fired == trigger
  | _ => false

def refused : System EventStatement EventDb String Unit :=
  runRouters sampleConfig (sampleDb twoMatches fun _ => .notOk 500 "" false)
    [.start (.tick 1), .advance 0, .advance 0, .advance 0, .advance 0, .advance 0, .advance 0, .advance 0]

end EveHorizon.Events
