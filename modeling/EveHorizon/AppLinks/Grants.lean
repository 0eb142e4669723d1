import EveHorizon.AppLinks.Router
import EveHorizon.Library.Recollection

/-!
# Deliveries under a grant

The router reads a subscription with its grant, and later creates the consumer event.
-/

namespace EveHorizon.AppLinks

open Interleaving List Call Statement

def ProjectAppLinkGrant.covers (grant : ProjectAppLinkGrant) (producerProjectId type : Text) : Bool :=
  grant.exportKind == .events && grant.producerProjectId == producerProjectId && grant.eventTypes.contains type

namespace AppLinkDb

variable (db : AppLinkDb) (subscriptionId : Id)

def currentGrant : Option ProjectAppLinkGrant :=
  (db.subscriptions.find subscriptionId).bind db.eventGrant

def entitles (producerProjectId type : Text) : Bool :=
  (db.currentGrant subscriptionId).any (·.covers producerProjectId type)

def permits (producerProjectId type : Text) : Bool :=
  (db.currentGrant subscriptionId).any fun grant =>
    grant.revokedAt.isNone && grant.covers producerProjectId type

end AppLinkDb

namespace AppLinkStatement

def emission : AppLinkStatement → Option (Id × Id)
  | .emit subscriptionId sourceEvent _ => some (subscriptionId, sourceEvent.id)
  | _ => none

def readsGrants : AppLinkStatement → Bool
  | .listEventSubscriptionsForProducer _ | .findWithGrantsById _ => true
  | _ => false

def looksUpKey : AppLinkStatement → Bool
  | .findByDedupeKey _ _ => true
  | _ => false

/-- What follows the read does not compare the event's type with the grant's types: a retry, or
an offer to a subscription that has types of its own. -/
def skipsTypes (read : AppLinkStatement) (found : AppLinkDb) (subscriptionId : Id) : Bool :=
  match read with
  | .listEventSubscriptionsForProducer _ =>
    (found.subscriptions.find subscriptionId).any fun subscription =>
      decide (subscription.eventTypes.length > 0)
  | _ => true

end AppLinkStatement

abbrev AppLinkTrace := List (Execution AppLinkStatement AppLinkDb)

/-- Each consumer event is created while its grant permits it, and each only once. -/
structure RespectsGrants (trace : AppLinkTrace) : Prop where
  permitted : ∀ execution ∈ trace, ∀ subscriptionId sourceEvent data,
    execution.statement = .emit subscriptionId sourceEvent data →
      execution.before.permits subscriptionId sourceEvent.projectId data.type = true
  once : (trace.filterMap (·.statement.emission)).Nodup

/-- Between what the router has read and the consumer events it creates, nothing happens that it
does not notice. -/
structure Undisturbed (trace : AppLinkTrace) : Prop where
  entitled : ∀ read middle execution, Window (·.readsGrants = true) trace read middle execution →
      ∀ subscriptionId sourceEvent data, execution.statement = .emit subscriptionId sourceEvent data →
        read.statement.skipsTypes read.before subscriptionId = true →
          read.before.entitles subscriptionId sourceEvent.projectId sourceEvent.type = true
  standing : ∀ read middle execution, Window (·.readsGrants = true) trace read middle execution →
      ∀ subscriptionId sourceEvent data, execution.statement = .emit subscriptionId sourceEvent data → ∀ other ∈ middle,
          other.before.permits subscriptionId sourceEvent.projectId sourceEvent.type = true →
            (effect other.statement other.before).permits subscriptionId
              sourceEvent.projectId sourceEvent.type = true
  single : ∀ lookup middle execution, Window (·.looksUpKey = true) trace lookup middle execution →
      ∀ pair, execution.statement.emission = some pair → ∀ other ∈ middle, other.statement.emission ≠ some pair

/-! ## What the router has read -/

structure Offered (read : AppLinkStatement) (found : AppLinkDb) (subscriptionId : Id)
    (consumerProjectId producerProjectId type : Text) : Prop where
  subscribed : ∃ subscription ∈ found.subscriptions.rows, subscription.id = subscriptionId ∧
    subscription.consumerProjectId = consumerProjectId
  granted : ∃ grant, found.currentGrant subscriptionId = some grant ∧ grant.revokedAt = none ∧
    (read.skipsTypes found subscriptionId = false → grant.covers producerProjectId type = true)

structure Since (read : AppLinkStatement) (found : AppLinkDb)
    (steps : List (AppLinkStatement × AppLinkDb)) : Prop where
  reads : read.readsGrants = true
  placed : ∃ front rest, steps = front ++ (read, found) :: rest ∧ ∀ step ∈ rest, step.1.readsGrants = false

/-- A consumer event is created after its subscription was offered and its key was not found. -/
def Consulted (steps : List (AppLinkStatement × AppLinkDb)) : AppLinkStatement → Prop
  | .emit subscriptionId sourceEvent data =>
    data.type = sourceEvent.type ∧
    data.dedupeKey = some (deliveryKey subscriptionId sourceEvent.id) ∧
    (∃ read found, Since read found steps ∧
      Offered read found subscriptionId data.projectId sourceEvent.projectId sourceEvent.type) ∧
    ∃ front found, steps = front ++
        [(.findByDedupeKey data.projectId (deliveryKey subscriptionId sourceEvent.id), found)] ∧
      found.findByDedupeKey data.projectId (deliveryKey subscriptionId sourceEvent.id) = none
  | _ => True

variable {read : AppLinkStatement} {found : AppLinkDb}
  {steps : List (AppLinkStatement × AppLinkDb)}

theorem since_read (isRead : read.readsGrants = true) (front : List (AppLinkStatement × AppLinkDb)) :
    Since read found (front ++ [(read, found)]) :=
  ⟨isRead, front, [], rfl, by simp⟩

variable {stmt : AppLinkStatement}

section

variable (since : Since read found steps)
include since

theorem Since.later (other : stmt.readsGrants = false) (store : AppLinkDb) :
    Since read found (steps ++ [(stmt, store)]) := by
  obtain ⟨front, rest, placed, quiet⟩ := since.placed
  refine ⟨since.reads, front, rest ++ [(stmt, store)], by rw [placed]; simp, ?_⟩
  intro step member
  rcases mem_append.mp member with old | new
  · exact quiet step old
  · rw [mem_singleton.mp new]
    exact other

variable {α : Type} {faults : Faults} {query : AppLinkDb → α}

omit since in
theorem attempt_recalls {invariant : List (AppLinkStatement × AppLinkDb) → Prop}
    (allowed : Consulted steps stmt) (holds : invariant steps)
    (kept : ∀ store, invariant (steps ++ [(stmt, store)])) :
    (attempt faults stmt query).Recalls Consulted (fun later _ => invariant later) steps := by
  rw [attempt]
  split
  · exact ⟨allowed, kept⟩
  · exact holds
  · exact ⟨allowed, kept⟩

theorem attempt_since (allowed : Consulted steps stmt) (other : stmt.readsGrants = false) :
    (attempt faults stmt query).Recalls Consulted (fun later _ => Since read found later) steps :=
  attempt_recalls allowed since fun store => since.later other store

variable {projectId : Text}

theorem attempt_lookup {dedupeKey : Text} : (attempt faults (.findByDedupeKey projectId dedupeKey) fun db =>
        db.findByDedupeKey projectId dedupeKey).Recalls Consulted
      (fun later result => Since read found later ∧ (result = .ok none →
        ∃ front looked, later = front ++ [(.findByDedupeKey projectId dedupeKey, looked)] ∧
          looked.findByDedupeKey projectId dedupeKey = none)) steps := by
  rw [attempt]
  split
  · refine ⟨trivial, fun looked => ⟨since.later rfl looked, fun missed => ?_⟩⟩
    exact ⟨steps, looked, rfl, Except.ok.inj missed⟩
  · exact ⟨since, fun missed => nomatch missed⟩
  · exact ⟨trivial, fun looked => ⟨since.later rfl looked, fun missed => nomatch missed⟩⟩

variable {sourceEvent : Event}

theorem createConsumerAppLinkEvent_recalls {link : ConsumerLink}
    (offered : Offered read found link.subscriptionId link.consumerProjectId sourceEvent.projectId sourceEvent.type) :
    (createConsumerAppLinkEvent faults sourceEvent link).Recalls Consulted
      (fun later _ => Since read found later) steps := by
  have keyed : (consumerEvent sourceEvent link).dedupeKey.filter (!·.isEmpty) =
      some (deliveryKey link.subscriptionId sourceEvent.id) := rfl
  rw [createConsumerAppLinkEvent, create, keyed]
  refine (attempt_lookup since).bind ?_ fun _ _ reached => reached.1
  intro existing later reached
  cases existing with
  | some event => exact reached.1
  | none =>
    have allowed : Consulted later (.emit link.subscriptionId sourceEvent (consumerEvent sourceEvent link)) :=
      ⟨rfl, rfl, ⟨read, found, reached.1, offered⟩, reached.2 rfl⟩
    exact attempt_since reached.1 allowed rfl

variable {delivery : AppLinkEventDelivery}

theorem scheduleDeliveryRetry_recalls {message : Text} :
    (scheduleDeliveryRetry faults delivery message).Recalls Consulted
      (fun later _ => Since read found later) steps := by
  rw [scheduleDeliveryRetry]
  split
  · exact attempt_since since trivial rfl
  · exact attempt_since since trivial rfl

variable {db : AppLinkDb} {subscription : ProjectAppLinkSubscription}
  {row : AppLinkEventSubscriptionRow}

omit since in
theorem row_of_subscription {producerProjectId : Text}
    (shown : db.eventSubscriptionRow producerProjectId subscription = some row) :
    ∃ grant, db.eventGrant subscription = some grant ∧ grant.producerProjectId = producerProjectId ∧
      grant.exportKind = .events ∧ grant.revokedAt = none ∧ row.subscriptionId = subscription.id ∧
      row.consumerProjectId = subscription.consumerProjectId ∧
      row.eventTypes = subscription.eventTypes ∧ row.grantEventTypes = grant.eventTypes := by
  rw [AppLinkDb.eventSubscriptionRow] at shown
  obtain ⟨grant, present, rest⟩ := Option.bind_eq_some_iff.mp shown
  obtain ⟨_, guarded, isRow⟩ := Option.bind_eq_some_iff.mp rest
  by_cases selected : grant.producerProjectId = producerProjectId ∧ grant.exportKind = .events ∧ grant.revokedAt = none
  · obtain ⟨producer, kind, active⟩ := selected
    cases isRow
    exact ⟨grant, present, producer, kind, active, rfl, rfl, rfl, rfl⟩
  · rw [guard, if_neg selected] at guarded
    cases guarded

variable {event : Event}

omit since in
theorem offered_row (listed : row ∈ db.eventSubscriptionsForProducer event.projectId)
    (contains : row.effectiveTypes.contains event.type = true) :
    Offered (.listEventSubscriptionsForProducer event.projectId) db row.subscriptionId
      row.consumerProjectId event.projectId event.type := by
  rw [AppLinkDb.eventSubscriptionsForProducer, mem_insertionSort] at listed
  obtain ⟨subscription, member, shown⟩ := mem_filterMap.mp listed
  obtain ⟨grant, present, producer, kind, active, isId, isConsumer, types, grantTypes⟩ := row_of_subscription shown
  have found : db.subscriptions.find row.subscriptionId = some subscription := by
    rw [isId]
    exact Table.Keyed.find_of_mem member
  refine ⟨⟨subscription, member, isId.symm, isConsumer.symm⟩, grant, ?_, active, ?_⟩
  · rw [AppLinkDb.currentGrant, found]
    exact present
  · intro compared
    have shared : ¬ row.eventTypes.length > 0 := by
      rw [AppLinkStatement.skipsTypes, found, Option.any_some, ← types] at compared
      exact of_decide_eq_false compared
    rw [AppLinkEventSubscriptionRow.effectiveTypes, if_neg shared, grantTypes] at contains
    rw [ProjectAppLinkGrant.covers, producer, kind, contains]
    simp

omit since in
theorem offered_found {id : Id} {grant : ProjectAppLinkGrant}
    (isFound : db.findWithGrantsById id = some (subscription, some grant)) (active : grant.revokedAt = none) :
    Offered (.findWithGrantsById id) db subscription.id subscription.consumerProjectId
      sourceEvent.projectId sourceEvent.type := by
  obtain ⟨row, search, same⟩ := Option.map_eq_some_iff.mp isFound
  obtain ⟨rfl, isGrant⟩ := Prod.mk.inj same
  have member := mem_of_find?_eq_some search
  have found : db.subscriptions.find row.id = some row := Table.Keyed.find_of_mem member
  refine ⟨⟨row, member, rfl, rfl⟩, grant, ?_, active, fun compared => nomatch compared⟩
  rw [AppLinkDb.currentGrant, found]
  exact isGrant

theorem offer_recalls (offered : row.effectiveTypes.contains event.type = true →
      Offered read found row.subscriptionId row.consumerProjectId event.projectId event.type) :
    (offer faults event row).Recalls Consulted (fun later _ => Since read found later) steps := by
  rw [offer]
  cases contains : row.effectiveTypes.contains event.type with
  | false => exact since
  | true =>
    refine (attempt_since since (by trivial) rfl).bind ?_ fun _ _ reached => reached
    intro answer later reached
    cases answer with
    | error message => exact reached
    | ok queued =>
      cases queued with
      | none => exact reached
      | some delivery =>
        have delivered : (do
            let consumerEventId ← createConsumerAppLinkEvent faults event row.link
            attempt faults (.markSuccess delivery.id consumerEventId) fun _ => ()
            return row.evaluation true none (some delivery.id) : AppLinkCall TriggerEvaluationEntry).Recalls Consulted
              (fun last _ => Since read found last) later := by
          refine (createConsumerAppLinkEvent_recalls reached (offered contains)).bind ?_ fun _ _ holds => holds
          intro consumerEventId created holds
          exact (attempt_since holds (by trivial) rfl).bind (fun _ _ marked => marked)
            fun _ _ marked => marked
        refine delivered.handle (fun _ _ holds => holds) ?_
        intro message last holds
        exact (scheduleDeliveryRetry_recalls holds).bind (fun _ _ scheduled => scheduled)
          fun _ _ scheduled => scheduled

theorem offerAll_recalls {rows : List AppLinkEventSubscriptionRow}
    (offered : ∀ row ∈ rows, row.effectiveTypes.contains event.type = true →
      Offered read found row.subscriptionId row.consumerProjectId event.projectId event.type) :
    (offerAll faults event rows).Recalls Consulted (fun later _ => Since read found later) steps := by
  induction rows generalizing steps with
  | nil => exact since
  | cons row rest ih =>
    rw [offerAll]
    refine (offer_recalls since (offered row mem_cons_self)).bind ?_ fun _ _ holds => holds
    intro first later reached
    have others := ih reached fun other member => offered other (mem_cons_of_mem _ member)
    exact others.bind (fun _ _ holds => holds) fun _ _ holds => holds

end

theorem attempt_free (allowed : ∀ steps, Consulted steps stmt) :
    (attempt faults stmt query).Recalls Consulted (fun _ _ => True) steps :=
  attempt_recalls (allowed steps) trivial fun _ => trivial

theorem fanOutAppLinkEvent_recalls : (fanOutAppLinkEvent faults event).Recalls Consulted (fun _ _ => True) steps := by
  rw [fanOutAppLinkEvent]
  split
  · trivial
  · rw [attempt]
    split
    · refine ⟨trivial, fun found => ?_⟩
      have offered : ∀ row ∈ found.eventSubscriptionsForProducer event.projectId,
          row.effectiveTypes.contains event.type = true →
            Offered (.listEventSubscriptionsForProducer event.projectId) found row.subscriptionId
              row.consumerProjectId event.projectId event.type :=
        fun row listed contains => offered_row listed contains
      exact (offerAll_recalls (since_read rfl steps) offered).imp fun _ _ _ => trivial
    · trivial
    · exact ⟨trivial, fun _ => trivial⟩

theorem attempt_quiet (quiet : stmt.emission = none) :
    (attempt faults stmt query).Recalls Consulted (fun _ _ => True) steps := by
  refine attempt_free fun reached => ?_
  cases stmt with
  | emit subscriptionId sourceEvent data => cases quiet
  | _ => trivial

theorem scheduleDeliveryRetry_free {message : Text} :
    (scheduleDeliveryRetry faults delivery message).Recalls Consulted (fun _ _ => True) steps := by
  rw [scheduleDeliveryRetry]
  split
  · exact attempt_quiet rfl
  · exact attempt_quiet rfl

theorem redeliver_recalls : (redeliver faults delivery).Recalls Consulted (fun _ _ => True) steps := by
  rw [redeliver]
  refine (attempt_quiet rfl).free_bind fun sourceEvent reached => ?_
  rw [attempt]
  split
  · refine recalls_perform_bind trivial fun found => ?_
    have since : Since (.findWithGrantsById delivery.subscriptionId) found
        (reached ++ [(.findWithGrantsById delivery.subscriptionId, found)]) := since_read rfl reached
    dsimp only
    split
    · next sourceEvent subscription eventGrant isFound =>
        cases revoked : eventGrant.revokedAt with
        | some time => exact attempt_quiet rfl
        | none =>
          have created : (createConsumerAppLinkEvent faults sourceEvent
              (subscription.link eventGrant)).Recalls Consulted
              (fun later _ => Since (.findWithGrantsById delivery.subscriptionId) found later)
              (reached ++ [(.findWithGrantsById delivery.subscriptionId, found)]) :=
            createConsumerAppLinkEvent_recalls since (offered_found isFound revoked)
          refine Call.Heeds.free_handle ?_ fun _ _ => scheduleDeliveryRetry_free
          exact (created.imp fun _ _ _ => trivial).free_bind fun _ _ => attempt_quiet rfl
    · exact attempt_quiet rfl
  · trivial
  · exact ⟨trivial, fun _ => trivial⟩

theorem raiseSome_recalls {message : Option Text} : (raiseSome message).Recalls Consulted (fun _ _ => True) steps := by
  cases message with
  | none | some text => trivial

variable {faults : TickFaults}

theorem processEvent_recalls : (processEvent faults event).Recalls Consulted (fun _ _ => True) steps := by
  rw [processEvent]
  refine Call.Heeds.free_handle ?_ fun _ reached =>
    Call.Heeds.free_handle (attempt_quiet rfl) fun _ _ => by trivial
  refine raiseSome_recalls.free_bind fun _ _ => ?_
  refine fanOutAppLinkEvent_recalls.free_bind fun evaluations _ => ?_
  refine Call.Heeds.free_bind ((attempt_quiet rfl).free_handle fun _ _ => by trivial) fun _ _ => ?_
  exact raiseSome_recalls.free_bind fun _ _ => attempt_quiet rfl

variable {config : RouterConfig}

theorem tick_recalls {tickCount : Nat} : (tick config tickCount faults).Recalls Consulted (fun _ _ => True) steps := by
  have routes : ∀ reached, (do
      processDueAppLinkDeliveries faults
      let claimedEvents ← attempt faults.claims (.claimPendingEvents config.claimLimit) fun db =>
        db.claimedEvents config.claimLimit
      Call.forEach claimedEvents (processEvent faults) : AppLinkCall Unit).Recalls Consulted
        (fun _ _ => True) reached := by
    intro reached
    refine Call.Heeds.free_bind ?_ fun _ _ => ?_
    · rw [processDueAppLinkDeliveries]
      refine (attempt_quiet rfl).free_bind fun due _ => ?_
      exact Call.Heeds.forEach trivial fun _ _ _ _ => redeliver_recalls
    · refine (attempt_quiet rfl).free_bind fun claimedEvents _ => ?_
      exact Call.Heeds.forEach trivial fun _ _ _ _ => processEvent_recalls
  rw [tick]
  split
  · refine Call.Heeds.free_bind ((attempt_quiet rfl).free_handle fun _ _ => by trivial) ?_
    exact fun _ reached => routes reached
  · exact routes steps

abbrev Quiet (stmt : AppLinkStatement) : Prop := stmt.emission = none

theorem quiet_perform (quiet : stmt.emission = none) :
    (Call.perform stmt query : AppLinkCall α).Issues Quiet :=
  issues_perform quiet

theorem upsertSubscription_quiet {input : UpsertAppLinkSubscriptionInput} :
    (upsertSubscription input).Issues Quiet := by
  refine (quiet_perform rfl).bind fun accepted => ?_
  cases accepted with
  | true | false => trivial

theorem revokeMissing_quiet {producerProjectId : Text} {activeKeys : List GrantKey} :
    (revokeMissing producerProjectId activeKeys).Issues Quiet := by
  refine (quiet_perform rfl).bind fun existing => ?_
  exact Issues.forEach fun grant _ => quiet_perform rfl

theorem deleteMissingForConsumer_quiet {consumerProjectId : Text} {aliases : List Text} :
    (deleteMissingForConsumer consumerProjectId aliases).Issues Quiet := by
  refine (quiet_perform rfl).bind fun existing => ?_
  exact Issues.forEach fun subscription _ => quiet_perform rfl

theorem applyAppLinkReconciliation_quiet {reconciliation : PreparedAppLinkReconciliation} :
    (applyAppLinkReconciliation projectId reconciliation).Issues Quiet := by
  refine Issues.bind (Issues.forEach fun grant _ => quiet_perform rfl) fun _ => ?_
  refine revokeMissing_quiet.bind fun _ => ?_
  refine Issues.bind (Issues.forEach fun _ _ => upsertSubscription_quiet) fun _ => ?_
  exact deleteMissingForConsumer_quiet

theorem createEvent_recalls {data : EventData} :
    (create (fun _ => none) (.insertEvent data) data).Recalls Consulted (fun _ _ => True) steps := by
  rw [create]
  split
  · rw [ret_bind]
    exact attempt_quiet rfl
  · refine Call.Heeds.free_bind (attempt_quiet rfl) fun existing _ => ?_
    cases existing with
    | none => exact attempt_quiet rfl
    | some event => trivial

theorem call_recalls {operation : AppLinkOperation} :
    (operation.call config).Recalls Consulted (fun _ _ => True) steps := by
  have free : ∀ stmt, Quiet stmt → ∀ reached, Consulted reached stmt := by
    intro stmt quiet reached
    cases stmt with
    | emit subscriptionId sourceEvent data => cases quiet
    | _ => trivial
  cases operation with
  | tick tickCount faults => exact tick_recalls
  | createEvent data => exact createEvent_recalls.free_bind fun _ _ => trivial
  | applyAppLinkReconciliation projectId reconciliation =>
    exact applyAppLinkReconciliation_quiet.recalls free
  | upsertGrant key eventTypes | markRevoked id | passTime seconds => exact ⟨trivial, fun _ => trivial⟩
  | upsertSubscription input => exact upsertSubscription_quiet.recalls free

/-! ## Subscriptions keep their consumer -/

def Drawn (db : AppLinkDb) : Prop := ∀ subscription ∈ db.subscriptions.rows, subscription.id < db.nextId

instance (db : AppLinkDb) : Decidable (Drawn db) :=
  inferInstanceAs (Decidable (∀ subscription ∈ db.subscriptions.rows, subscription.id < db.nextId))

/-- The identifier can only be one of a subscription of the project. -/
structure Belongs (subscriptionId : Id) (projectId : Text) (db : AppLinkDb) : Prop where
  drawn : subscriptionId < db.nextId
  owner : ∀ subscription ∈ db.subscriptions.rows, subscription.id = subscriptionId →
    subscription.consumerProjectId = projectId

theorem subscription_origin (member : subscription ∈ (effect stmt db).subscriptions.rows) :
    (∃ old ∈ db.subscriptions.rows, old.id = subscription.id ∧ old.consumerProjectId = subscription.consumerProjectId) ∨
    (subscription.id = db.nextId ∧ db.nextId < (effect stmt db).nextId) := by
  have same : (effect stmt db).subscriptions = db.subscriptions →
      ∃ old ∈ db.subscriptions.rows, old.id = subscription.id ∧
        old.consumerProjectId = subscription.consumerProjectId := by
    intro unchanged
    rw [unchanged] at member
    exact ⟨subscription, member, rfl, rfl⟩
  cases stmt with
  | queue subscriptionId sourceEventId =>
    refine .inl (same ?_)
    simp only [effect, AppLinkStatement.effect]
    split
    · rfl
    · rfl
  | upsertGrant key eventTypes =>
    refine .inl (same ?_)
    simp only [effect, AppLinkStatement.effect, AppLinkDb.upsertGrant]
    split
    · rfl
    · rfl
  | upsertSubscription input =>
    simp only [effect, AppLinkStatement.effect, AppLinkDb.upsertSubscription] at member ⊢
    split at member
    · exact .inl ⟨subscription, member, rfl, rfl⟩
    · next accepted =>
        split at member
        · obtain ⟨old, present, changed⟩ := Table.mem_updateWhere member
          refine .inl ⟨old, present, ?_⟩
          rcases changed with ⟨_, isNew⟩ | ⟨_, isNew⟩
          · rw [isNew]
            exact ⟨rfl, rfl⟩
          · rw [isNew]
            exact ⟨rfl, rfl⟩
        · next added =>
            rcases Table.Keyed.mem_insert member with old | ⟨_, rfl⟩
            · exact .inl ⟨subscription, old, rfl, rfl⟩
            · rw [if_neg accepted, if_neg added]
              exact .inr ⟨rfl, Nat.lt_succ_self _⟩
  | deleteSubscription id =>
    obtain ⟨present, _⟩ := Table.Keyed.mem_delete.mp member
    exact .inl ⟨subscription, present, rfl, rfl⟩
  | _ => exact .inl (same rfl)

variable (stmt : AppLinkStatement)

theorem nextId_le (db : AppLinkDb) : db.nextId ≤ (effect stmt db).nextId := by
  cases stmt with
  | queue subscriptionId sourceEventId =>
    simp only [effect, AppLinkStatement.effect]
    split
    · exact Nat.le_succ _
    · exact Nat.le_refl _
  | upsertGrant key eventTypes =>
    simp only [effect, AppLinkStatement.effect, AppLinkDb.upsertGrant]
    split
    · exact Nat.le_refl _
    · exact Nat.le_succ _
  | upsertSubscription input =>
    simp only [effect, AppLinkStatement.effect, AppLinkDb.upsertSubscription]
    split
    · exact Nat.le_refl _
    · split
      · exact Nat.le_refl _
      · exact Nat.le_succ _
  | insertEvent data | emit subscriptionId sourceEvent data => exact Nat.le_succ _
  | _ => exact Nat.le_refl _

theorem drawn_kept (drawn : Drawn db) : Drawn (effect stmt db) := by
  intro subscription member
  rcases subscription_origin member with ⟨old, present, isId, _⟩ | ⟨isId, advanced⟩
  · rw [← isId]
    exact Nat.lt_of_lt_of_le (drawn old present) (nextId_le stmt db)
  · rw [isId]
    exact advanced

theorem belongs_kept {subscriptionId : Id} (belongs : Belongs subscriptionId projectId db) :
    Belongs subscriptionId projectId (effect stmt db) := by
  refine ⟨Nat.lt_of_lt_of_le belongs.drawn (nextId_le stmt db), ?_⟩
  intro subscription member named
  rcases subscription_origin member with ⟨old, present, isId, isConsumer⟩ | ⟨isId, _⟩
  · rw [← isConsumer]
    exact belongs.owner old present (isId.trans named)
  · have drawn := belongs.drawn
    rw [← named, isId] at drawn
    exact absurd drawn (Nat.lt_irrefl _)

theorem belongs_of_mem (drawn : Drawn db) (member : subscription ∈ db.subscriptions.rows) :
    Belongs subscription.id subscription.consumerProjectId db := by
  refine ⟨drawn subscription member, fun other present same => ?_⟩
  rw [Table.Keyed.eq_of_key present member same]

section

variable {config : RouterConfig} {db : AppLinkDb} {schedule : List (Choice AppLinkOperation)}

theorem run_drawn (start : Drawn db) :
    ∀ execution ∈ (runAppLinks config db schedule).trace, Drawn execution.before := by
  have kept := System.run_history_invariant
    (fun (_ : Nat) (operation : AppLinkOperation) => operation.call config) start schedule
    fun _ execution _ _ _ drawn => drawn_kept execution.statement drawn
  exact fun execution member => (kept execution member).1

variable {execution : Execution AppLinkStatement AppLinkDb}

theorem consumer_agrees (start : Drawn db) (ran : execution ∈ (runAppLinks config db schedule).trace)
    {other : Execution AppLinkStatement AppLinkDb} (ranToo : other ∈ (runAppLinks config db schedule).trace)
    {first second : ProjectAppLinkSubscription} (shown : first ∈ execution.before.subscriptions.rows)
    (shownToo : second ∈ other.before.subscriptions.rows) (same : first.id = second.id) :
    first.consumerProjectId = second.consumerProjectId := by
  have lasts : ∀ {earlier middle later : AppLinkTrace}
      {older newer : Execution AppLinkStatement AppLinkDb} {row : ProjectAppLinkSubscription},
      (runAppLinks config db schedule).trace = earlier ++ older :: middle ++ newer :: later →
      row ∈ older.before.subscriptions.rows → Belongs row.id row.consumerProjectId newer.before := by
    intro earlier middle later older newer row split member
    have present : older ∈ (runAppLinks config db schedule).trace := by
      rw [split]
      simp
    have belongs := belongs_of_mem (run_drawn start older present) member
    exact System.run_stretch _ db schedule split (belongs_kept older.statement belongs)
      fun between _ kept => belongs_kept between.statement kept
  obtain ⟨earlier, later, split⟩ := append_of_mem ran
  have place := ranToo
  rw [split] at place
  rcases mem_append.mp place with before | rest
  · obtain ⟨front, middle, isEarlier⟩ := append_of_mem before
    rw [isEarlier] at split
    exact (lasts split shownToo).owner first shown same
  · rcases mem_cons.mp rest with isSame | after
    · rw [isSame] at shownToo
      exact (belongs_of_mem (run_drawn start execution ran) shownToo).owner first shown same
    · obtain ⟨middle, back, isLater⟩ := append_of_mem after
      rw [isLater, ← cons_append, ← append_assoc] at split
      exact ((lasts split shown).owner second shownToo same.symm).symm

variable {earlier later : AppLinkTrace} {subscriptionId : Id} {sourceEvent : Event}
  {data : EventData}

section

variable (split : (runAppLinks config db schedule).trace = earlier ++ execution :: later)
include split

section

variable (emits : execution.statement = .emit subscriptionId sourceEvent data)
include emits

theorem run_consulted : Consulted (stepsIn earlier execution.session) (.emit subscriptionId sourceEvent data) := by
  have recalled := (System.run_recalls (fun (_ : Nat) (operation : AppLinkOperation) =>
    operation.call config) (fun _ _ => call_recalls) db schedule).1 earlier execution later split
  rw [emits] at recalled
  exact recalled

theorem read_window : ∃ read ∈ earlier, ∃ middle,
      Window (·.readsGrants = true) (runAppLinks config db schedule).trace read middle execution ∧
        Offered read.statement read.before subscriptionId data.projectId sourceEvent.projectId sourceEvent.type := by
  obtain ⟨_, _, ⟨read, found, since, offered⟩, _⟩ := run_consulted split emits
  obtain ⟨front, rest, placed, quiet⟩ := since.placed
  have unmarked : ∀ step ∈ rest, ¬ step.1.readsGrants = true := by
    intro step member reads
    rw [quiet step member] at reads
    cases reads
  obtain ⟨start, mark, middle, isEarlier, window, isRead, isFound⟩ :=
    window_of_steps (·.readsGrants = true) split placed since.reads unmarked
  refine ⟨mark, by rw [isEarlier]; simp, middle, window, ?_⟩
  rw [isRead, isFound]
  exact offered

theorem lookup_window : ∃ start lookup middle, earlier = start ++ lookup :: middle ∧
      Window (·.looksUpKey = true) (runAppLinks config db schedule).trace lookup middle execution ∧
        lookup.statement.emission = none ∧
        lookup.before.findByDedupeKey data.projectId (deliveryKey subscriptionId sourceEvent.id) = none := by
  obtain ⟨_, _, _, front, found, placed, missed⟩ := run_consulted split emits
  obtain ⟨start, mark, middle, isEarlier, window, isLookup, isFound⟩ :=
    window_of_steps (·.looksUpKey = true) split placed rfl fun step member => nomatch member
  refine ⟨start, mark, middle, isEarlier, window, ?_, ?_⟩
  · rw [isLookup]
    rfl
  · rw [isFound]
    exact missed

end

end

def HasKey (projectId dedupeKey : Text) (store : AppLinkDb) : Prop :=
  ∃ event ∈ store.events, event.projectId = projectId ∧ event.dedupeKey = some dedupeKey

theorem hasKey_kept {store : AppLinkDb} {projectId dedupeKey : Text} (keyed : HasKey projectId dedupeKey store) :
    HasKey projectId dedupeKey (effect stmt store) := by
  obtain ⟨event, member, keyed⟩ := keyed
  have modified : ∀ (selected : Event → Bool) (change : Event → Event),
      (∀ row, (change row).toEventData = row.toEventData) →
        HasKey projectId dedupeKey (store.modifyEvents selected change) := by
    intro selected change keeps
    refine ⟨_, Table.mem_updateWhere_of_mem member, ?_⟩
    split
    · rw [keeps event]
      exact keyed
    · exact keyed
  cases stmt with
  | queue subscriptionId sourceEventId =>
    simp only [effect, AppLinkStatement.effect]
    split
    · exact ⟨event, member, keyed⟩
    · exact ⟨event, member, keyed⟩
  | insertEvent data => exact ⟨event, mem_append_left _ member, keyed⟩
  | emit subscriptionId sourceEvent data => exact ⟨event, mem_append_left _ member, keyed⟩
  | claimPendingEvents limit | recoverStaleEvents staleAfterSeconds => exact modified _ _ fun _ => rfl
  | updateTriggerMetadata id evaluations | updateStatus id status => exact modified _ _ fun _ => rfl
  | upsertGrant key eventTypes =>
    simp only [effect, AppLinkStatement.effect, AppLinkDb.upsertGrant]
    split
    · exact ⟨event, member, keyed⟩
    · exact ⟨event, member, keyed⟩
  | upsertSubscription input =>
    simp only [effect, AppLinkStatement.effect, AppLinkDb.upsertSubscription]
    split
    · exact ⟨event, member, keyed⟩
    · split
      · exact ⟨event, member, keyed⟩
      · exact ⟨event, member, keyed⟩
  | _ => exact ⟨event, member, keyed⟩

variable {first second : Execution AppLinkStatement AppLinkDb}

theorem emission_project (start : Drawn db) {front back : AppLinkTrace}
    (split : (runAppLinks config db schedule).trace = earlier ++ first :: later)
    (splitToo : (runAppLinks config db schedule).trace = front ++ second :: back) {otherEvent : Event}
    {otherData : EventData} (emits : first.statement = .emit subscriptionId sourceEvent data)
    (emitsToo : second.statement = .emit subscriptionId otherEvent otherData) :
    data.projectId = otherData.projectId := by
  obtain ⟨read, isEarlier, _, _, offered⟩ := read_window split emits
  obtain ⟨otherRead, isFront, _, _, offeredToo⟩ := read_window splitToo emitsToo
  obtain ⟨subscription, shown, isId, isConsumer⟩ := offered.subscribed
  obtain ⟨other, shownToo, isOtherId, isOtherConsumer⟩ := offeredToo.subscribed
  have ran : read ∈ (runAppLinks config db schedule).trace := by
    rw [split]
    exact mem_append_left _ isEarlier
  have ranToo : otherRead ∈ (runAppLinks config db schedule).trace := by
    rw [splitToo]
    exact mem_append_left _ isFront
  rw [← isConsumer, ← isOtherConsumer]
  exact consumer_agrees start ran ranToo shown shownToo (isId.trans isOtherId.symm)

theorem emission_found {middle : AppLinkTrace}
    (split : (runAppLinks config db schedule).trace = earlier ++ first :: middle ++ second :: later)
    (emits : first.statement = .emit subscriptionId sourceEvent data) :
    second.before.findByDedupeKey data.projectId (deliveryKey subscriptionId sourceEvent.id) ≠ none := by
  have ran : (runAppLinks config db schedule).trace = earlier ++ first :: (middle ++ second :: later) := by
    rw [split]
    simp
  obtain ⟨_, isKey, _⟩ := run_consulted ran emits
  have created : HasKey data.projectId (deliveryKey subscriptionId sourceEvent.id)
      (effect first.statement first.before) := by
    rw [emits]
    exact ⟨first.before.newEvent data, mem_append_right _ mem_cons_self, rfl, isKey⟩
  obtain ⟨event, member, isProject, keyed⟩ := System.run_stretch _ db schedule split created
    fun between _ kept => hasKey_kept between.statement kept
  intro missed
  have unnamed := find?_eq_none.mp missed event member
  rw [isProject, keyed] at unnamed
  simp at unnamed

theorem emissions_apart (start : Drawn db) (undisturbed : Undisturbed (runAppLinks config db schedule).trace)
    {last : Execution AppLinkStatement AppLinkDb}
    (split : (runAppLinks config db schedule).trace = earlier ++ last :: later)
    (member : first ∈ earlier) {pair : Id × Id} (isFirst : first.statement.emission = some pair) :
    last.statement.emission ≠ some pair := by
  intro isLast
  cases emits : last.statement with
  | emit subscriptionId sourceEvent data =>
    obtain ⟨front, lookup, middle, isEarlier, window, plain, missed⟩ := lookup_window split emits
    rw [isEarlier] at member
    rcases mem_append.mp member with before | rest
    · obtain ⟨old, between, isFront⟩ := append_of_mem before
      have placed : (runAppLinks config db schedule).trace =
          old ++ first :: between ++ lookup :: (middle ++ last :: later) := by
        rw [split, isEarlier, isFront]
        simp
      have ran : (runAppLinks config db schedule).trace =
          old ++ first :: (between ++ lookup :: (middle ++ last :: later)) := by
        rw [placed]
        simp
      cases emitsToo : first.statement with
      | emit otherId otherEvent otherData =>
        rw [emits] at isLast
        rw [emitsToo] at isFirst
        have samePair := isFirst.trans isLast.symm
        obtain ⟨isId, isEvent⟩ := Prod.mk.inj (Option.some.inj samePair)
        rw [isId] at emitsToo
        have found := emission_found placed emitsToo
        rw [isEvent, emission_project start ran split emitsToo emits] at found
        exact found missed
      | _ =>
        rw [emitsToo] at isFirst
        cases isFirst
    · rcases mem_cons.mp rest with isLookup | between
      · rw [isLookup, plain] at isFirst
        cases isFirst
      · exact undisturbed.single lookup middle last window pair isLast first between isFirst
  | _ =>
    rw [emits] at isLast
    cases isLast

theorem emitted_once (start : Drawn db) (undisturbed : Undisturbed (runAppLinks config db schedule).trace) :
    ((runAppLinks config db schedule).trace.filterMap (·.statement.emission)).Nodup := by
  refine pairwise_filterMap.mpr (pairwise_of_splits ?_)
  intro earlier last later split first member pair isFirst other isLast same
  rw [← same] at isLast
  exact emissions_apart start undisturbed split member isFirst isLast

theorem emission_permitted (undisturbed : Undisturbed (runAppLinks config db schedule).trace)
    (ran : execution ∈ (runAppLinks config db schedule).trace)
    (emits : execution.statement = .emit subscriptionId sourceEvent data) :
    execution.before.permits subscriptionId sourceEvent.projectId data.type = true := by
  obtain ⟨earlier, later, split⟩ := append_of_mem ran
  obtain ⟨isType, _⟩ := run_consulted split emits
  rw [isType]
  obtain ⟨read, _, middle, window, offered⟩ := read_window split emits
  obtain ⟨grant, isGrant, active, compared⟩ := offered.granted
  have covers : grant.covers sourceEvent.projectId sourceEvent.type = true := by
    cases skips : read.statement.skipsTypes read.before subscriptionId with
    | false => exact compared skips
    | true =>
      have entitled := undisturbed.entitled read middle execution window subscriptionId sourceEvent data emits skips
      rw [AppLinkDb.entitles, isGrant] at entitled
      exact entitled
  have permits : read.before.permits subscriptionId sourceEvent.projectId sourceEvent.type = true := by
    rw [AppLinkDb.permits, isGrant, Option.any_some, active, covers]
    rfl
  have untouched : effect read.statement read.before = read.before := by
    have opens := window.opens
    cases kind : read.statement with
    | listEventSubscriptionsForProducer producerProjectId | findWithGrantsById id => rfl
    | _ =>
      rw [kind] at opens
      cases opens
  refine window.stands (fun store => store.permits subscriptionId sourceEvent.projectId sourceEvent.type = true) ?_ ?_
  · rw [untouched]
    exact permits
  · exact undisturbed.standing read middle execution window subscriptionId sourceEvent data emits

end

/-- In every run in which nothing disturbs the router, each consumer event is one that its grant
permits, and a subscription gets it once. -/
theorem respectsGrants_of_undisturbed (config : RouterConfig) (db : AppLinkDb)
    (schedule : List (Choice AppLinkOperation)) (start : Drawn db)
    (undisturbed : Undisturbed (runAppLinks config db schedule).trace) :
    RespectsGrants (runAppLinks config db schedule).trace where
  permitted := fun _ ran _ _ _ emits => emission_permitted undisturbed ran emits
  once := emitted_once start undisturbed

/-! ## A feed, and a grant that is narrowed -/

/-- While the events of a trace are emitted, reads find what entitles them, and no statement takes
a permission away. -/
def steady (trace : AppLinkTrace) : Bool :=
  decide ((trace.filterMap (·.statement.emission)).Nodup) && trace.all fun execution =>
      match execution.statement with
      | .emit subscriptionId sourceEvent _ =>
        trace.all fun other =>
          (!other.statement.readsGrants ||
            other.before.entitles subscriptionId sourceEvent.projectId sourceEvent.type) &&
          (!other.before.permits subscriptionId sourceEvent.projectId sourceEvent.type ||
            (other.statement.effect other.before).permits subscriptionId sourceEvent.projectId sourceEvent.type)
      | _ => true

theorem undisturbed_of_steady {trace : AppLinkTrace} (isSteady : steady trace = true) : Undisturbed trace := by
  obtain ⟨distinct, checked⟩ := Bool.and_eq_true_iff.mp isSteady
  have within : ∀ {marked : AppLinkStatement → Prop}
      {mark last : Execution AppLinkStatement AppLinkDb} {middle : AppLinkTrace},
      Window marked trace mark middle last → mark ∈ trace ∧ (∀ other ∈ middle, other ∈ trace) ∧ last ∈ trace := by
    intro marked mark last middle window
    obtain ⟨earlier, later, split⟩ := window.split
    rw [split]
    simp +contextual
  have holds : ∀ {last other : Execution AppLinkStatement AppLinkDb}, last ∈ trace → other ∈ trace →
      ∀ {subscriptionId : Id} {sourceEvent : Event} {data : EventData},
        last.statement = .emit subscriptionId sourceEvent data → (other.statement.readsGrants = true →
            other.before.entitles subscriptionId sourceEvent.projectId sourceEvent.type = true) ∧
          (other.before.permits subscriptionId sourceEvent.projectId sourceEvent.type = true →
            (other.statement.effect other.before).permits subscriptionId sourceEvent.projectId
              sourceEvent.type = true) := by
    intro last other isLast isOther subscriptionId sourceEvent data emits
    have single := all_eq_true.mp checked last isLast
    simp only [emits] at single
    have both := all_eq_true.mp single other isOther
    simpa only [Bool.and_eq_true, Bool.or_eq_true, Bool.not_eq_true', Bool.eq_false_iff, ne_eq,
      ← imp_iff_not_or] using both
  constructor
  · intro read middle execution window subscriptionId sourceEvent data emits _
    obtain ⟨isRead, _, isLast⟩ := within window
    exact (holds isLast isRead emits).1 window.opens
  · intro read middle execution window subscriptionId sourceEvent data emits other member
    obtain ⟨_, inside, isLast⟩ := within window
    exact (holds isLast (inside other member) emits).2
  · intro lookup middle execution window pair emits other member repeats
    obtain ⟨earlier, later, split⟩ := window.split
    have apart := of_decide_eq_true distinct
    rw [split, filterMap_append, nodup_append] at apart
    refine apart.2.2 pair (mem_filterMap.mpr ⟨other, ?_, repeats⟩) pair
      (mem_filterMap.mpr ⟨execution, mem_cons_self, emits⟩) rfl
    exact mem_append_right _ (mem_cons_of_mem _ member)

def orders : Text := "proj_orders".toList

def billing : Text := "proj_billing".toList

def placed : Text := "app.order.placed".toList

def refunded : Text := "app.order.refunded".toList

variable (eventTypes : List Text)

def feed : Choice AppLinkOperation :=
  .start (.applyAppLinkReconciliation orders
    { grants := [{ exportKind := .events, exportName := "orders".toList,
                   consumerProjectId := billing, eventTypes }]
      subscriptions := [] })

def consumes : Choice AppLinkOperation :=
  .start (.applyAppLinkReconciliation billing
    { grants := []
      subscriptions := [{ localAlias := "orders".toList, apiGrantId := none, eventGrantId := some 0,
                          eventTypes }] })

/-- The consumer subscribes to both types, a refund happens, and the router gets to it after the
producer has changed the feed or has not. -/
def refundUnder : List (Choice AppLinkOperation) :=
  let alone := List.replicate 12 (.advance 0)
  [feed [placed, refunded]] ++ alone ++ [consumes [placed, refunded]] ++ alone ++
    [.start (.createEvent { projectId := orders, type := refunded, source := "app".toList })] ++ alone ++
    [feed eventTypes] ++ alone ++ [.start (.tick 1 {})] ++ alone

def router : RouterConfig where
  claimLimit := 10
  staleAfterSeconds := 300

/-- The refund is delivered once, under a feed that grants it. -/
theorem refund_delivered : RespectsGrants (runAppLinks router {} (refundUnder [placed, refunded])).trace ∧
      (runAppLinks router {} (refundUnder [placed, refunded])).trace.filterMap (·.statement.emission) = [(1, 2)] := by
  constructor
  · exact respectsGrants_of_undisturbed router {} (refundUnder [placed, refunded])
      (by decide +kernel) (undisturbed_of_steady (by decide +kernel))
  · decide +kernel

/-- The feed no longer grants refunds when one is delivered. -/
theorem narrowed_grant_ignored : ¬ ∀ (config : RouterConfig) (schedule : List (Choice AppLinkOperation)),
      RespectsGrants (runAppLinks config {} schedule).trace := by
  intro respects
  have emitted : (runAppLinks router {} (refundUnder [placed])).trace.any (fun execution =>
      match execution.statement with
      | .emit subscriptionId sourceEvent data =>
        !execution.before.permits subscriptionId sourceEvent.projectId data.type
      | _ => false) = true := by decide +kernel
  obtain ⟨execution, ran, unpermitted⟩ := any_eq_true.mp emitted
  cases emits : execution.statement with
  | emit subscriptionId sourceEvent data =>
    rw [emits] at unpermitted
    have permitted := (respects router (refundUnder [placed])).permitted execution ran subscriptionId
      sourceEvent data emits
    dsimp only at unpermitted
    rw [permitted] at unpermitted
    cases unpermitted
  | _ =>
    rw [emits] at unpermitted
    cases unpermitted

end EveHorizon.AppLinks
