import EveHorizon.Library.Interleaving
import EveHorizon.Library.Json
import EveHorizon.Library.Keyed

/-!
# App links

A producer grants event types to a consumer, the consumer subscribes, and the event router
creates a consumer event for each subscription to a source event. Manifests set grants and
subscriptions; what they may contain is checked before, against the grants of that moment, and
left open here.
-/

namespace EveHorizon.AppLinks

open Interleaving

abbrev Id := Nat

abbrev Timestamp := Nat

def typeId (tag : String) (id : Id) : Text := tag.toList ++ '_' :: (toString id).toList

inductive ExportKind where
  | api | events
  deriving DecidableEq

structure GrantKey where
  producerProjectId : Text
  exportKind : ExportKind
  exportName : Text
  consumerProjectId : Text
  deriving DecidableEq

structure ProjectAppLinkGrant extends GrantKey where
  id : Id
  eventTypes : List Text
  revokedAt : Option Timestamp := none

structure UpsertAppLinkSubscriptionInput where
  consumerProjectId : Text
  localAlias : Text
  apiGrantId : Option Id
  eventGrantId : Option Id
  eventTypes : List Text

structure ProjectAppLinkSubscription extends UpsertAppLinkSubscriptionInput where
  id : Id

inductive AppLinkEventDeliveryStatus where
  | pending | retrying | success | failed | skipped
  deriving DecidableEq

structure AppLinkEventDelivery where
  id : Id
  subscriptionId : Id
  sourceEventId : Id
  consumerEventId : Option Id := none
  status : AppLinkEventDeliveryStatus := .pending
  attempts : Nat := 0
  lastAttemptAt : Option Timestamp := none
  nextRetryAt : Option Timestamp := none
  lastError : Option Text := none

structure TriggerEvaluationEntry where
  name : Text
  matched : Bool
  reason : Option Text
  subscriptionId : Id
  deliveryId : Option Id

inductive EventStatus where
  | pending | processing | completed | failed
  deriving DecidableEq

structure EventData where
  projectId : Text
  type : Text
  source : Text
  envName : Option Text := none
  refSha : Option Text := none
  refBranch : Option Text := none
  actorType : Option Text := none
  actorId : Option Text := none
  payload : Option Json := none
  dedupeKey : Option Text := none

structure Event extends EventData where
  id : Id
  status : EventStatus := .pending
  triggersEvaluated : List TriggerEvaluationEntry := []
  updatedAt : Timestamp

structure AppLinkDb where
  now : Timestamp := 0
  nextId : Id := 0
  grants : List ProjectAppLinkGrant := []
  subscriptions : Table.Keyed ProjectAppLinkSubscription.id := .empty
  deliveries : List AppLinkEventDelivery := []
  events : List Event := []

structure AppLinkEventSubscriptionRow where
  subscriptionId : Id
  consumerProjectId : Text
  localAlias : Text
  eventTypes : List Text
  producerProjectId : Text
  exportName : Text
  grantEventTypes : List Text

namespace AppLinkDb

variable (db : AppLinkDb)

def grant (id : Id) : Option ProjectAppLinkGrant := db.grants.find? (·.id == id)

def eventGrant (subscription : ProjectAppLinkSubscription) : Option ProjectAppLinkGrant :=
  subscription.eventGrantId.bind db.grant

variable (producerProjectId : Text)

def eventSubscriptionRow (subscription : ProjectAppLinkSubscription) :
    Option AppLinkEventSubscriptionRow := do
  let grant ← db.eventGrant subscription
  guard (grant.producerProjectId = producerProjectId ∧ grant.exportKind = .events ∧ grant.revokedAt = none)
  return {
    subscriptionId := subscription.id
    consumerProjectId := subscription.consumerProjectId
    localAlias := subscription.localAlias
    eventTypes := subscription.eventTypes
    producerProjectId := grant.producerProjectId
    exportName := grant.exportName
    grantEventTypes := grant.eventTypes }

def eventSubscriptionsForProducer : List AppLinkEventSubscriptionRow :=
  (db.subscriptions.rows.filterMap (db.eventSubscriptionRow producerProjectId)).insertionSort
    fun left right => left.localAlias ≤ right.localAlias

def findEvent (id : Id) : Option Event := db.events.find? (·.id == id)

def findByDedupeKey (projectId dedupeKey : Text) : Option Event :=
  db.events.find? fun event => event.projectId == projectId && event.dedupeKey == some dedupeKey

def findWithGrantsById (id : Id) : Option (ProjectAppLinkSubscription × Option ProjectAppLinkGrant) :=
  (db.subscriptions.find id).map fun subscription => (subscription, db.eventGrant subscription)

variable (subscriptionId sourceEventId : Id)

def queued : Bool :=
  db.deliveries.any fun delivery =>
    delivery.subscriptionId == subscriptionId && delivery.sourceEventId == sourceEventId

def newDelivery : AppLinkEventDelivery :=
  { id := db.nextId, subscriptionId, sourceEventId }

def queueDelivery : Except Text (Option AppLinkEventDelivery) :=
  if db.queued subscriptionId sourceEventId then .ok none
  else if db.subscriptions.free subscriptionId || (db.findEvent sourceEventId).isNone then
    .error "insert on app_link_event_deliveries violates a foreign key constraint".toList
  else .ok (some (db.newDelivery subscriptionId sourceEventId))

variable (delivery : AppLinkEventDelivery)

def isDue : Bool :=
  (delivery.status == .pending || delivery.status == .retrying) && delivery.nextRetryAt.all (· ≤ db.now)

variable (limit : Nat)

def dueIds : List Id :=
  ((db.deliveries.filter db.isDue).take limit).map AppLinkEventDelivery.id

def claimed : AppLinkEventDelivery :=
  { delivery with status := if delivery.attempts = 0 then .pending else .retrying }

def claimedDeliveries : List AppLinkEventDelivery :=
  (db.deliveries.filter fun delivery => (db.dueIds limit).contains delivery.id).map claimed

def newEvent (data : EventData) : Event :=
  { data with id := db.nextId, updatedAt := db.now }

def pendingIds : List Id :=
  ((db.events.filter (·.status == .pending)).take limit).map Event.id

def processing (db : AppLinkDb) (event : Event) : Event :=
  { event with status := .processing, updatedAt := db.now }

def claimedEvents : List Event :=
  (db.events.filter fun event => (db.pendingIds limit).contains event.id).map db.processing

def isStale (staleAfterSeconds : Nat) (event : Event) : Bool :=
  event.status == .processing && decide (event.updatedAt + staleAfterSeconds < db.now)

def activeGrantsOf : List ProjectAppLinkGrant :=
  db.grants.filter fun grant =>
    grant.producerProjectId == producerProjectId && grant.revokedAt.isNone

def subscriptionsOf (consumerProjectId : Text) : List ProjectAppLinkSubscription :=
  db.subscriptions.rows.filter (·.consumerProjectId == consumerProjectId)

/-- The foreign key and the check of `project_app_link_subscriptions`. -/
def acceptsSubscription (input : UpsertAppLinkSubscriptionInput) : Bool :=
  (input.apiGrantId.isSome || input.eventGrantId.isSome) && input.apiGrantId.all (fun id => (db.grant id).isSome) &&
    input.eventGrantId.all fun id => (db.grant id).isSome

end AppLinkDb

inductive AppLinkStatement where
  | listEventSubscriptionsForProducer (producerProjectId : Text)
  | findWithGrantsById (subscriptionId : Id)
  | findEvent (id : Id)
  | findByDedupeKey (projectId dedupeKey : Text)
  | listGrantsByProducer (producerProjectId : Text)
  | listSubscriptionsByConsumer (consumerProjectId : Text)
  | queue (subscriptionId sourceEventId : Id)
  | claimDue (limit : Nat)
  | markSuccess (id consumerEventId : Id)
  | markRetry (id : Id) (error : Text) (delaySeconds : Nat)
  | markFailed (id : Id) (error : Text)
  | insertEvent (data : EventData)
  -- The same insertion, of a consumer event of the router.
  | emit (subscriptionId : Id) (sourceEvent : Event) (data : EventData)
  | claimPendingEvents (limit : Nat)
  | recoverStaleEvents (staleAfterSeconds : Nat)
  | updateTriggerMetadata (id : Id) (evaluations : List TriggerEvaluationEntry)
  | updateStatus (id : Id) (status : EventStatus)
  | upsertGrant (key : GrantKey) (eventTypes : List Text)
  | markRevoked (id : Id)
  | upsertSubscription (input : UpsertAppLinkSubscriptionInput)
  | deleteSubscription (id : Id)
  | passTime (seconds : Nat)

namespace AppLinkDb

variable (db : AppLinkDb)

def modifyDelivery (id : Id) (change : AppLinkEventDelivery → AppLinkEventDelivery) : AppLinkDb :=
  { db with deliveries := Table.updateWhere (·.id == id) change db.deliveries }

def attempted (status : AppLinkEventDeliveryStatus) (nextRetryAt : Option Timestamp) (lastError : Option Text)
    (delivery : AppLinkEventDelivery) : AppLinkEventDelivery :=
  { delivery with
    status, nextRetryAt, lastError
    attempts := delivery.attempts + 1
    lastAttemptAt := some db.now }

def addEvent (data : EventData) : AppLinkDb :=
  { db with
    events := db.events ++ [db.newEvent data]
    nextId := db.nextId + 1 }

def modifyEvents (selected : Event → Bool) (change : Event → Event) : AppLinkDb :=
  { db with events := Table.updateWhere selected change db.events }

def upsertGrant (key : GrantKey) (eventTypes : List Text) : AppLinkDb :=
  if db.grants.any (·.toGrantKey == key) then
    { db with
      grants := Table.updateWhere (·.toGrantKey == key)
        (fun grant => { grant with eventTypes, revokedAt := none }) db.grants }
  else
    { db with
      grants := db.grants ++ [{ key with id := db.nextId, eventTypes }]
      nextId := db.nextId + 1 }

variable (input : UpsertAppLinkSubscriptionInput) (subscription : ProjectAppLinkSubscription)

def sameAlias : Bool :=
  subscription.consumerProjectId == input.consumerProjectId && subscription.localAlias == input.localAlias

def resubscribe : ProjectAppLinkSubscription :=
  { subscription with
    apiGrantId := input.apiGrantId
    eventGrantId := input.eventGrantId
    eventTypes := input.eventTypes }

def upsertSubscription (input : UpsertAppLinkSubscriptionInput) : AppLinkDb :=
  if !db.acceptsSubscription input then db
  else if db.subscriptions.rows.any (sameAlias input) then
    { db with
      subscriptions := db.subscriptions.update (sameAlias input) (resubscribe input) fun _ => rfl }
  else
    { db with
      subscriptions := db.subscriptions.insert { input with id := db.nextId }
      nextId := db.nextId + 1 }

end AppLinkDb

def AppLinkStatement.effect : AppLinkStatement → AppLinkDb → AppLinkDb
  | .listEventSubscriptionsForProducer _, db | .findWithGrantsById _, db | .findEvent _, db
  | .findByDedupeKey _ _, db | .listGrantsByProducer _, db | .listSubscriptionsByConsumer _, db => db
  | .queue subscriptionId sourceEventId, db =>
    match db.queueDelivery subscriptionId sourceEventId with
    | .ok (some delivery) =>
      { db with deliveries := db.deliveries ++ [delivery], nextId := db.nextId + 1 }
    | _ => db
  | .claimDue limit, db =>
    { db with
      deliveries :=
        Table.updateWhere (fun delivery => (db.dueIds limit).contains delivery.id)
          AppLinkDb.claimed db.deliveries }
  | .markSuccess id consumerEventId, db =>
    db.modifyDelivery id fun delivery =>
      { db.attempted .success none none delivery with consumerEventId := some consumerEventId }
  | .markRetry id error delaySeconds, db =>
    db.modifyDelivery id (db.attempted .retrying (some (db.now + delaySeconds)) (some error))
  | .markFailed id error, db => db.modifyDelivery id (db.attempted .failed none (some error))
  | .insertEvent data, db | .emit _ _ data, db => db.addEvent data
  | .claimPendingEvents limit, db =>
    db.modifyEvents (fun event => (db.pendingIds limit).contains event.id) db.processing
  | .recoverStaleEvents staleAfterSeconds, db =>
    db.modifyEvents (db.isStale staleAfterSeconds) fun event =>
      { event with status := .pending, updatedAt := db.now }
  | .updateTriggerMetadata id evaluations, db =>
    db.modifyEvents (·.id == id) fun event =>
      { event with triggersEvaluated := evaluations, updatedAt := db.now }
  | .updateStatus id status, db =>
    db.modifyEvents (·.id == id) fun event => { event with status, updatedAt := db.now }
  | .upsertGrant key eventTypes, db => db.upsertGrant key eventTypes
  | .markRevoked id, db =>
    { db with
      grants := Table.updateWhere (·.id == id)
        (fun grant => { grant with revokedAt := grant.revokedAt <|> some db.now }) db.grants }
  | .upsertSubscription input, db => db.upsertSubscription input
  | .deleteSubscription id, db =>
    { db with
      subscriptions := db.subscriptions.delete (·.id == id)
      deliveries := db.deliveries.filter (·.subscriptionId != id) }
  | .passTime seconds, db => { db with now := db.now + seconds }

instance : Statement AppLinkStatement AppLinkDb where
  ready _ _ := true
  effect := AppLinkStatement.effect

abbrev AppLinkCall := Call AppLinkStatement AppLinkDb Text

/-- How a statement fails: without an effect, or after it, when the answer is lost. -/
inductive Fault where
  | refused (message : Text)
  | unheard (message : Text)

abbrev Faults := AppLinkStatement → Option Fault

variable (faults : Faults)

def attempt {α : Type} (stmt : AppLinkStatement) (query : AppLinkDb → α) : AppLinkCall α :=
  match faults stmt with
  | none => .perform stmt query
  | some (.refused message) => .raise message
  | some (.unheard message) => do
    .perform stmt fun _ => ()
    .raise message

def create (insertion : AppLinkStatement) (data : EventData) : AppLinkCall Id := do
  let existing ← match data.dedupeKey.filter (!·.isEmpty) with
    | none => .ret none
    | some dedupeKey =>
      attempt faults (.findByDedupeKey data.projectId dedupeKey) fun db =>
        db.findByDedupeKey data.projectId dedupeKey
  match existing with
  | some event => return event.id
  | none => attempt faults insertion fun db => (db.newEvent data).id

def deliveryKey (subscriptionId sourceEventId : Id) : Text :=
  "app_link:".toList ++ typeId "apls" subscriptionId ++ ':' :: typeId "evt" sourceEventId

def optionalText (text : Option Text) : Json := text.elim .null .string

structure ConsumerLink where
  subscriptionId : Id
  consumerProjectId : Text
  localAlias : Text
  producerProjectId : Text
  exportName : Text

def consumerEvent (sourceEvent : Event) (subscription : ConsumerLink) : EventData where
  projectId := subscription.consumerProjectId
  type := sourceEvent.type
  source := "app_link".toList
  envName := sourceEvent.envName
  refSha := sourceEvent.refSha
  refBranch := sourceEvent.refBranch
  actorType := sourceEvent.actorType
  actorId := sourceEvent.actorId
  payload := some (.object [("producer_event_id".toList, .string (typeId "evt" sourceEvent.id)),
      ("producer_project_id".toList, .string subscription.producerProjectId),
      ("producer_env_name".toList, optionalText sourceEvent.envName),
      ("producer_export_name".toList, .string subscription.exportName),
      ("link_alias".toList, .string subscription.localAlias),
      ("original".toList, sourceEvent.payload.getD (.object []))])
  dedupeKey := some (deliveryKey subscription.subscriptionId sourceEvent.id)

def createConsumerAppLinkEvent (sourceEvent : Event) (subscription : ConsumerLink) : AppLinkCall Id :=
  let data := consumerEvent sourceEvent subscription
  create faults (.emit subscription.subscriptionId sourceEvent data) data

def scheduleDeliveryRetry (delivery : AppLinkEventDelivery) (message : Text) : AppLinkCall Unit :=
  let nextAttempt := delivery.attempts + 1
  if nextAttempt ≥ 5 then attempt faults (.markFailed delivery.id message) fun _ => ()
  else
    attempt faults (.markRetry delivery.id message (min 300 (2 ^ nextAttempt * 5))) fun _ => ()

variable (row : AppLinkEventSubscriptionRow)

def AppLinkEventSubscriptionRow.link : ConsumerLink where
  subscriptionId := row.subscriptionId
  consumerProjectId := row.consumerProjectId
  localAlias := row.localAlias
  producerProjectId := row.producerProjectId
  exportName := row.exportName

def AppLinkEventSubscriptionRow.effectiveTypes : List Text :=
  if row.eventTypes.length > 0 then row.eventTypes else row.grantEventTypes

def AppLinkEventSubscriptionRow.evaluation (matched : Bool) (reason : Option Text) (deliveryId : Option Id) :
    TriggerEvaluationEntry where
  name := row.localAlias
  matched := matched
  reason := reason
  subscriptionId := row.subscriptionId
  deliveryId := deliveryId

def offer (event : Event) (row : AppLinkEventSubscriptionRow) :
    AppLinkCall TriggerEvaluationEntry := do
  if !row.effectiveTypes.contains event.type then
    return row.evaluation false (some "type_mismatch".toList) none
  else
    match ← attempt faults (.queue row.subscriptionId event.id) fun db =>
        db.queueDelivery row.subscriptionId event.id with
    | .error message => .raise message
    | .ok none => return row.evaluation false (some "duplicate_delivery".toList) none
    | .ok (some delivery) =>
      let delivered : AppLinkCall TriggerEvaluationEntry := do
        let consumerEventId ← createConsumerAppLinkEvent faults event row.link
        attempt faults (.markSuccess delivery.id consumerEventId) fun _ => ()
        return row.evaluation true none (some delivery.id)
      delivered.handle fun message => do
        scheduleDeliveryRetry faults delivery message
        return row.evaluation false (some message) (some delivery.id)

def offerAll (faults : Faults) (event : Event) :
    List AppLinkEventSubscriptionRow → AppLinkCall (List TriggerEvaluationEntry)
  | [] => return []
  | row :: rest => do
    let first ← offer faults event row
    let others ← offerAll faults event rest
    return first :: others

def fanOutAppLinkEvent (event : Event) : AppLinkCall (List TriggerEvaluationEntry) := do
  if event.source = "app_link".toList then return []
  else
    let rows ← attempt faults (.listEventSubscriptionsForProducer event.projectId) fun db =>
      db.eventSubscriptionsForProducer event.projectId
    offerAll faults event rows

def ProjectAppLinkSubscription.link (subscription : ProjectAppLinkSubscription)
    (eventGrant : ProjectAppLinkGrant) : ConsumerLink where
  subscriptionId := subscription.id
  consumerProjectId := subscription.consumerProjectId
  localAlias := subscription.localAlias
  producerProjectId := eventGrant.producerProjectId
  exportName := eventGrant.exportName

def redeliver (delivery : AppLinkEventDelivery) : AppLinkCall Unit := do
  let sourceEvent ← attempt faults (.findEvent delivery.sourceEventId) fun db =>
    db.findEvent delivery.sourceEventId
  let subscription ← attempt faults (.findWithGrantsById delivery.subscriptionId) fun db =>
    db.findWithGrantsById delivery.subscriptionId
  match sourceEvent, subscription with
  | some sourceEvent, some (subscription, some eventGrant) =>
    if eventGrant.revokedAt.isSome then
      attempt faults
        (.markFailed delivery.id "Source event or active event grant not found".toList) fun _ => ()
    else
      let delivered : AppLinkCall Unit := do
        let consumerEventId ← createConsumerAppLinkEvent faults sourceEvent
          (subscription.link eventGrant)
        attempt faults (.markSuccess delivery.id consumerEventId) fun _ => ()
      delivered.handle (scheduleDeliveryRetry faults delivery)
  | _, _ =>
    attempt faults
      (.markFailed delivery.id "Source event or active event grant not found".toList) fun _ => ()

/-- What goes wrong during a tick. The triggers of an event are matched before it is fanned out
and requested after that. -/
structure TickFaults where
  claims : Faults := fun _ => none
  delivery : Id → Faults := fun _ _ => none
  event : Id → Faults := fun _ _ => none
  matching : Id → Option Text := fun _ => none
  triggering : Id → Option Text := fun _ => none

def raiseSome : Option Text → AppLinkCall Unit
  | none => .ret ()
  | some message => .raise message

def processDueAppLinkDeliveries (faults : TickFaults) : AppLinkCall Unit := do
  let due ← attempt faults.claims (.claimDue 25) fun db => db.claimedDeliveries 25
  Call.forEach due fun delivery => redeliver (faults.delivery delivery.id) delivery

def processEvent (faults : TickFaults) (event : Event) : AppLinkCall Unit :=
  let body : AppLinkCall Unit := do
    raiseSome (faults.matching event.id)
    let evaluations ← fanOutAppLinkEvent (faults.event event.id) event
    (attempt (faults.event event.id) (.updateTriggerMetadata event.id evaluations) fun _ => ()).handle fun _ => .ret ()
    raiseSome (faults.triggering event.id)
    attempt (faults.event event.id) (.updateStatus event.id .completed) fun _ => ()
  body.handle fun _ =>
    (attempt (faults.event event.id) (.updateStatus event.id .failed) fun _ => ()).handle
      fun _ => .ret ()

structure RouterConfig where
  claimLimit : Nat
  staleAfterSeconds : Nat

variable (config : RouterConfig)

def tick (tickCount : Nat) (faults : TickFaults) : AppLinkCall Unit := do
  if tickCount % 6 = 0 then
    (attempt faults.claims (.recoverStaleEvents config.staleAfterSeconds) fun _ => ()).handle
      fun _ => .ret ()
  processDueAppLinkDeliveries faults
  let claimedEvents ← attempt faults.claims (.claimPendingEvents config.claimLimit) fun db =>
    db.claimedEvents config.claimLimit
  Call.forEach claimedEvents (processEvent faults)

structure PreparedAppLinkGrant where
  exportKind : ExportKind
  exportName : Text
  consumerProjectId : Text
  eventTypes : List Text

def PreparedAppLinkGrant.key (producerProjectId : Text) (grant : PreparedAppLinkGrant) : GrantKey where
  producerProjectId := producerProjectId
  exportKind := grant.exportKind
  exportName := grant.exportName
  consumerProjectId := grant.consumerProjectId

structure PreparedAppLinkSubscription where
  localAlias : Text
  apiGrantId : Option Id
  eventGrantId : Option Id
  eventTypes : List Text

def PreparedAppLinkSubscription.input (consumerProjectId : Text)
    (subscription : PreparedAppLinkSubscription) : UpsertAppLinkSubscriptionInput where
  consumerProjectId := consumerProjectId
  localAlias := subscription.localAlias
  apiGrantId := subscription.apiGrantId
  eventGrantId := subscription.eventGrantId
  eventTypes := subscription.eventTypes

structure PreparedAppLinkReconciliation where
  grants : List PreparedAppLinkGrant
  subscriptions : List PreparedAppLinkSubscription

def revokeMissing (producerProjectId : Text) (activeKeys : List GrantKey) : AppLinkCall Unit := do
  let existing ← .perform (.listGrantsByProducer producerProjectId) fun db =>
    db.activeGrantsOf producerProjectId
  Call.forEach (existing.filter fun grant => !activeKeys.contains grant.toGrantKey) fun grant =>
    .perform (.markRevoked grant.id) fun _ => ()

def deleteMissingForConsumer (consumerProjectId : Text) (aliases : List Text) : AppLinkCall Unit := do
  let existing ← .perform (.listSubscriptionsByConsumer consumerProjectId) fun db =>
    db.subscriptionsOf consumerProjectId
  Call.forEach (existing.filter fun subscription => !aliases.contains subscription.localAlias)
    fun subscription => .perform (.deleteSubscription subscription.id) fun _ => ()

def upsertSubscription (input : UpsertAppLinkSubscriptionInput) : AppLinkCall Unit := do
  if !(← .perform (.upsertSubscription input) fun db => db.acceptsSubscription input) then
    .raise "insert on project_app_link_subscriptions violates a constraint".toList

def applyAppLinkReconciliation (projectId : Text) (reconciliation : PreparedAppLinkReconciliation) :
    AppLinkCall Unit := do
  Call.forEach reconciliation.grants fun grant =>
    .perform (.upsertGrant (grant.key projectId) grant.eventTypes) fun _ => ()
  revokeMissing projectId (reconciliation.grants.map (·.key projectId))
  Call.forEach reconciliation.subscriptions fun subscription =>
    upsertSubscription (subscription.input projectId)
  deleteMissingForConsumer projectId (reconciliation.subscriptions.map (·.localAlias))

/-- What happens around the tables: ticks of any router, new events, new manifests, revocations
and the passing of time. -/
inductive AppLinkOperation where
  | tick (tickCount : Nat) (faults : TickFaults)
  | createEvent (data : EventData)
  | applyAppLinkReconciliation (projectId : Text) (reconciliation : PreparedAppLinkReconciliation)
  | upsertGrant (key : GrantKey) (eventTypes : List Text)
  | markRevoked (id : Id)
  | upsertSubscription (input : UpsertAppLinkSubscriptionInput)
  | passTime (seconds : Nat)

def AppLinkOperation.call : AppLinkOperation → AppLinkCall Unit
  | .tick tickCount faults => AppLinks.tick config tickCount faults
  | .createEvent data => do
    let _ ← create (fun _ => none) (.insertEvent data) data
  | .applyAppLinkReconciliation projectId reconciliation =>
    AppLinks.applyAppLinkReconciliation projectId reconciliation
  | .upsertGrant key eventTypes => .perform (.upsertGrant key eventTypes) fun _ => ()
  | .markRevoked id => .perform (.markRevoked id) fun _ => ()
  | .upsertSubscription input => AppLinks.upsertSubscription input
  | .passTime seconds => .perform (.passTime seconds) fun _ => ()

def runAppLinks (db : AppLinkDb) (schedule : List (Choice AppLinkOperation)) :
    System AppLinkStatement AppLinkDb Text Unit :=
  System.run (fun _ operation => operation.call config) db schedule

end EveHorizon.AppLinks
