import EveHorizon.Library.Solo
import EveHorizon.Webhooks.Tables

/-!
# The webhook service

Events are enqueued when they occur, stored events can be replayed, and a worker posts what is
due.
-/

namespace EveHorizon.Webhooks

open Interleaving

inductive WebhookError where
  | notFound (message : Text)
  | api (status : Nat) (code message : Text)
  | deliveryConflict

abbrev WebhookCall := Call WebhookStatement WebhookDb WebhookError

def query {α : Type} (reads : WebhookDb → α) : WebhookCall α := .perform .select reads

def createDelivery (data : CreateWebhookDeliveryData) : WebhookCall WebhookDelivery := do
  match ← .perform (.createDelivery data) (·.newDelivery data) with
  | some row => return row
  | none => .raise .deliveryConflict

structure Occurrence where
  announces : Text
  orgId : Text
  projectId : Text
  eventType : Text
  data : Json
  time : Int

variable (occurrence : Occurrence)

def Occurrence.cloudEvent (id : CloudEventId) : CloudEventPayload where
  type := occurrence.eventType
  source := "eve://orgs/".toList ++ occurrence.orgId ++ "/projects/".toList ++ occurrence.projectId
  id := id
  time := occurrence.time
  data := occurrence.data

def Occurrence.delivery (id : CloudEventId) (sub : WebhookSubscription) :
    CreateWebhookDeliveryData where
  subscriptionId := sub.id
  eventId := id
  eventType := occurrence.eventType
  payload := occurrence.cloudEvent id
  announces := occurrence.announces

def enqueueEvent : WebhookCall Unit := do
  let subs ← query fun db =>
    db.findMatchingSubscriptions occurrence.orgId occurrence.projectId occurrence.eventType
  let uuid ← .perform .randomUUID (·.nextUuid)
  .forEach subs fun sub => do
    let _ ← createDelivery (occurrence.delivery (.random uuid) sub)

structure WebhookReplayRequest where
  fromEventId : Option Text := none
  toTime : Option (Option Int) := none
  maxEvents : Option Int := none
  dryRun : Bool := false

inductive WebhookReplayResponse where
  | dryRun (eventCount : Nat) (earliest latest : Option Int) (wouldDeduplicate : Nat)
  | completed (replayId : Uuid) (requested deduplicated : Nat)

def subscriptionNotFound (webhookId : Uuid) : WebhookError :=
  .notFound ("Webhook subscription not found: " ++ toString webhookId).toList

variable (orgId : Text)

def requireSubscription (webhookId : Uuid) : WebhookCall WebhookSubscription := do
  match ← query (·.findSubscriptionById webhookId) with
  | none => .raise (subscriptionNotFound webhookId)
  | some sub =>
    if sub.orgId ≠ orgId then .raise (subscriptionNotFound webhookId)
    else return sub

def windowInvalid (message : String) : WebhookError :=
  .api 400 "webhook_replay_window_invalid".toList message.toList

def resolveMaxEvents (data : WebhookReplayRequest) : Except WebhookError Nat :=
  let maxEvents := data.maxEvents.getD 5000
  if maxEvents ≤ 0 ∨ maxEvents > 10000 then
    .error (windowInvalid "max_events must be between 1 and 10000")
  else .ok maxEvents.toNat

def resolveToTime (now : Int) (data : WebhookReplayRequest) : Except WebhookError Int :=
  match data.toTime with
  | none => .ok now
  | some (some instant) => .ok instant
  | some none => .error (windowInvalid "Invalid to.time value")

def dayMilliseconds : Int := 24 * 60 * 60 * 1000

def resolveFromTime (toTime : Int) (data : WebhookReplayRequest) : WebhookCall Int :=
  match data.fromEventId.filter (!·.isEmpty) with
  | none => return toTime - dayMilliseconds
  | some fromEventId => do
    match ← query (·.events.find fromEventId) with
    | none => .raise (.api 404 "resource_not_found".toList "Event not found".toList)
    | some event =>
      match ← query fun db => db.projects.find? (·.id == event.projectId) with
      | none => .raise (.api 404 "resource_not_found".toList "Event not found in org".toList)
      | some project =>
        if project.orgId ≠ orgId then
          .raise (.api 404 "resource_not_found".toList "Event not found in org".toList)
        else return event.createdAt

variable (sub : WebhookSubscription)

def replayDelivery (orgId : Text) (event : Event) : CreateWebhookDeliveryData where
  subscriptionId := sub.id
  eventId := .event event.id
  eventType := event.type
  payload :=
    { type := event.type
      source := "eve://orgs/".toList ++ orgId ++ "/projects/".toList ++ event.projectId
      id := .event event.id
      time := event.createdAt
      data := event.payload }
  announces := event.id

def replayEvent (orgId : Text) (existing : List Text) (counts : ReplayCounts) (event : Event) :
    WebhookCall ReplayCounts :=
  if existing.contains event.id then
    return { counts with deduplicated := counts.deduplicated + 1 }
  else
    Call.handle
      (do
        let _ ← createDelivery (replayDelivery sub orgId event)
        return { counts with replayed := counts.replayed + 1 })
      fun error =>
        match error with
        | .deliveryConflict => return { counts with deduplicated := counts.deduplicated + 1 }
        | _ => return { counts with failed := counts.failed + 1 }

def replayEvents (sub : WebhookSubscription) (orgId : Text) (existing : List Text) :
    List Event → ReplayCounts → WebhookCall ReplayCounts
  | [], counts => return counts
  | event :: rest, counts => do
    let counts ← replayEvent sub orgId existing counts event
    replayEvents sub orgId existing rest counts

def replayOptions (fromTime toTime : Int) (maxEvents : Nat) :
    WebhookDb.ListForReplay where
  orgId := orgId
  projectId := sub.projectId
  fromTime := fromTime
  toTime := toTime
  eventPatterns := sub.events
  limit := maxEvents

def replayFound (dryRun : Bool) (events : List Event) :
    WebhookCall WebhookReplayResponse := do
  let existing ← query (·.listDeliveryEventIds sub.id (events.map (·.id)))
  let wouldDeduplicate := (events.map (·.id)).countP existing.contains
  if dryRun then
    return .dryRun events.length (events.head?.map (·.createdAt)) (events.getLast?.map (·.createdAt))
      wouldDeduplicate
  else
    let requested : ReplayCounts :=
      { requested := events.length
        deduplicated := wouldDeduplicate }
    let replayId ← .perform (.createReplay sub.id requested) (·.nextUuid)
    let counts ← replayEvents sub orgId existing events { requested := events.length }
    let counts := { counts with processed := events.length }
    .perform (.updateReplay replayId counts) fun _ => ()
    return .completed replayId events.length counts.deduplicated

def replayWindow (webhookId : Uuid) (now : Int) (data : WebhookReplayRequest) :
    WebhookCall (WebhookSubscription × WebhookDb.ListForReplay) := do
  let sub ← requireSubscription orgId webhookId
  if !sub.active then
    .raise (.api 409 "resource_conflict".toList "Webhook subscription is disabled".toList)
  else
    let maxEvents ← Call.ofExcept (resolveMaxEvents data)
    let toTime ← Call.ofExcept (resolveToTime now data)
    let fromTime ← resolveFromTime orgId toTime data
    if toTime < fromTime then
      .raise (windowInvalid "from time must be before to time")
    else if 3 ≤ (← query (·.countActiveReplays sub.id)) then
      .raise (.api 409 "resource_conflict".toList "Replay already in progress".toList)
    else return (sub, replayOptions orgId sub fromTime toTime maxEvents)

def createReplay (webhookId : Uuid) (now : Int) (data : WebhookReplayRequest) :
    WebhookCall WebhookReplayResponse := do
  let (sub, options) ← replayWindow orgId webhookId now data
  let events ← query (·.listForReplay options)
  replayFound orgId sub data.dryRun events

def maxAttempts : Nat := 5

def autoDisableThreshold : Nat := 10

def retryDelaysMs : List Int := [1 * 60000, 5 * 60000, 30 * 60000, 2 * 60 * 60000, 12 * 60 * 60000]

def retryDelay (attempts : Nat) : Int := (retryDelaysMs[attempts - 1]?).getD (retryDelaysMs.getLastD 0)

def failedUpdate (attempts : Nat) (now : Int) : UpdateWebhookDeliveryData :=
  if maxAttempts ≤ attempts then
    { status := .failed
      attempts
      nextRetryAt := none }
  else
    { status := .retrying
      attempts
      nextRetryAt := some (now + retryDelay attempts) }

def handleFailedAttempt (delivery : WebhookDelivery) (sub : WebhookSubscription) (attempts : Nat)
    (now : Int) : WebhookCall Unit := do
  .perform (.updateDelivery delivery.id (failedUpdate attempts now)) fun _ => ()
  let consecutiveFailures ←
    .perform (.countConsecutiveFailures sub.id) (·.countConsecutiveFailures sub.id)
  if autoDisableThreshold ≤ consecutiveFailures then
    .perform (.disableSubscription sub.id) fun _ => ()
  else return ()

inductive Answer where
  | response (status : Nat)
  | thrown

def Answer.ok : Answer → Bool
  | .response status => decide (200 ≤ status ∧ status < 300)
  | .thrown => false

/-- What the world contributes to a worker's run: the database's clock when it selects, and for
each delivery the answer to its post and the time at which that is recorded. -/
structure Surroundings where
  now : Int
  answer : WebhookDelivery → Answer
  clock : WebhookDelivery → Int

def processDelivery (surroundings : Surroundings) (delivery : WebhookDelivery) : WebhookCall Bool := do
  match ← query (·.findSubscriptionById delivery.subscriptionId) with
  | none =>
    .perform (.updateDelivery delivery.id
      { status := .failed, attempts := delivery.attempts + 1, nextRetryAt := none }) fun _ => ()
    return false
  | some sub =>
    if !sub.active then
      .perform (.updateDelivery delivery.id
        { status := .failed, attempts := delivery.attempts + 1, nextRetryAt := none }) fun _ => ()
      return false
    else
      .perform (.post
        { url := sub.url
          deliveryId := delivery.id
          signedWith := sub.secret
          body := delivery.payload }) fun _ => ()
      if (surroundings.answer delivery).ok then
        .perform (.updateDelivery delivery.id
          { status := .delivered, attempts := delivery.attempts + 1, nextRetryAt := none }) fun _ => ()
        return true
      else
        handleFailedAttempt delivery sub (delivery.attempts + 1) (surroundings.clock delivery)
        return false

structure ProcessCounts where
  processed : Nat
  succeeded : Nat := 0
  failed : Nat := 0

def processEach (surroundings : Surroundings) : List WebhookDelivery → ProcessCounts → WebhookCall ProcessCounts
  | [], counts => return counts
  | delivery :: rest, counts => do
    if ← processDelivery surroundings delivery then
      processEach surroundings rest { counts with succeeded := counts.succeeded + 1 }
    else processEach surroundings rest { counts with failed := counts.failed + 1 }

def processDeliveries (surroundings : Surroundings) (batchSize : Nat) : WebhookCall ProcessCounts := do
  let pending ← query (·.findPendingDeliveries surroundings.now batchSize)
  processEach surroundings pending { processed := pending.length }

end EveHorizon.Webhooks
