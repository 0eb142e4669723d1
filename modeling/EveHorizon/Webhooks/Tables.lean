import EveHorizon.Library.Interleaving
import EveHorizon.Library.Json
import EveHorizon.Library.Keyed
import EveHorizon.Library.Like

/-!
# Webhook subscriptions and their deliveries

The tables of webhooks and the statements on them.
-/

namespace EveHorizon.Webhooks

open Interleaving
open Like (like)

abbrev Uuid := Nat

structure Project where
  id : Text
  orgId : Text

structure Event where
  id : Text
  projectId : Text
  type : Text
  payload : Json := .object []
  createdAt : Int

structure WebhookSubscription where
  id : Uuid
  orgId : Text
  projectId : Option Text
  url : Text
  events : List Text
  secret : Text
  active : Bool := true

inductive CloudEventId where
  | event (id : Text)
  | random (uuid : Uuid)
  deriving DecidableEq

structure CloudEventPayload where
  type : Text
  source : Text
  id : CloudEventId
  time : Int
  data : Json

inductive DeliveryStatus where
  | pending | retrying | delivered | failed
  deriving DecidableEq

def DeliveryStatus.terminal : DeliveryStatus → Bool
  | .pending | .retrying => false
  | .delivered | .failed => true

structure WebhookDelivery where
  id : Uuid
  subscriptionId : Uuid
  eventId : CloudEventId
  eventType : Text
  payload : CloudEventPayload
  announces : Text
  status : DeliveryStatus := .pending
  attempts : Nat := 0
  nextRetryAt : Option Int := none

structure CreateWebhookDeliveryData where
  subscriptionId : Uuid
  eventId : CloudEventId
  eventType : Text
  payload : CloudEventPayload
  announces : Text

structure UpdateWebhookDeliveryData where
  status : DeliveryStatus
  attempts : Nat
  nextRetryAt : Option Int

inductive ReplayStatus where
  | queued | running | completed | failed
  deriving DecidableEq

structure ReplayCounts where
  requested : Nat := 0
  processed : Nat := 0
  replayed : Nat := 0
  deduplicated : Nat := 0
  failed : Nat := 0

structure WebhookReplay where
  id : Uuid
  subscriptionId : Uuid
  status : ReplayStatus
  counts : ReplayCounts

structure Post where
  url : Text
  deliveryId : Uuid
  signedWith : Text
  body : CloudEventPayload

structure WebhookDb where
  projects : List Project
  events : Table.Keyed Event.id
  subscriptions : Table.Keyed WebhookSubscription.id
  deliveries : List WebhookDelivery := []
  replays : List WebhookReplay := []
  posts : List Post := []
  nextUuid : Uuid := 0

namespace WebhookDb

def matchesPattern (eventType pattern : Text) : Bool :=
  like (pattern.map fun char => if char = '*' then '%' else char) eventType

variable (db : WebhookDb)

def findMatchingSubscriptions (orgId projectId eventType : Text) : List WebhookSubscription :=
  db.subscriptions.rows.filter fun sub =>
    sub.orgId == orgId && sub.active && sub.projectId.all (· == projectId) && sub.events.any (matchesPattern eventType)

def findSubscriptionById (id : Uuid) : Option WebhookSubscription := db.subscriptions.find id

def conflicts (data : CreateWebhookDeliveryData) : Bool :=
  db.deliveries.any fun row => row.subscriptionId == data.subscriptionId && row.eventId == data.eventId

def newDelivery (data : CreateWebhookDeliveryData) : Option WebhookDelivery :=
  if db.conflicts data then none
  else
    some
      { id := db.nextUuid
        subscriptionId := data.subscriptionId
        eventId := data.eventId
        eventType := data.eventType
        payload := data.payload
        announces := data.announces }

def findPendingDeliveries (now : Int) (limit : Nat) : List WebhookDelivery :=
  (db.deliveries.reverse.filter fun row =>
    !row.status.terminal && row.nextRetryAt.all (· ≤ now)).take limit

variable (subscriptionId : Uuid)

def listDeliveryEventIds (eventIds : List Text) : List Text :=
  eventIds.filter fun id =>
    db.deliveries.any fun row => row.subscriptionId == subscriptionId && row.eventId == .event id

def deliveriesOf : List WebhookDelivery :=
  db.deliveries.filter (·.subscriptionId == subscriptionId)

def countConsecutiveFailures : Nat :=
  (((db.deliveriesOf subscriptionId).take 20).takeWhile (·.status == .failed)).length

def countActiveReplays : Nat :=
  db.replays.countP fun replay =>
    replay.subscriptionId == subscriptionId && (replay.status == .queued || replay.status == .running)

structure ListForReplay where
  orgId : Text
  projectId : Option Text
  fromTime : Int
  toTime : Int
  eventPatterns : List Text
  limit : Nat

def ListForReplay.selects (options : ListForReplay) (event : Event) : Bool :=
  db.projects.any (fun project => project.id == event.projectId && project.orgId == options.orgId) &&
    decide (options.fromTime ≤ event.createdAt) && decide (event.createdAt ≤ options.toTime) &&
    (options.projectId.filter (!·.isEmpty)).all (· == event.projectId) &&
    (options.eventPatterns.isEmpty || options.eventPatterns.any (matchesPattern event.type))

def listForReplay (options : ListForReplay) : List Event :=
  ((db.events.rows.filter (options.selects db)).insertionSort
    fun left right => left.createdAt ≤ right.createdAt).take options.limit

end WebhookDb

inductive WebhookStatement where
  | select
  | randomUUID
  | createDelivery (data : CreateWebhookDeliveryData)
  | updateDelivery (id : Uuid) (data : UpdateWebhookDeliveryData)
  | countConsecutiveFailures (subscriptionId : Uuid)
  | disableSubscription (id : Uuid)
  | createReplay (subscriptionId : Uuid) (counts : ReplayCounts)
  | updateReplay (id : Uuid) (counts : ReplayCounts)
  | post (request : Post)

def UpdateWebhookDeliveryData.apply (data : UpdateWebhookDeliveryData) (row : WebhookDelivery) : WebhookDelivery :=
  { row with
    status := data.status
    attempts := data.attempts
    nextRetryAt := data.nextRetryAt }

def WebhookStatement.effect : WebhookStatement → WebhookDb → WebhookDb
  | .select, db | .countConsecutiveFailures _, db => db
  | .randomUUID, db => { db with nextUuid := db.nextUuid + 1 }
  | .createDelivery data, db =>
    { db with
      deliveries := (db.newDelivery data).toList ++ db.deliveries
      nextUuid := db.nextUuid + 1 }
  | .updateDelivery id data, db =>
    { db with deliveries := Table.updateWhere (·.id == id) data.apply db.deliveries }
  | .disableSubscription id, db =>
    { db with
      subscriptions :=
        db.subscriptions.update (·.id == id) (fun sub => { sub with active := false }) fun _ => rfl }
  | .createReplay subscriptionId counts, db =>
    { db with
      replays := db.replays ++ [{ id := db.nextUuid, subscriptionId, status := .running, counts }]
      nextUuid := db.nextUuid + 1 }
  | .updateReplay id counts, db =>
    { db with
      replays := Table.updateWhere (·.id == id)
        (fun replay => { replay with status := .completed, counts }) db.replays }
  | .post request, db => { db with posts := request :: db.posts }

instance : Statement WebhookStatement WebhookDb where
  ready _ _ := true
  effect := WebhookStatement.effect

end EveHorizon.Webhooks
