import EveHorizon.Library.Histories
import EveHorizon.Library.Table
import Mathlib.Data.List.Sort

/-!
# The event router

Routers poll one `events` table. A tick re-queues stale events, claims pending ones,
queues each for the app links subscribed to it and sends one request to the internal API
for each trigger it matches. Which triggers match is up to the manifests in force at that
moment, and how a request ends is up to the API; both are left open here. What becomes of
the queued deliveries is left out, except that events may be created at any time.
-/

namespace EveHorizon.Events

open Interleaving

abbrev EventId := String

abbrev Timestamp := Nat

inductive EventStatus where
  | pending | processing | completed | failed
  deriving DecidableEq

inductive EventOutcome where
  | completed | failed

def EventOutcome.status : EventOutcome → EventStatus
  | .completed => .completed
  | .failed => .failed

structure PullRequest where
  number : Option Nat
  headRef : Option String
  headSha : Option String
  htmlUrl : Option String
  baseRef : Option String

structure Payload where
  action : Option String
  pullRequest : Option PullRequest
  repositoryFullName : Option String
  channel : Option String := none
  pipelineName : Option String := none
  schedule : Option String := none
  triggerName : Option String := none
  linkAlias : Option String := none

structure Event where
  id : EventId
  projectId : String
  type : String
  source : String
  envName : Option String
  refSha : Option String
  refBranch : Option String
  actorType : Option String
  actorId : Option String
  payload : Option Payload
  dedupeKey : Option String
  jobId : Option String
  status : EventStatus
  processedAt : Option Timestamp
  createdAt : Timestamp
  updatedAt : Timestamp

inductive TriggerType where
  | pipeline | workflow
  deriving DecidableEq

structure TriggerMatch where
  type : TriggerType
  name : String
  projectId : String
  envName : Option String
  deriving DecidableEq

/-- What `matchTriggersForEvent` finds. Names are keys of the manifest's objects, and an
environment adds a match under its own name, so no match is found twice. -/
abbrev TriggerMatches := { found : List TriggerMatch // found.Nodup }

structure PullRequestMetadata where
  prNumber : Option Nat
  prBranch : Option String
  prSha : Option String
  prUrl : Option String
  prAction : Option String
  baseBranch : Option String
  repo : Option String
  envName : Option String

structure TriggerInputs where
  eventId : EventId
  eventType : String
  source : String
  refSha : Option String
  refBranch : Option String
  actorType : Option String
  actorId : Option String
  payload : Option Payload
  metadata : Option PullRequestMetadata

inductive RequestBody where
  | run (gitSha : String) (envName : Option String) (inputs : TriggerInputs)
      (dedupeKey : Option String)
  | invoke (inputs : TriggerInputs)

structure Request where
  path : String
  body : RequestBody

/-- How a request ends. One that fails may still have created its run. -/
inductive ApiAnswer where
  | ok (jobId : Option String)
  | notOk (status : Nat) (text : String) (created : Bool)
  | networkError (message : String) (created : Bool)

def ApiAnswer.createsRun : ApiAnswer → Bool
  | .ok _ => true
  | .notOk _ _ created => created
  | .networkError _ created => created

def ApiAnswer.isOk : ApiAnswer → Bool
  | .ok _ => true
  | _ => false

def truthy (text : Option String) : Option String := text.filter (· ≠ "")

def extractPullRequestMetadata (payload : Payload) : Option PullRequestMetadata :=
  payload.pullRequest.map fun pullRequest =>
    { prNumber := pullRequest.number
      prBranch := pullRequest.headRef
      prSha := pullRequest.headSha
      prUrl := pullRequest.htmlUrl
      prAction := payload.action
      baseBranch := pullRequest.baseRef
      repo := payload.repositoryFullName
      envName := pullRequest.number.map fun number => "pr-" ++ toString number }

def buildTriggerInputs (event : Event) : TriggerInputs where
  eventId := event.id
  eventType := event.type
  source := event.source
  refSha := event.refSha
  refBranch := event.refBranch
  actorType := event.actorType
  actorId := event.actorId
  payload := event.payload
  metadata :=
    if event.type = "github.pull_request" then event.payload.bind extractPullRequestMetadata
    else none

def generateDedupeKey (event : Event) (inputs : TriggerInputs) : Option String :=
  if event.type = "github.pull_request" then do
    let metadata ← inputs.metadata
    let repo ← truthy metadata.repo
    let prNumber ← metadata.prNumber
    return "pr:" ++ repo ++ ":" ++ toString prNumber
  else none

def pipelineRequest (trigger : TriggerMatch) (event : Event) (refSha : String) : Request :=
  let inputs := buildTriggerInputs event
  let envName := trigger.envName <|> (inputs.metadata.bind (·.envName)) <|> event.envName
  { path := "/internal/projects/" ++ trigger.projectId ++ "/pipelines/" ++ trigger.name ++ "/runs"
    body := .run refSha envName inputs (generateDedupeKey event inputs) }

def workflowRequest (trigger : TriggerMatch) (event : Event) : Request where
  path := "/internal/projects/" ++ trigger.projectId ++ "/workflows/" ++ trigger.name ++ "/invoke"
  body := .invoke (buildTriggerInputs event)

/-- A row of `listEventSubscriptionsForProducer`. -/
structure AppLinkSubscription where
  id : String
  producerProjectId : String
  eventTypes : List String
  grantEventTypes : List String

def AppLinkSubscription.effectiveTypes (row : AppLinkSubscription) : List String :=
  if row.eventTypes = [] then row.grantEventTypes else row.eventTypes

/-- The database and the API as the routers see them: `matching` is what the manifests
in force select, `answers` is how the API will answer, and `runs` is what it created. -/
structure EventDb where
  now : Timestamp
  events : List Event
  matching : Event → TriggerMatches
  subscriptions : List AppLinkSubscription := []
  answers : Nat → ApiAnswer
  requests : Nat
  runs : List (EventId × TriggerMatch)

inductive EventStatement where
  | select
  | insert (event : Event)
  | claimPendingEvents (limit : Nat)
  | recoverStaleEvents (staleAfterSeconds : Nat)
  -- A `SELECT` over the manifests and the projects.
  | matchTriggersForEvent (event : Event)
  -- The `INSERT` of `deliveries.queue`: it refers to a subscription.
  | queueDelivery (id : EventId) (subscriptionId : String)
  | updateTriggerMetadata (id : EventId)
  | updateStatus (id : EventId) (outcome : EventOutcome)
  | linkJobToEvent (id : EventId) (jobId : String)
  | post (id : EventId) (trigger : TriggerMatch) (request : Request)
  -- The world outside the routers.
  | sync (matching : Event → TriggerMatches) (subscriptions : List AppLinkSubscription)
  | passTime (seconds : Nat)

namespace EventDb

variable (db : EventDb)

def subscriptionsOf (projectId : String) : List AppLinkSubscription :=
  db.subscriptions.filter (·.producerProjectId == projectId)

def subscribed (subscriptionId : String) : Bool :=
  db.subscriptions.any (·.id == subscriptionId)

def findById (id : EventId) : Option Event := db.events.find? (·.id == id)

def findByDedupeKey (projectId dedupeKey : String) : Option Event :=
  db.events.find? fun event => event.projectId == projectId && event.dedupeKey == some dedupeKey

def nextAnswer : ApiAnswer := db.answers db.requests

def pendingIds (limit : Nat) : List EventId :=
  (((db.events.filter (·.status == .pending)).insertionSort
    fun earlier later => earlier.createdAt ≤ later.createdAt).take limit).map Event.id

def isClaimed (limit : Nat) (event : Event) : Bool := (db.pendingIds limit).contains event.id

variable (event : Event)

def claim : Event :=
  { event with status := .processing, updatedAt := db.now }

def claimedEvents (limit : Nat) : List Event :=
  (db.events.filter (db.isClaimed limit)).map db.claim

def isStale (staleAfterSeconds : Nat) (event : Event) : Bool :=
  event.status == .processing && decide (event.updatedAt + staleAfterSeconds < db.now)

def requeue : Event :=
  { event with status := .pending, updatedAt := db.now }

def modify (selected : Event → Bool) (change : Event → Event) : EventDb :=
  { db with events := Table.updateWhere selected change db.events }

def touch : Event :=
  { event with updatedAt := db.now }

def answer (id : EventId) (trigger : TriggerMatch) : EventDb :=
  { db with
    requests := db.requests + 1
    runs := if db.nextAnswer.createsRun then db.runs ++ [(id, trigger)] else db.runs }

end EventDb

def EventStatement.effect : EventStatement → EventDb → EventDb
  | .select, db => db
  | .insert event, db =>
    if (db.findById event.id).isSome then db
    else { db with events := db.events ++ [{ event with
      status := .pending, jobId := none, processedAt := none,
      createdAt := db.now, updatedAt := db.now }] }
  | .claimPendingEvents limit, db => db.modify (db.isClaimed limit) db.claim
  | .recoverStaleEvents staleAfterSeconds, db =>
    db.modify (db.isStale staleAfterSeconds) db.requeue
  | .matchTriggersForEvent _, db | .queueDelivery _ _, db => db
  | .updateTriggerMetadata id, db => db.modify (·.id == id) db.touch
  | .updateStatus id outcome, db =>
    db.modify (·.id == id) fun event =>
      { event with
        status := outcome.status, processedAt := some db.now, updatedAt := db.now }
  | .linkJobToEvent id jobId, db =>
    db.modify (·.id == id) fun event => { event with jobId := some jobId, updatedAt := db.now }
  | .post id trigger _, db => db.answer id trigger
  | .sync matching subscriptions, db => { db with matching, subscriptions }
  | .passTime seconds, db => { db with now := db.now + seconds }

instance : Statement EventStatement EventDb where
  ready _ _ := true
  effect := EventStatement.effect

abbrev EventCall := Call EventStatement EventDb String

variable (event : Event)

def create : EventCall Unit := do
  let existing ← match truthy event.dedupeKey with
    | none => .ret none
    | some dedupeKey => .perform .select fun db => db.findByDedupeKey event.projectId dedupeKey
  match existing with
  | some _ => return ()
  | none => .perform (.insert event) fun _ => ()

structure RouterConfig where
  claimLimit : Nat
  staleAfterSeconds : Nat
  internalApiKey : Option String
  apiUrl : Option String

variable (config : RouterConfig)

def RouterConfig.configured : Bool :=
  (truthy config.internalApiKey).isSome && (truthy config.apiUrl).isSome

def callInternalApi (id : EventId) (trigger : TriggerMatch) (request : Request) : EventCall (Option String) := do
  if (truthy config.internalApiKey).isNone then
    .raise "EVE_INTERNAL_API_KEY is required for trigger execution"
  else
    match ← .perform (.post id trigger request) EventDb.nextAnswer with
    | .ok jobId => return jobId
    | .notOk status text _ =>
      .raise ("Trigger API failed: POST " ++ request.path ++ " → " ++ toString status ++ ": " ++ text)
    | .networkError message _ => .raise message

def linkJobToEvent (id : EventId) (jobId : Option String) : EventCall Unit :=
  match truthy jobId with
  | none => .ret ()
  | some jobId => .perform (.linkJobToEvent id jobId) fun _ => ()

def triggerMatch (trigger : TriggerMatch) (event : Event) : EventCall Unit := do
  if (truthy config.internalApiKey).isNone then
    .raise "EVE_INTERNAL_API_KEY is required for trigger execution"
  else if (truthy config.apiUrl).isNone then
    .raise "EVE_API_URL is required for trigger execution"
  else
    match trigger.type with
    | .pipeline =>
      match truthy event.refSha with
      | none => return ()
      | some refSha =>
        let jobId ← callInternalApi config event.id trigger
          (pipelineRequest trigger event refSha)
        linkJobToEvent event.id jobId
    | .workflow =>
      let jobId ← callInternalApi config event.id trigger (workflowRequest trigger event)
      linkJobToEvent event.id jobId

/-- A delivery cannot be queued for a subscription that is deleted since it was listed. -/
def queueFor (row : AppLinkSubscription) : EventCall Unit :=
  if row.effectiveTypes.contains event.type then do
    if ← .perform (.queueDelivery event.id row.id) fun db => db.subscribed row.id then return ()
    else .raise "insert on table \"app_link_event_deliveries\" violates foreign key constraint"
  else return ()

def fanOutAppLinkEvent : EventCall Unit :=
  if event.source = "app_link" then return ()
  else do
    let rows ← .perform .select fun db => db.subscriptionsOf event.projectId
    Call.forEach rows (queueFor event)

def triggerMatches (event : Event) : EventCall Unit := do
  let found ← .perform (.matchTriggersForEvent event) fun db => db.matching event
  fanOutAppLinkEvent event
  .perform (.updateTriggerMetadata event.id) fun _ => ()
  Call.forEach found.1 fun trigger =>
    (triggerMatch config trigger event).handle fun triggerError => .raise triggerError

def processEvent (event : Event) : EventCall Unit :=
  let body : EventCall Unit := do
    triggerMatches config event
    .perform (.updateStatus event.id .completed) fun _ => ()
  body.handle fun _ => .perform (.updateStatus event.id .failed) fun _ => ()

def tick (config : RouterConfig) (tickCount : Nat) : EventCall Unit := do
  if tickCount % 6 = 0 then
    .perform (.recoverStaleEvents config.staleAfterSeconds) fun _ => ()
  let claimedEvents ← .perform (.claimPendingEvents config.claimLimit) fun db =>
    db.claimedEvents config.claimLimit
  Call.forEach claimedEvents (processEvent config)

/-- What happens around the table: ticks of any router, new events, new manifests with
their app links, and the passing of time. A router that crashes leaves its tick where it
is. -/
inductive EventOperation where
  | tick (tickCount : Nat)
  | create (event : Event)
  | sync (matching : Event → TriggerMatches) (subscriptions : List AppLinkSubscription)
  | passTime (seconds : Nat)

def EventOperation.call : EventOperation → EventCall Unit
  | .tick tickCount => Events.tick config tickCount
  | .create event => Events.create event
  | .sync matching subscriptions => .perform (.sync matching subscriptions) fun _ => ()
  | .passTime seconds => .perform (.passTime seconds) fun _ => ()

def runRouters (db : EventDb) (schedule : List (Choice EventOperation)) : System EventStatement EventDb String Unit :=
  System.run (fun _ operation => operation.call config) db schedule

end EveHorizon.Events
