import EveHorizon.Events.Router
import EveHorizon.Library.Keyed
import EveHorizon.Library.Solo

/-!
# Matching triggers

Which pipelines and workflows of a manifest an event triggers, what is recorded of those
it does not trigger, and the requests that the router sends for the others.
-/

namespace EveHorizon.Events

open Interleaving List Call

structure GitHubTrigger where
  event : Option String := none
  branch : Option String := none
  action : Option (List String) := none
  baseBranch : Option String := none
  deriving DecidableEq

structure SlackTrigger where
  event : Option String := none
  channel : Option String := none
  deriving DecidableEq

structure SystemTrigger where
  event : Option String := none
  pipeline : Option String := none
  deriving DecidableEq

/-- A schedule can be anything in a manifest; `other` is a value that is neither a text
nor falsy. -/
inductive ScheduleValue where
  | text (schedule : String)
  | other
  deriving DecidableEq

structure CronSettings where
  schedule : Option ScheduleValue := none
  deriving DecidableEq

structure AppTrigger where
  event : Option String := none
  deriving DecidableEq

structure AppLinkTrigger where
  linkAlias : Option String := none
  type : Option String := none
  deriving DecidableEq

structure EventTrigger where
  source : Option String := none
  type : Option String := none
  deriving DecidableEq

structure TriggerDefinition where
  github : Option GitHubTrigger := none
  slack : Option SlackTrigger := none
  system : Option SystemTrigger := none
  cron : Option CronSettings := none
  app : Option AppTrigger := none
  appLink : Option AppLinkTrigger := none
  event : Option EventTrigger := none
  manual : Bool := false
  deriving DecidableEq

inductive TriggerField where
  | absent
  | scalar
  | object (trigger : TriggerDefinition)
  deriving DecidableEq

structure DefinitionHints where
  gitSha : Option String := none
  pipelineName : Option String := none
  deriving DecidableEq

structure Definition where
  trigger : TriggerField
  hints : DefinitionHints := {}
  deriving DecidableEq

abbrev ManifestSection (α : Type) := Table.Keyed (Prod.fst : String × α → String)

structure EnvironmentDefinition where
  pipeline : Option String := none
  autoDeploy : Option Bool := none
  branch : Option String := none

structure Manifest where
  pipelines : ManifestSection Definition := .empty
  workflows : ManifestSection Definition := .empty
  environments : ManifestSection EnvironmentDefinition := .empty

structure Project where
  branch : String

abbrev Reason := String

structure TriggerEvaluation where
  type : TriggerType
  name : String
  matched : Bool
  reason : Option Reason

structure TriggerMatchResult where
  found : List TriggerMatch
  evaluations : List TriggerEvaluation

def matchesBranch (branch pattern : String) : Bool :=
  let wildcard := pattern.toList
  if branch = pattern then true
  else if "/*".toList.isSuffixOf wildcard then
    wildcard.dropLast.isPrefixOf branch.toList
  else if "*/".toList.isPrefixOf wildcard then
    wildcard.tail.isSuffixOf branch.toList
  else if "*".toList.isPrefixOf wildcard then
    wildcard.tail.isSuffixOf branch.toList
  else false

variable (event : Event)

def matchesAction (allowedActions : List String) : Bool :=
  match truthy (event.payload.bind (·.action)) with
  | none => false
  | some eventAction => allowedActions.contains eventAction

def matchesBaseBranch (pattern : String) : Bool :=
  match truthy (event.payload.bind fun payload => payload.pullRequest.bind (·.baseRef)) with
  | none => false
  | some baseBranch => matchesBranch baseBranch pattern

def matchesRefBranch (pattern : String) : Bool :=
  match truthy event.refBranch with
  | none => false
  | some branch => matchesBranch branch pattern

def passes (filter : Option String) (check : String → Bool) : Bool :=
  match truthy filter with
  | none => true
  | some value => check value

def matchesGitHubTrigger (trigger : GitHubTrigger) : Bool :=
  event.source == "github" &&
  passes trigger.event (fun name => event.type == "github." ++ name) &&
  trigger.action.all (matchesAction event) &&
  passes trigger.baseBranch (matchesBaseBranch event) &&
  passes trigger.branch (matchesRefBranch event)

def describeGitHubMismatch (trigger : GitHubTrigger) : Reason :=
  if event.source ≠ "github" then "source_mismatch"
  else if !passes trigger.event (fun name => event.type == "github." ++ name) then "type_mismatch"
  else if !trigger.action.all (matchesAction event) then "action_mismatch"
  else if !passes trigger.baseBranch (matchesBaseBranch event) then "base_branch_mismatch"
  else if !passes trigger.branch (matchesRefBranch event) then "branch_mismatch"
  else "unknown"

def matchesSlackTrigger (trigger : SlackTrigger) : Bool :=
  event.source == "slack" &&
  passes trigger.event (fun name => event.type == "slack." ++ name) &&
  passes trigger.channel fun channel =>
    truthy (event.payload.bind (·.channel)) == some channel

def Event.pipelineName : Option String := event.payload.bind (·.pipelineName)

def matchesSystemTrigger (trigger : SystemTrigger) (triggerOwnerName : String) : Bool :=
  event.source == "system" &&
  passes trigger.event (fun name => event.type == "system." ++ name) &&
  passes trigger.pipeline (fun pipeline => event.pipelineName == some pipeline) &&
  -- The guard against recursion.
  passes (some triggerOwnerName) fun owner => event.pipelineName != some owner

def matchesCronTrigger (trigger : CronSettings) (triggerName : String) : Bool :=
  event.source == "cron" && event.type == "cron.tick" &&
  (match trigger.schedule with
    | none => true
    | some (.text schedule) =>
      passes (some schedule) fun schedule => event.payload.bind (·.schedule) == some schedule
    | some .other => false) &&
  truthy (event.payload.bind (·.triggerName)) == some triggerName

def matchesAppTrigger (trigger : AppTrigger) : Bool :=
  event.source == "app" && passes trigger.event (event.type == ·)

def matchesAppLinkTrigger (trigger : AppLinkTrigger) : Bool :=
  event.source == "app_link" && passes trigger.type (event.type == ·) &&
  passes trigger.linkAlias fun linkAlias => event.payload.bind (·.linkAlias) == some linkAlias

def matchesGenericEventTrigger (trigger : EventTrigger) : Bool :=
  some event.source == trigger.source && passes trigger.type (event.type == ·)

def evaluated (matched : Bool) (reason : Reason) : Except Reason Unit :=
  if matched then .ok () else .error reason

def mismatch (source : Option String) (other : Reason) : Reason :=
  if some event.source ≠ source then "source_mismatch" else other

/-- Whether an event triggers the owner of a definition, or why not. The first kind of
trigger that a definition has is the one that counts. -/
def matchesTrigger (definition : Definition) (triggerName : String) : Except Reason Unit :=
  match definition.trigger with
  | .absent => .error "no_trigger"
  | .scalar => .error "no_trigger"
  | .object triggerDef =>
    if let some github := triggerDef.github then
      evaluated (matchesGitHubTrigger event github) (describeGitHubMismatch event github)
    else if let some slack := triggerDef.slack then
      evaluated (matchesSlackTrigger event slack) (mismatch event "slack" "type_mismatch")
    else if let some system := triggerDef.system then
      evaluated (matchesSystemTrigger event system triggerName)
        (mismatch event "system" "type_mismatch")
    else if let some cron := triggerDef.cron then
      evaluated (matchesCronTrigger event cron triggerName)
        (mismatch event "cron" "type_mismatch")
    else if let some app := triggerDef.app then
      evaluated (matchesAppTrigger event app) (mismatch event "app" "type_mismatch")
    else if let some appLink := triggerDef.appLink then
      evaluated (matchesAppLinkTrigger event appLink)
        (mismatch event "app_link" "type_or_alias_mismatch")
    else if let some generic := triggerDef.event then
      evaluated (matchesGenericEventTrigger event generic)
        (mismatch event generic.source "type_mismatch")
    else if triggerDef.manual then .error "manual_trigger"
    else .error "no_trigger"

def triggers (entry : String × Definition) : Bool :=
  (matchesTrigger event entry.2 entry.1).isOk

variable (type : TriggerType)

def evaluation (name : String) (result : Except Reason Unit) : TriggerEvaluation :=
  match result with
  | .ok () => { type, name, matched := true, reason := none }
  | .error reason => { type, name, matched := false, reason := some reason }

def sectionEvaluations (event : Event) (items : ManifestSection Definition) : List TriggerEvaluation :=
  items.rows.map fun entry => evaluation type entry.1 (matchesTrigger event entry.2 entry.1)

def matchOf (event : Event) (entry : String × Definition) : TriggerMatch where
  type := type
  name := entry.1
  projectId := event.projectId
  envName := none

def sectionMatches (event : Event) (items : ManifestSection Definition) : List TriggerMatch :=
  (items.rows.filter (triggers event)).map (matchOf type event)

def TriggerField.truthy : TriggerField → Bool
  | .absent => false
  | _ => true

variable (project : Project)

def matchesEnvironment (event : Event) (pipelines : ManifestSection Definition) (alreadyMatched : List String)
    (environment : EnvironmentDefinition) (pipelineName : String) : Except Reason Unit :=
  if alreadyMatched.contains pipelineName then .error "already_matched"
  else if (pipelines.find pipelineName).any (·.2.trigger.truthy) then .error "has_explicit_trigger"
  else if environment.autoDeploy == some false then .error "auto_deploy_disabled"
  else
    let triggerBranch := environment.branch.getD project.branch
    if Events.truthy event.refBranch = some triggerBranch then .ok ()
    else .error "branch_mismatch"

def environmentMatch (event : Event) (pipelines : ManifestSection Definition) (alreadyMatched : List String)
    (entry : String × EnvironmentDefinition) :
    Option TriggerMatch := do
  let pipelineName ← truthy entry.2.pipeline
  guard (matchesEnvironment project event pipelines alreadyMatched entry.2 pipelineName).isOk
  return { type := .pipeline, name := pipelineName, projectId := event.projectId,
           envName := some entry.1 }

def environmentEvaluation (event : Event) (pipelines : ManifestSection Definition) (alreadyMatched : List String)
    (entry : String × EnvironmentDefinition) : Option TriggerEvaluation := do
  let pipelineName ← truthy entry.2.pipeline
  return evaluation .pipeline (pipelineName ++ "(env:" ++ entry.1 ++ ")")
    (matchesEnvironment project event pipelines alreadyMatched entry.2 pipelineName)

variable (project : Option Project)

def matchEnvironmentLinkedPipelines (event : Event) (environments : ManifestSection EnvironmentDefinition)
    (pipelines : ManifestSection Definition) (alreadyMatched : List String) : TriggerMatchResult :=
  match project with
  | none => { found := [], evaluations := [] }
  | some project =>
    { found := environments.rows.filterMap
        (environmentMatch project event pipelines alreadyMatched)
      evaluations := environments.rows.filterMap
        (environmentEvaluation project event pipelines alreadyMatched) }

def explicitMatches (manifest : Manifest) : List TriggerMatch :=
  sectionMatches .pipeline event manifest.pipelines ++ sectionMatches .workflow event manifest.workflows

def environmentMatches (event : Event) (manifest : Manifest) : TriggerMatchResult :=
  if event.source = "github" ∧ event.type = "github.push" then
    matchEnvironmentLinkedPipelines project event manifest.environments manifest.pipelines
      ((sectionMatches .pipeline event manifest.pipelines).map (·.name))
  else { found := [], evaluations := [] }

def matchTriggersForEvent (manifest : Option Manifest) (event : Event) : TriggerMatchResult :=
  match manifest with
  | none => { found := [], evaluations := [] }
  | some manifest =>
    let linked := environmentMatches project event manifest
    { found := explicitMatches event manifest ++ linked.found
      evaluations :=
        sectionEvaluations .pipeline event manifest.pipelines ++
        sectionEvaluations .workflow event manifest.workflows ++ linked.evaluations }

variable {event : Event} {trigger : TriggerMatch}

theorem mem_sectionMatches {type : TriggerType} {items : ManifestSection Definition}
    (member : trigger ∈ sectionMatches type event items) : trigger.type = type ∧ trigger.envName = none := by
  obtain ⟨entry, _, rfl⟩ := mem_map.mp member
  exact ⟨rfl, rfl⟩

theorem sectionMatches_nodup (type : TriggerType) (event : Event)
    (items : ManifestSection Definition) : (sectionMatches type event items).Nodup := by
  apply List.Nodup.of_map (·.name)
  rw [sectionMatches, map_map]
  exact (filter_sublist.map Prod.fst).nodup items.distinct

theorem explicitMatches_nodup (event : Event) (manifest : Manifest) : (explicitMatches event manifest).Nodup := by
  apply List.Nodup.append (sectionMatches_nodup ..) (sectionMatches_nodup ..)
  intro trigger pipeline workflow
  have isPipeline := (mem_sectionMatches pipeline).1
  rw [(mem_sectionMatches workflow).1] at isPipeline
  cases isPipeline

theorem environmentMatch_envName {project : Project} {pipelines : ManifestSection Definition}
    {alreadyMatched : List String} {entry : String × EnvironmentDefinition}
    (found : environmentMatch project event pipelines alreadyMatched entry = some trigger) :
    trigger.envName = some entry.1 := by
  obtain ⟨pipelineName, _, guarded⟩ := Option.bind_eq_some_iff.mp found
  obtain ⟨_, _, same⟩ := Option.bind_eq_some_iff.mp guarded
  cases same
  rfl

theorem environmentMatches_envName {project : Option Project} {manifest : Manifest}
    (member : trigger ∈ (environmentMatches project event manifest).found) : trigger.envName ≠ none := by
  unfold environmentMatches matchEnvironmentLinkedPipelines at member
  split at member
  · split at member
    · cases member
    · obtain ⟨entry, _, found⟩ := mem_filterMap.mp member
      rw [environmentMatch_envName found]
      exact nofun
  · cases member

variable (project : Option Project)

theorem environmentMatches_nodup (event : Event) (manifest : Manifest) :
    (environmentMatches project event manifest).found.Nodup := by
  unfold environmentMatches matchEnvironmentLinkedPipelines
  split
  · split
    · exact nodup_nil
    · exact manifest.environments.filterMap_nodup (·.envName) fun _ _ => environmentMatch_envName
  · exact nodup_nil

theorem environmentMatches_eq_nil (source : event.source ≠ "github") (project : Option Project)
    (manifest : Manifest) : (environmentMatches project event manifest).found = [] := by
  rw [environmentMatches, if_neg fun push => source push.1]

theorem matchTriggersForEvent_nodup (manifest : Option Manifest) (event : Event) :
    (matchTriggersForEvent project manifest event).found.Nodup := by
  cases manifest with
  | none => exact nodup_nil
  | some manifest =>
    apply List.Nodup.append (explicitMatches_nodup ..) (environmentMatches_nodup ..)
    intro trigger explicit linked
    refine environmentMatches_envName linked ?_
    exact (mem_append.mp explicit).elim (fun member => (mem_sectionMatches member).2)
      fun member => (mem_sectionMatches member).2

def manifestTriggers (project : Option Project) (manifest : Option Manifest) (event : Event) : TriggerMatches :=
  ⟨(matchTriggersForEvent project manifest event).found, matchTriggersForEvent_nodup ..⟩

theorem manifestTriggers_found (manifest : Manifest) (event : Event) :
    (manifestTriggers project (some manifest) event).1 =
      explicitMatches event manifest ++ (environmentMatches project event manifest).found := rfl

structure Target where
  type : TriggerType
  name : String
  deriving DecidableEq

/-- What the API starts a run of when it is sent a request, if anything: how it reads the
request's path, and which definitions it takes, is left open. -/
structure InternalApi where
  startsPipeline : Request → Option String
  startsWorkflow : Request → Option String

def InternalApi.starts (api : InternalApi) (request : Request) : Option Target :=
  match request.body with
  | .run .. => (api.startsPipeline request).map fun name => { type := .pipeline, name }
  | .invoke _ => (api.startsWorkflow request).map fun name => { type := .workflow, name }

def requestFor (event : Event) (trigger : TriggerMatch) : Option Request :=
  match trigger.type with
  | .pipeline => (truthy event.refSha).map (pipelineRequest trigger event)
  | .workflow => some (workflowRequest trigger event)

/-- The runs that one processing of an event creates, each with its match. The first
request that the API refuses is the last one. -/
def fired (api : InternalApi) (event : Event) : List TriggerMatch → List (TriggerMatch × Target)
  | [] => []
  | trigger :: rest =>
    match requestFor event trigger with
    | none => fired api event rest
    | some request =>
      match api.starts request with
      | none => []
      | some target => (trigger, target) :: fired api event rest

variable {api : InternalApi}

theorem mem_fired {found : List TriggerMatch} {target : Target} (member : (trigger, target) ∈ fired api event found) :
    trigger ∈ found ∧ ∃ request, requestFor event trigger = some request ∧ api.starts request = some target := by
  induction found with
  | nil => cases member
  | cons first rest ih =>
    unfold fired at member
    have later (inside : (trigger, target) ∈ fired api event rest) :
        trigger ∈ first :: rest ∧ ∃ request, requestFor event trigger = some request ∧
          api.starts request = some target :=
      ⟨mem_cons_of_mem _ (ih inside).1, (ih inside).2⟩
    cases asks : requestFor event first with
    | none =>
      rw [asks] at member
      exact later member
    | some request =>
      rw [asks] at member
      dsimp only at member
      cases started : api.starts request with
      | none =>
        rw [started] at member
        cases member
      | some other =>
        rw [started] at member
        cases mem_cons.mp member with
        | inl same =>
          cases same
          exact ⟨mem_cons_self, request, asks, started⟩
        | inr inside => exact later inside

theorem fired_append {skipped : List TriggerMatch}
    (asksNothing : ∀ trigger ∈ skipped, requestFor event trigger = none) (rest : List TriggerMatch) :
    fired api event (skipped ++ rest) = fired api event rest := by
  induction skipped with
  | nil => rfl
  | cons first skipped ih =>
    rw [cons_append]
    conv => lhs; unfold fired
    rw [asksNothing first mem_cons_self]
    exact ih fun trigger member => asksNothing trigger (mem_cons_of_mem _ member)

/-- The answers from one request on are those of an API that is up: a request either
creates a run or is refused. -/
def InternalApi.Answers (api : InternalApi) (answers : Nat → ApiAnswer) (first : Nat)
    (requests : List Request) : Prop :=
  ∀ number request, requests[number]? = some request → (answers (first + number)).isOk = (api.starts request).isSome ∧
      (answers (first + number)).createsRun = (api.starts request).isSome

theorem InternalApi.Answers.tail {answers : Nat → ApiAnswer} {first : Nat} {request : Request}
    {rest : List Request} (answered : api.Answers answers first (request :: rest)) :
    api.Answers answers (first + 1) rest := by
  intro number later listed
  have after := answered (number + 1) later listed
  rw [show first + (number + 1) = first + 1 + number by omega] at after
  exact after

section

variable {config : RouterConfig} {api : InternalApi} {event : Event}

@[simp] theorem alone_linkJobToEvent (id : EventId) (jobId : Option String) (db : EventDb) :
    ((linkJobToEvent id jobId).alone db).1 = .ok () ∧ ((linkJobToEvent id jobId).alone db).2.runs = db.runs ∧
      ((linkJobToEvent id jobId).alone db).2.answers = db.answers ∧
      ((linkJobToEvent id jobId).alone db).2.requests = db.requests := by
  unfold linkJobToEvent
  split
  · exact ⟨rfl, rfl, rfl, rfl⟩
  · exact ⟨rfl, rfl, rfl, rfl⟩

structure ServedAlone (event : Event) (trigger : TriggerMatch) (target : Option Target)
    (before after : EventDb) (result : Except String Unit) : Prop where
  returns : result.isOk = target.isSome
  runs : after.runs = before.runs ++ (target.map fun _ => (event.id, trigger)).toList
  answers : after.answers = before.answers
  requests : after.requests = before.requests + 1

section

variable (isConfigured : config.configured = true)
include isConfigured

theorem isNone_of_configured :
    (truthy config.internalApiKey).isNone = false ∧ (truthy config.apiUrl).isNone = false := by
  have both := Bool.and_eq_true_iff.mp isConfigured
  exact ⟨Option.isNone_eq_false_iff.mpr both.1, Option.isNone_eq_false_iff.mpr both.2⟩

variable {trigger : TriggerMatch}

theorem alone_triggerMatch_skipped (skipped : requestFor event trigger = none) (db : EventDb) :
    (triggerMatch config trigger event).alone db = (.ok (), db) := by
  obtain ⟨hasKey, hasUrl⟩ := isNone_of_configured isConfigured
  unfold triggerMatch
  rw [hasKey, hasUrl]
  obtain ⟨type, name, projectId, envName⟩ := trigger
  cases type with
  | pipeline =>
    dsimp only
    rw [Option.map_eq_none_iff.mp skipped]
    rfl
  | workflow => cases skipped

variable {request : Request}

theorem triggerMatch_asks (asks : requestFor event trigger = some request) :
    triggerMatch config trigger event = (callInternalApi config event.id trigger request >>= fun jobId =>
        Events.linkJobToEvent event.id jobId) := by
  obtain ⟨hasKey, hasUrl⟩ := isNone_of_configured isConfigured
  unfold triggerMatch
  rw [hasKey, hasUrl]
  obtain ⟨type, name, projectId, envName⟩ := trigger
  cases type with
  | pipeline =>
    obtain ⟨refSha, isRef, rfl⟩ := Option.map_eq_some_iff.mp asks
    dsimp only
    rw [isRef]
    rfl
  | workflow =>
    cases asks
    rfl

theorem alone_callInternalApi (id : EventId) (trigger : TriggerMatch) (request : Request) (db : EventDb) :
    ((callInternalApi config id trigger request).alone db).1.isOk = db.nextAnswer.isOk ∧
      ((callInternalApi config id trigger request).alone db).2 = db.answer id trigger := by
  unfold callInternalApi
  rw [(isNone_of_configured isConfigured).1, if_neg nofun, alone_perform_bind]
  cases db.nextAnswer with
  | ok jobId | notOk status text created | networkError message created => exact ⟨rfl, rfl⟩

theorem alone_triggerMatch {target : Option Target} {db : EventDb} (asks : requestFor event trigger = some request)
    (isOk : db.nextAnswer.isOk = target.isSome) (creates : db.nextAnswer.createsRun = target.isSome) :
    ServedAlone event trigger target db ((triggerMatch config trigger event).alone db).2
      ((triggerMatch config trigger event).alone db).1 := by
  have runs : (db.answer event.id trigger).runs = db.runs ++ (target.map fun _ => (event.id, trigger)).toList := by
    cases target <;> simp [EventDb.answer, creates]
  obtain ⟨answered, stored⟩ := alone_callInternalApi isConfigured event.id trigger request db
  rw [triggerMatch_asks isConfigured asks, alone_bind]
  rcases called : (callInternalApi config event.id trigger request).alone db with ⟨result, after⟩
  rw [called] at answered stored
  dsimp only at stored
  subst stored
  cases result with
  | ok jobId =>
    obtain ⟨linked, sameRuns, sameAnswers, sameRequests⟩ :=
      alone_linkJobToEvent event.id jobId (db.answer event.id trigger)
    exact { returns := by rw [linked, ← isOk, ← answered]; rfl
            runs := sameRuns.trans runs
            answers := sameAnswers
            requests := sameRequests }
  | error error =>
    exact { returns := by rw [← isOk, ← answered]; rfl
            runs := runs
            answers := rfl
            requests := rfl }

theorem alone_forEach_triggerMatch (found : List TriggerMatch) (db : EventDb)
    (answered : api.Answers db.answers db.requests (found.filterMap (requestFor event))) :
    ((Call.forEach found fun trigger => (triggerMatch config trigger event).handle fun triggerError =>
          .raise triggerError).alone db).2.runs =
      db.runs ++ (fired api event found).map fun run => (event.id, run.1) := by
  induction found generalizing db with
  | nil => exact (append_nil _).symm
  | cons trigger rest ih =>
    have rethrows : ((triggerMatch config trigger event).handle fun triggerError =>
        .raise triggerError).alone db = (triggerMatch config trigger event).alone db := by
      rw [alone_handle]
      rcases (triggerMatch config trigger event).alone db with ⟨result, after⟩
      cases result <;> rfl
    unfold Call.forEach fired
    rw [bind_eq, alone_bind, rethrows]
    cases asks : requestFor event trigger with
    | none =>
      rw [filterMap_cons_none asks] at answered
      rw [alone_triggerMatch_skipped isConfigured asks]
      exact ih db answered
    | some request =>
      rw [filterMap_cons_some asks] at answered
      obtain ⟨isOk, creates⟩ := answered 0 request rfl
      have served := alone_triggerMatch isConfigured asks isOk creates
      rcases called : (triggerMatch config trigger event).alone db with ⟨result, after⟩
      rw [called] at served
      dsimp only
      cases started : api.starts request with
      | none =>
        rw [started] at served
        cases result with
        | ok _ => cases served.returns
        | error error => exact served.runs
      | some target =>
        rw [started] at served
        cases result with
        | error error => cases served.returns
        | ok _ =>
          have later := ih after (by
            rw [served.answers, served.requests]
            exact answered.tail)
          rw [served.runs, append_assoc] at later
          exact later

omit isConfigured in
/-- With nobody else at work no subscription goes away, and the fan-out cannot fail. -/
theorem alone_fanOutAppLinkEvent (event : Event) (db : EventDb) :
    (fanOutAppLinkEvent event).alone db = (.ok (), db) := by
  have queues : ∀ rows : List AppLinkSubscription, rows ⊆ db.subscriptions →
      (Call.forEach rows (queueFor event)).alone db = (.ok (), db) := by
    intro rows known
    induction rows with
    | nil => rfl
    | cons row rest ih =>
      have subscribed : db.subscribed row.id = true :=
        any_eq_true.mpr ⟨row, known mem_cons_self, beq_self_eq_true _⟩
      have queued : (queueFor event row).alone db = (.ok (), db) := by
        unfold queueFor
        split
        · rw [alone_perform_bind, subscribed]
          rfl
        · rfl
      rw [Call.forEach, bind_eq, alone_bind, queued]
      exact ih fun other later => known (mem_cons_of_mem _ later)
  unfold fanOutAppLinkEvent
  split
  · rfl
  · rw [alone_perform_bind]
    exact queues _ (filter_subset_self _)

theorem alone_processEvent (db : EventDb)
    (answered : api.Answers db.answers db.requests ((db.matching event).1.filterMap (requestFor event))) :
    ((processEvent config event).alone db).2.runs =
      db.runs ++ (fired api event (db.matching event).1).map fun run => (event.id, run.1) := by
  have served := alone_forEach_triggerMatch isConfigured (db.matching event).1
    (db.modify (·.id == event.id) db.touch) answered
  unfold processEvent
  dsimp only
  rw [alone_handle, alone_bind]
  unfold triggerMatches
  rw [alone_perform_bind, alone_bind, alone_fanOutAppLinkEvent]
  dsimp only
  rw [alone_perform_bind]
  have touched : Statement.effect (EventStatement.updateTriggerMetadata event.id)
      (Statement.effect (EventStatement.matchTriggersForEvent event) db) = db.modify (·.id == event.id) db.touch := rfl
  rw [touched]
  rcases looped : (Call.forEach (db.matching event).1 fun trigger =>
      (triggerMatch config trigger event).handle fun triggerError =>
        .raise triggerError).alone (db.modify (·.id == event.id) db.touch) with ⟨result, after⟩
  rw [looped] at served
  cases result with
  | ok _ | error error => exact served

end

end

end EveHorizon.Events
