import EveHorizon.Events.Triggers

/-!
# Cron triggers

The scheduler collects the cron triggers of a manifest and creates an event each time one
of them is due.
-/

namespace EveHorizon.Events

open Interleaving List

structure CronTrigger where
  projectId : String
  triggerName : String
  schedule : String
  deriving DecidableEq

def cronSchedule (definition : Definition) : Option String :=
  match definition.trigger with
  | .object trigger =>
    match trigger.cron.bind (·.schedule) with
    | some (.text schedule) => truthy (some schedule)
    | _ => none
  | _ => none

def cronTrigger (projectId : String) (entry : String × Definition) : Option CronTrigger :=
  (cronSchedule entry.2).map fun schedule => { projectId, triggerName := entry.1, schedule }

structure CronTick where
  eventId : EventId
  minute : String

variable (trigger : CronTrigger)

def CronTrigger.dedupeKey (minute : String) : String :=
  "cron:" ++ trigger.projectId ++ ":" ++ trigger.triggerName ++ ":" ++ trigger.schedule ++ ":" ++ minute

def CronTrigger.event (tick : CronTick) : Event where
  id := tick.eventId
  projectId := trigger.projectId
  type := "cron.tick"
  source := "cron"
  envName := none
  refSha := none
  refBranch := none
  actorType := some "system"
  actorId := none
  payload := some { action := none, pullRequest := none, repositoryFullName := none,
                    schedule := some trigger.schedule, triggerName := some trigger.triggerName }
  dedupeKey := some (trigger.dedupeKey tick.minute)
  jobId := none
  status := .pending
  processedAt := none
  createdAt := 0
  updatedAt := 0

def handleCronTick (project : Option Project) (trigger : CronTrigger) (tick : CronTick) : EventCall Unit :=
  match project with
  | none => return ()
  | some _ => create (trigger.event tick)

def firing (config : RouterConfig) (project : Option Project) (trigger : CronTrigger)
    (tick : CronTick) (db : EventDb) : EventDb :=
  let ticked := ((handleCronTick project trigger tick).alone db).2
  match ticked.findById tick.eventId with
  | none => ticked
  | some row => ((processEvent config (ticked.claim row)).alone ticked).2

def CronTrigger.row (tick : CronTick) (now : Timestamp) : Event :=
  { trigger.event tick with status := .processing, createdAt := now, updatedAt := now }

def scheduleAllows (cron : CronSettings) (schedule : String) : Bool :=
  match cron.schedule with
  | none => true
  | some (.text wanted) => passes (some wanted) fun wanted => schedule == wanted
  | some .other => false

/-- Whether a tick of a trigger is one for a definition: the definition of that name, if
its cron part is the one that counts, and each whose event part asks for cron events. -/
def tickTriggers (trigger : CronTrigger) (entry : String × Definition) : Bool :=
  match entry.2.trigger with
  | .object definition =>
    definition.github.isNone && definition.slack.isNone && definition.system.isNone &&
      match definition.cron with
      | some cron =>
        scheduleAllows cron trigger.schedule && truthy (some trigger.triggerName) == some entry.1
      | none =>
        definition.app.isNone && definition.appLink.isNone &&
          definition.event.any fun event =>
            some "cron" == event.source && passes event.type ("cron.tick" == ·)
  | _ => false

theorem evaluated_isOk (matched : Bool) (reason : Reason) : (evaluated matched reason).isOk = matched := by
  cases matched <;> rfl

theorem triggers_row (trigger : CronTrigger) (tick : CronTick) (now : Timestamp) (entry : String × Definition) :
    triggers (trigger.row tick now) entry = tickTriggers trigger entry := by
  obtain ⟨name, trigger?, hints⟩ := entry
  unfold triggers matchesTrigger tickTriggers
  cases trigger? with
  | absent | scalar => rfl
  | object definition =>
    obtain ⟨github, slack, system, cron, app, appLink, event, manual⟩ := definition
    cases github with
    | some github => exact evaluated_isOk _ _
    | none =>
    cases slack with
    | some slack => exact evaluated_isOk _ _
    | none =>
    cases system with
    | some system => exact evaluated_isOk _ _
    | none =>
    cases cron with
    | some cron =>
      obtain ⟨schedule⟩ := cron
      refine (evaluated_isOk _ _).trans ?_
      rfl
    | none =>
    cases app with
    | some app => exact evaluated_isOk _ _
    | none =>
    cases appLink with
    | some appLink => exact evaluated_isOk _ _
    | none =>
    cases event with
    | some event => exact evaluated_isOk _ _
    | none => cases manual <;> rfl

variable (manifest : Manifest)

def tickedWorkflows (trigger : CronTrigger) : List (String × Definition) :=
  manifest.workflows.rows.filter (tickTriggers trigger)

theorem fired_row (api : InternalApi) (project : Option Project) (manifest : Manifest)
    (trigger : CronTrigger) (tick : CronTick) (now : Timestamp) :
    fired api (trigger.row tick now) (manifestTriggers project (some manifest) (trigger.row tick now)).1 =
      fired api (trigger.row tick now)
        ((tickedWorkflows manifest trigger).map (matchOf .workflow (trigger.row tick now))) := by
  have workflows : sectionMatches .workflow (trigger.row tick now) manifest.workflows =
      (tickedWorkflows manifest trigger).map (matchOf .workflow (trigger.row tick now)) := by
    rw [sectionMatches, tickedWorkflows, filter_congr fun entry _ => triggers_row trigger tick now entry]
  have found : (manifestTriggers project (some manifest) (trigger.row tick now)).1 =
      sectionMatches .pipeline (trigger.row tick now) manifest.pipelines ++
        (tickedWorkflows manifest trigger).map (matchOf .workflow (trigger.row tick now)) := by
    have source : (trigger.row tick now).source = "cron" := rfl
    have foreign : (trigger.row tick now).source ≠ "github" := by
      rw [source]
      decide
    have linked := environmentMatches_eq_nil foreign project manifest
    rw [manifestTriggers_found, linked, append_nil, explicitMatches, workflows]
  rw [found]
  apply fired_append
  intro pipeline member
  rw [requestFor, (mem_sectionMatches member).1]
  rfl

theorem starts_invoke {api : InternalApi} {event : Event} {trigger : TriggerMatch}
    {target : Target} (started : api.starts (workflowRequest trigger event) = some target) :
    target.type = .workflow := by
  obtain ⟨name, _, rfl⟩ := Option.map_eq_some_iff.mp started
  rfl

theorem fired_workflows_iff (api : InternalApi) (event : Event) (target : Target)
    (entries : List (String × Definition)) :
    (∃ trigger, fired api event (entries.map (matchOf .workflow event)) = [(trigger, target)]) ↔
      ∃ entry rest, entries = entry :: rest ∧
        api.starts (workflowRequest (matchOf .workflow event entry) event) = some target ∧ ∀ next ∈ rest.head?,
          api.starts (workflowRequest (matchOf .workflow event next) event) = none := by
  have asks (entry : String × Definition) : requestFor event (matchOf .workflow event entry) =
      some (workflowRequest (matchOf .workflow event entry) event) := rfl
  have none_iff (rest : List (String × Definition)) :
      fired api event (rest.map (matchOf .workflow event)) = [] ↔ ∀ next ∈ rest.head?,
          api.starts (workflowRequest (matchOf .workflow event next) event) = none := by
    cases rest with
    | nil => exact ⟨fun _ _ member => (Option.not_mem_none _ member).elim, fun _ => rfl⟩
    | cons next later =>
      rw [map_cons, fired, asks, head?_cons]
      dsimp only
      cases started : api.starts (workflowRequest (matchOf .workflow event next) event) with
      | none | some other => simp [started]
  cases entries with
  | nil =>
    constructor
    · intro ⟨_, same⟩
      exact absurd same.symm (cons_ne_nil _ _)
    · intro ⟨_, _, same, _⟩
      exact absurd same.symm (cons_ne_nil _ _)
  | cons entry rest =>
    rw [map_cons, fired, asks]
    dsimp only
    cases started : api.starts (workflowRequest (matchOf .workflow event entry) event) with
    | none =>
      constructor
      · intro ⟨_, same⟩
        cases same
      · intro ⟨_, _, same, starts, _⟩
        cases same
        rw [started] at starts
        cases starts
    | some other =>
      constructor
      · intro ⟨trigger, same⟩
        obtain ⟨first, refused⟩ := List.cons.inj same
        cases first
        exact ⟨entry, rest, rfl, started, (none_iff rest).mp refused⟩
      · intro ⟨_, _, same, starts, refused⟩
        cases same
        rw [started] at starts
        cases starts
        exact ⟨_, congrArg _ ((none_iff rest).mpr refused)⟩

def Manifest.definitions : TriggerType → ManifestSection Definition
  | .pipeline => manifest.pipelines
  | .workflow => manifest.workflows

def CollectedFrom (projectId : String) (target : Target) (trigger : CronTrigger) : Prop :=
  ∃ entry ∈ (manifest.definitions target.type).rows, entry.1 = target.name ∧ cronTrigger projectId entry = some trigger

def FiresOnce (config : RouterConfig) (api : InternalApi) (project : Option Project)
    (trigger : CronTrigger) (tick : CronTick) (target : Target) (db : EventDb) : Prop :=
  ∃ found request, (firing config project trigger tick db).runs = db.runs ++ [(tick.eventId, found)] ∧
    requestFor (trigger.row tick db.now) found = some request ∧ api.starts request = some target

/-- What it takes for a firing to create one run of the target: the target is a workflow,
the first one that the tick is for, the next one's request is refused if there is a next
one, the project exists, and the trigger has not fired before in this minute. -/
structure Reaches (api : InternalApi) (project : Option Project) (manifest : Manifest)
    (trigger : CronTrigger) (tick : CronTick) (target : Target) (db : EventDb) : Prop where
  isWorkflow : target.type = .workflow
  exists_project : project.isSome = true
  unfired : db.findByDedupeKey trigger.projectId (trigger.dedupeKey tick.minute) = none
  only : ∃ entry rest, tickedWorkflows manifest trigger = entry :: rest ∧
    api.starts (workflowRequest (matchOf .workflow (trigger.row tick db.now) entry)
      (trigger.row tick db.now)) = some target ∧ ∀ next ∈ rest.head?, api.starts (workflowRequest
      (matchOf .workflow (trigger.row tick db.now) next) (trigger.row tick db.now)) = none

theorem truthy_dedupeKey (trigger : CronTrigger) (minute : String) :
    truthy (some (trigger.dedupeKey minute)) = some (trigger.dedupeKey minute) := by
  have nonempty : trigger.dedupeKey minute ≠ "" := by
    intro same
    have empty := congrArg String.toList same
    simp [CronTrigger.dedupeKey] at empty
  simp [truthy, nonempty]

section

variable {config : RouterConfig} {api : InternalApi} {project : Option Project}
  {manifest : Manifest} {trigger : CronTrigger} {tick : CronTick} {db : EventDb}

theorem firing_idle (fresh : db.findById tick.eventId = none) (idle : project = none ∨
      db.findByDedupeKey trigger.projectId (trigger.dedupeKey tick.minute) ≠ none) :
    firing config project trigger tick db = db := by
  have ticked : ((handleCronTick project trigger tick).alone db).2 = db := by
    cases project with
    | none => rfl
    | some project =>
      have taken := idle.resolve_left nofun
      obtain ⟨existing, found⟩ := Option.ne_none_iff_exists'.mp taken
      unfold handleCronTick create
      rw [show (trigger.event tick).dedupeKey = some (trigger.dedupeKey tick.minute) from rfl, truthy_dedupeKey]
      dsimp only
      rw [Call.alone_perform_bind, show (trigger.event tick).projectId = trigger.projectId from rfl, found]
      rfl
  rw [firing, ticked, fresh]

def CronTrigger.inserted (trigger : CronTrigger) (tick : CronTick) (now : Timestamp) : Event :=
  { trigger.event tick with createdAt := now, updatedAt := now }

theorem alone_handleCronTick (trigger : CronTrigger) (found : Project) (fresh : db.findById tick.eventId = none)
    (unfired : db.findByDedupeKey trigger.projectId (trigger.dedupeKey tick.minute) = none) :
    ((handleCronTick (some found) trigger tick).alone db).2 =
      { db with events := db.events ++ [trigger.inserted tick db.now] } := by
  unfold handleCronTick create
  rw [show (trigger.event tick).dedupeKey = some (trigger.dedupeKey tick.minute) from rfl, truthy_dedupeKey]
  dsimp only
  rw [Call.alone_perform_bind, show (trigger.event tick).projectId = trigger.projectId from rfl, unfired]
  have absent : ¬ (db.findById tick.eventId).isSome = true := by
    rw [fresh]
    exact nofun
  exact if_neg absent

theorem firing_runs (isConfigured : config.configured = true) {found : Project}
    (isProject : project = some found) (fresh : db.findById tick.eventId = none)
    (unfired : db.findByDedupeKey trigger.projectId (trigger.dedupeKey tick.minute) = none)
    (matching : db.matching (trigger.row tick db.now) =
      manifestTriggers project (some manifest) (trigger.row tick db.now)) (answered : api.Answers db.answers db.requests
      ((db.matching (trigger.row tick db.now)).1.filterMap (requestFor (trigger.row tick db.now)))) :
    (firing config project trigger tick db).runs = db.runs ++
      (fired api (trigger.row tick db.now) ((tickedWorkflows manifest trigger).map
        (matchOf .workflow (trigger.row tick db.now)))).map fun run => (tick.eventId, run.1) := by
  have ticked := alone_handleCronTick trigger found fresh unfired
  have listed : ({ db with events := db.events ++ [trigger.inserted tick db.now] } :
      EventDb).findById tick.eventId = some (trigger.inserted tick db.now) := by
    unfold EventDb.findById at fresh ⊢
    rw [find?_append, fresh, Option.none_or]
    exact find?_cons_of_pos (beq_self_eq_true tick.eventId)
  subst isProject
  rw [firing, ticked, listed]
  dsimp only
  have processed := alone_processEvent isConfigured
    ({ db with events := db.events ++ [trigger.inserted tick db.now] } : EventDb) answered
  have claims : EventDb.claim { db with events := db.events ++ [trigger.inserted tick db.now] }
      (trigger.inserted tick db.now) = trigger.row tick db.now := rfl
  rw [claims, processed, matching, fired_row]
  rfl

theorem CollectedFrom.projectId {projectId : String} {target : Target}
    (source : CollectedFrom manifest projectId target trigger) : trigger.projectId = projectId := by
  obtain ⟨entry, _, _, collected⟩ := source
  obtain ⟨schedule, _, rfl⟩ := Option.map_eq_some_iff.mp collected
  rfl

/-- A firing for a collected trigger creates an event whose processing creates exactly one
run, one of the very definition, exactly when it reaches it. -/
theorem firesOnce_iff (isConfigured : config.configured = true) {projectId : String}
    {target : Target} (source : CollectedFrom manifest projectId target trigger)
    (fresh : db.findById tick.eventId = none) (matching : ∀ event, event.projectId = projectId →
      db.matching event = manifestTriggers project (some manifest) event) (answered : api.Answers db.answers db.requests
      ((db.matching (trigger.row tick db.now)).1.filterMap (requestFor (trigger.row tick db.now)))) :
    FiresOnce config api project trigger tick target db ↔ Reaches api project manifest trigger tick target db := by
  have silent (idle : firing config project trigger tick db = db) :
      ¬ FiresOnce config api project trigger tick target db := by
    intro ⟨found, request, runs, _⟩
    rw [idle] at runs
    exact absurd (congrArg List.length runs) (by simp)
  constructor
  · intro fires
    have exists_project : project.isSome = true := by
      cases isProject : project with
      | some found => rfl
      | none => exact absurd fires (silent (firing_idle fresh (.inl isProject)))
    have unfired : db.findByDedupeKey trigger.projectId (trigger.dedupeKey tick.minute) = none := by
      by_contra taken
      exact silent (firing_idle fresh (.inr taken)) fires
    obtain ⟨found, isProject⟩ := Option.isSome_iff_exists.mp exists_project
    obtain ⟨trigger', request, runs, asks, starts⟩ := fires
    rw [firing_runs isConfigured isProject fresh unfired
      (matching (trigger.row tick db.now) source.projectId) answered] at runs
    obtain ⟨⟨fired, other⟩, alone, same⟩ := map_eq_singleton_iff.mp (append_cancel_left runs)
    cases (Prod.mk.inj same).2
    have member : (fired, other) ∈ Events.fired api (trigger.row tick db.now)
        ((tickedWorkflows manifest trigger).map (matchOf .workflow (trigger.row tick db.now))) := by
      rw [alone]
      exact mem_singleton_self _
    obtain ⟨_, request', asks', starts'⟩ := mem_fired member
    cases asks.symm.trans asks'
    cases starts.symm.trans starts'
    have only := (fired_workflows_iff api (trigger.row tick db.now) target
      (tickedWorkflows manifest trigger)).mp ⟨fired, alone⟩
    have isWorkflow : target.type = .workflow := by
      obtain ⟨entry, rest, _, first, _⟩ := only
      exact starts_invoke first
    exact { isWorkflow, exists_project, unfired, only }
  · intro reaches
    obtain ⟨found, isProject⟩ := Option.isSome_iff_exists.mp reaches.exists_project
    have fired := firing_runs isConfigured isProject fresh reaches.unfired
      (matching (trigger.row tick db.now) source.projectId) answered
    obtain ⟨trigger', alone⟩ := (fired_workflows_iff api (trigger.row tick db.now) target
      (tickedWorkflows manifest trigger)).mpr reaches.only
    have member : (trigger', target) ∈ Events.fired api (trigger.row tick db.now)
        ((tickedWorkflows manifest trigger).map (matchOf .workflow (trigger.row tick db.now))) := by
      rw [alone]
      exact mem_singleton_self _
    obtain ⟨_, request, asks, starts⟩ := mem_fired member
    rw [alone] at fired
    exact ⟨trigger', request, fired, asks, starts⟩

end

def hourly : Definition where
  trigger := .object { cron := some { schedule := some (.text "0 * * * *") } }

def hourlyManifest : Manifest where
  pipelines := ⟨[("deploy", hourly)], by decide⟩
  workflows := ⟨[("report", hourly)], by decide⟩

variable (name : String)

def hourlyTrigger : CronTrigger where
  projectId := "proj_1"
  triggerName := name
  schedule := "0 * * * *"

def noon : CronTick where
  eventId := "evt_1"
  minute := "2026-01-01T12:00"

def mainProject : Option Project := some { branch := "main" }

def cronConfig : RouterConfig where
  claimLimit := 25
  staleAfterSeconds := 60
  internalApiKey := some "key"
  apiUrl := some "http://localhost:4701"

def hourlyApi : InternalApi where
  startsPipeline request :=
    if request.path = "/internal/projects/proj_1/pipelines/deploy/runs" then some "deploy"
    else none
  startsWorkflow request :=
    if request.path = "/internal/projects/proj_1/workflows/report/invoke" then some "report"
    else none

def idleDb : EventDb where
  now := 0
  events := []
  matching := manifestTriggers mainProject (some hourlyManifest)
  answers := fun _ => .ok none
  requests := 0
  runs := []

def hourlyRequests : List Request :=
  (idleDb.matching ((hourlyTrigger name).row noon 0)).1.filterMap
    (requestFor ((hourlyTrigger name).row noon 0))

theorem hourlyApi_answers (taken : (hourlyRequests name).all fun request => (hourlyApi.starts request).isSome) :
    hourlyApi.Answers idleDb.answers idleDb.requests (hourlyRequests name) := by
  intro number request listed
  have isSome := all_eq_true.mp taken request (mem_of_getElem? listed)
  rw [isSome]
  exact ⟨rfl, rfl⟩

theorem report_reaches : Reaches hourlyApi mainProject hourlyManifest (hourlyTrigger "report") noon
      { type := .workflow, name := "report" } idleDb where
  isWorkflow := rfl
  exists_project := rfl
  unfired := rfl
  only := by
    refine ⟨("report", hourly), [], by decide +kernel, by decide +kernel, ?_⟩
    intro next member
    exact (Option.not_mem_none next member).elim

theorem report_firesOnce : FiresOnce cronConfig hourlyApi mainProject (hourlyTrigger "report") noon
      { type := .workflow, name := "report" } idleDb := by
  have source : CollectedFrom hourlyManifest "proj_1" { type := .workflow, name := "report" }
      (hourlyTrigger "report") := ⟨("report", hourly), by decide, rfl, by decide⟩
  have answered := hourlyApi_answers "report" (by decide +kernel)
  exact (firesOnce_iff (by decide) source rfl (fun _ _ => rfl) answered).mpr report_reaches

/-- The trigger of a pipeline is collected and its firing creates an event, but the API is
never asked for a run. -/
theorem deploy_never_runs :
    cronConfig.configured = true ∧ CollectedFrom hourlyManifest "proj_1" { type := .pipeline, name := "deploy" }
        (hourlyTrigger "deploy") ∧
      idleDb.findById noon.eventId = none ∧
      (∀ event, event.projectId = "proj_1" →
        idleDb.matching event = manifestTriggers mainProject (some hourlyManifest) event) ∧
      hourlyApi.Answers idleDb.answers idleDb.requests (hourlyRequests "deploy") ∧
      ((firing cronConfig mainProject (hourlyTrigger "deploy") noon idleDb).events.map (·.id)) = ["evt_1"] ∧
      ¬ FiresOnce cronConfig hourlyApi mainProject (hourlyTrigger "deploy") noon
        { type := .pipeline, name := "deploy" } idleDb := by
  have silent : (firing cronConfig mainProject (hourlyTrigger "deploy") noon idleDb).runs = [] := by
    decide +kernel
  refine ⟨by decide, ⟨("deploy", hourly), by decide, rfl, by decide⟩, rfl, fun _ _ => rfl,
    hourlyApi_answers "deploy" (by decide +kernel), by decide +kernel, ?_⟩
  intro ⟨found, _, runs, _⟩
  rw [silent] at runs
  cases runs

end EveHorizon.Events
