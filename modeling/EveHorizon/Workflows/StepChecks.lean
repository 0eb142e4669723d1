import EveHorizon.Library.Checks
import EveHorizon.Workflows.Invocation

/-!
# The checks of a step

When the checks that precede the job of a step pass, and when one of them rejects the step.
-/

namespace EveHorizon.Workflows

open List Checks
open Pipelines (ExecutionType RawList)

variable {catalog : Catalog} {context : Invocation} {failure : Failure} {α : Type}

theorem rejecting_eq_error {check : Except String α} :
    rejecting check = .error failure ↔ ∃ message, check = .error message ∧ Failure.badRequest message = failure :=
  mapError_eq_error

theorem rejecting_eq_ok {check : Except String α} {value : α} : rejecting check = .ok value ↔ check = .ok value :=
  mapError_eq_ok

theorem truthy_of_nonempty {text : String} (nonempty : text ≠ "") : Pipelines.truthy (some text) = some text := by
  simp [Pipelines.truthy, nonempty]

variable {path : String}

theorem knownToolchains_accepted {toolchains : List String}
    (accepts : toolchains.all (validToolchains.contains ·) = true) :
    Pipelines.knownToolchains validToolchains path (toolchains.map some) = .ok toolchains := by
  induction toolchains with
  | nil => rfl
  | cons toolchain rest ih =>
    rw [all_cons, Bool.and_eq_true] at accepts
    have nonempty : toolchain ≠ "" := by
      rintro rfl
      exact absurd accepts.1 (by decide)
    rw [map_cons, Pipelines.knownToolchains, truthy_of_nonempty nonempty]
    simp only [accepts.1, if_true, ih accepts.2]
    rfl

theorem parseToolchains_accepted {path : String} {toolchains : Option (List String)}
    (accepts : acceptsToolchains toolchains = true) :
    parseToolchains path (rawList toolchains) = .ok (toolchains.map fun names => names.reverse.dedup.reverse) := by
  cases toolchains with
  | none => rfl
  | some names =>
    have known : Pipelines.knownToolchains validToolchains path (names.map some) = .ok names :=
      knownToolchains_accepted accepts
    rw [parseToolchains, rawList, Pipelines.parseToolchains, known]
    rfl

theorem parseEnvOverrides_accepted {entries : Option (List (Text × Text))}
    (accepts : acceptsEnvOverrides entries = true) : parseEnvOverrides path entries = .ok entries := by
  cases entries with
  | none => rfl
  | some entries =>
    have clean : envOverrideIssues entries = [] := by simpa [acceptsEnvOverrides] using accepts
    rw [parseEnvOverrides, if_pos clean]

theorem nonEmptyEntries_accepted {entries : List String} (accepts : entries.all (· ≠ "") = true) :
    Pipelines.nonEmptyEntries path (entries.map some) = .ok entries := by
  induction entries with
  | nil => rfl
  | cons entry rest ih =>
    rw [all_cons, Bool.and_eq_true, decide_eq_true_eq] at accepts
    rw [map_cons, Pipelines.nonEmptyEntries, truthy_of_nonempty accepts.1]
    simp only [ih accepts.2]
    rfl

variable {permissions : Option (List String)}

theorem parseTokenPermissions_accepted {isValidPermission : String → Bool}
    (accepts : acceptsPermissions permissions = true) {parsed : Option (List String)} :
    parseTokenPermissions isValidPermission path permissions = .ok parsed ↔
      (∀ permission ∈ permissions.getD [], isValidPermission permission = true) ∧
        parsed = permissions.map fun names => names.dedup.insertionSort (· ≤ ·) := by
  cases permissions with
  | none =>
    constructor
    · rintro ⟨⟩
      exact ⟨by simp, rfl⟩
    · rintro ⟨_, rfl⟩
      rfl
  | some names =>
    have entries : Pipelines.nonEmptyEntries path (names.map some) = .ok names := nonEmptyEntries_accepted accepts
    rw [parseTokenPermissions, rawList, Pipelines.parseTokenPermissions, entries]
    change (if _ then _ else _) = _ ↔ _
    split
    · next unknown =>
        obtain ⟨permission, member⟩ := exists_mem_of_ne_nil _ unknown
        obtain ⟨listed, invalid⟩ := mem_filter.mp member
        simp only [reduceCtorEq, Option.getD_some, false_iff, not_and]
        intro valid
        rw [valid permission listed] at invalid
        cases invalid
    · next known =>
        have valid : ∀ permission ∈ names, isValidPermission permission = true := by simpa using known
        constructor
        · rintro ⟨⟩
          exact ⟨valid, rfl⟩
        · rintro ⟨_, rfl⟩
          rfl

def ProfilesParse (context : Invocation) (step : WorkflowStep) : Prop :=
  (∃ resolved, resolveProfile context.templateScope (step.harnessProfile.map .string) = .ok resolved) ∧
  ∃ resolved, resolveProfile context.templateScope (step.harnessProfileOverride.map .object) = .ok resolved

/-- The toolchains of the agent are needed and are no list of known ones. -/
structure AgentRefused (catalog : Catalog) (context : Invocation) (step : WorkflowStep)
    (agent : Agent) : Prop where
  declared : declaredAgent catalog context step = some agent
  undeclared : step.toolchains.getD [] = []
  unknown : ∃ message, parseToolchains ("Agent \"" ++ agent.id ++ "\".toolchains")
    (catalog.agentToolchains context.project.id agent.id) = .error message

def AgentPasses (catalog : Catalog) (context : Invocation) (entry : StepEntry) : Prop :=
  entry.2 = .agent → ProfilesParse context entry.1.2 ∧ ∀ agent, ¬ AgentRefused catalog context entry.1.2 agent

variable (context) (step : WorkflowStep)

def GitPasses : Prop :=
  (context.git = none ∧ step.git = none) ∨
    ∃ resolved, interpolateGit context.git step.git context.templateScope = .ok resolved ∧
      resolved.missing = [] ∧ resolved.nonScalar = []

/-- A reference in the git controls has no value, or none that is a scalar. -/
def GitRefused : Prop :=
  ¬ (context.git = none ∧ step.git = none) ∧
    ∃ resolved, interpolateGit context.git step.git context.templateScope = .ok resolved ∧
      ¬ (resolved.missing = [] ∧ resolved.nonScalar = [])

def mergedEnvironment : List (Text × Text) :=
  spread (spread (context.workflowEnvOverrides.getD []) (step.envOverrides.getD []))
    (context.invocationEnvOverrides.getD [])

def mergedScope : Option Access.AccessBindingScope :=
  Access.mergeStepTokenScope context.workflowTokenScope step.scope context.invocationTokenScope

def requestedPermissions : List String :=
  (step.permissions <|> context.invocationTokenPermissions <|>
    context.workflowTokenPermissions).getD []

variable {context}

inductive SettingsRefused (catalog : Catalog) (context : Invocation) (entry : StepEntry) : Prop where
  | environment (issues : envOverrideIssues (mergedEnvironment context entry.1.2) ≠ [])
  | scope {grants scope check} (asked : actor catalog context = some grants)
      (merged : mergedScope context entry.1.2 = some scope)
      (checked : check ∈ Access.scopeChecks scope) (refused : check.passes grants = false)
  | unknownPermission {permission} (declared : permission ∈ entry.1.2.permissions.getD [])
      (unknown : catalog.isValidPermission permission = false)
  | permission {grants permission} (asked : actor catalog context = some grants)
      (requested : permission ∈ requestedPermissions context entry.1.2)
      (refused : (Access.evaluatePermission permission.toList grants none).allowed = false)
  | resourceRefs {message} (contradictory : parseResourceRefsPolicy .step
      (stepPath context entry.1.1) entry.1.2.resourceRefs = .error message)

structure StepPasses (catalog : Catalog) (context : Invocation) (entry : StepEntry) : Prop where
  agent : AgentPasses catalog context entry
  git : GitPasses context entry.1.2
  settings : ¬ SettingsRefused catalog context entry

inductive StepRejected (catalog : Catalog) (context : Invocation) (entry : StepEntry) : Prop where
  | agent {agent} (execution : entry.2 = .agent) (parses : ProfilesParse context entry.1.2)
      (refused : AgentRefused catalog context entry.1.2 agent)
  | git (agent : AgentPasses catalog context entry) (refused : GitRefused context entry.1.2)
  | settings (agent : AgentPasses catalog context entry) (git : GitPasses context entry.1.2)
      (refused : SettingsRefused catalog context entry)

variable {workflowName : String}

section

variable {step : WorkflowStep} {path : String}

theorem planEnvOverrides_passes (accepts : acceptsEnvOverrides step.envOverrides = true) :
    (∃ merged, planEnvOverrides catalog context path step = .ok merged) ↔
      envOverrideIssues (mergedEnvironment context step) = [] := by
  rw [planEnvOverrides, parseEnvOverrides_accepted accepts]
  change (∃ merged, mergeStepEnvOverrides _ _ _ _ _ = _) ↔ _
  simp only [mergeStepEnvOverrides, mapError_eq_ok, mergeEnvOverrides]
  change (∃ merged, (if mergedEnvironment context step = [] then _ else
    if envOverrideIssues (mergedEnvironment context step) = [] then _ else _) = _) ↔ _
  by_cases empty : mergedEnvironment context step = []
  · have clean : envOverrideIssues [] = [] := by decide
    simp [empty, clean]
  · by_cases clean : envOverrideIssues (mergedEnvironment context step) = []
    · simp [empty, clean]
    · simp [empty, clean]

theorem planTokenScope_passes : (∃ merged, planTokenScope catalog context path step = .ok merged) ↔
      ∀ grants, actor catalog context = some grants → ∀ scope, mergedScope context step = some scope →
        ∀ check ∈ Access.scopeChecks scope, check.passes grants = true := by
  have parsed : parseTokenScope (path ++ ".scope") (accepted step.scope) = .ok step.scope := by
    cases step.scope <;> rfl
  rw [planTokenScope, parsed]
  change (∃ merged, ((Access.assertActorCanUseScope (actor catalog context)
    (mergedScope context step) _).mapError _ >>= fun _ => _) = _) ↔ _
  cases actor catalog context with
  | none => simp [Access.assertActorCanUseScope, Except.mapError, bind, Except.bind, pure, Except.pure]
  | some grants =>
    cases mergedScope context step with
    | none =>
      simp [Access.assertActorCanUseScope, Except.mapError, bind, Except.bind, pure, Except.pure]
    | some scope =>
      simp only [bind_eq_ok, mapError_eq_ok, Option.some.injEq, forall_eq']
      constructor
      · rintro ⟨_, _, passes, _⟩
        exact Access.assertActorCanUseScope_accepts.mp passes
      · intro passes
        exact ⟨_, (), Access.assertActorCanUseScope_accepts.mpr passes, rfl⟩

theorem mem_requestedPermissions (permissions first second : Option (List String)) (permission : String) :
    permission ∈ ((mergeStepTokenPermissions second
      (permissions.map fun names => names.dedup.insertionSort (· ≤ ·)) first).getD []) ↔
      permission ∈ (permissions <|> first <|> second).getD [] := by
  cases permissions with
  | some names => simp [mergeStepTokenPermissions]
  | none =>
    cases first with
    | some names => simp [mergeStepTokenPermissions]
    | none =>
      cases second with
      | some names | none => simp [mergeStepTokenPermissions]

theorem assertActorCanGrantPermissions_accepts {actor : Option (List Access.RawGrant)} {about : Text} :
    Access.assertActorCanGrantPermissions actor (permissions.map (·.map String.toList)) about = .ok () ↔
      ∀ grants, actor = some grants → ∀ permission ∈ permissions.getD [],
        (Access.evaluatePermission permission.toList grants none).allowed = true := by
  cases actor with
  | none => simp [Access.assertActorCanGrantPermissions]
  | some grants =>
    cases permissions with
    | none => simp [Access.assertActorCanGrantPermissions]
    | some permissions =>
      simp only [Access.assertActorCanGrantPermissions, Option.map_some]
      split
      · next refused found =>
          obtain ⟨permission, member, rfl⟩ := mem_map.mp (mem_of_find?_eq_some found)
          have denied := find?_some found
          simp only [reduceCtorEq, Option.some.injEq, Option.getD_some, forall_eq', false_iff, not_forall]
          exact ⟨permission, member, by simpa using denied⟩
      · next found =>
          simp only [Option.some.injEq, Option.getD_some, forall_eq', true_iff]
          intro permission member
          simpa using find?_eq_none.mp found _ (mem_map_of_mem member)

theorem planTokenPermissions_passes (accepts : acceptsPermissions step.permissions = true) :
    (∃ merged, planTokenPermissions catalog context path step = .ok merged) ↔
      (∀ permission ∈ step.permissions.getD [], catalog.isValidPermission permission = true) ∧
      ∀ grants, actor catalog context = some grants → ∀ permission ∈ requestedPermissions context step,
          (Access.evaluatePermission permission.toList grants none).allowed = true := by
  simp only [planTokenPermissions, bind_eq_ok, parseTokenPermissions_accepted accepts, mapError_eq_ok]
  constructor
  · rintro ⟨_, _, ⟨known, rfl⟩, _, granted, _⟩
    have allowed := assertActorCanGrantPermissions_accepts.mp granted
    exact ⟨known, fun grants asked permission requested => allowed grants asked permission
      ((mem_requestedPermissions _ _ _ _).mpr requested)⟩
  · rintro ⟨known, granted⟩
    have allowed : ∀ grants, actor catalog context = some grants → ∀ permission ∈
        ((mergeStepTokenPermissions context.workflowTokenPermissions
          (step.permissions.map fun names => names.dedup.insertionSort (· ≤ ·))
          context.invocationTokenPermissions).getD []),
        (Access.evaluatePermission permission.toList grants none).allowed = true :=
      fun grants asked permission merged =>
        granted grants asked permission ((mem_requestedPermissions _ _ _ _).mp merged)
    exact ⟨_, _, ⟨known, rfl⟩, (), assertActorCanGrantPermissions_accepts.mpr allowed, rfl⟩

theorem resolveStepResourceRefs_passes {refs : List ResourceRef} {policy : Option ResolvedResourceRefsPolicy}
    {setting : Option ResourceRefsSetting} {name : String} :
    (∃ resolved, resolveStepResourceRefs refs policy setting workflowName name = .ok resolved) ↔
      ∃ parsed, parseResourceRefsPolicy .step
        ("Workflow \"" ++ workflowName ++ "\" step \"" ++ name ++ "\"") setting = .ok parsed := by
  simp only [resolveStepResourceRefs, bind_eq_ok]
  constructor
  · rintro ⟨_, parsed, passed, _⟩
    exact ⟨parsed, passed⟩
  · rintro ⟨parsed, passed⟩
    exact ⟨_, parsed, passed, rfl⟩

end

section

variable {entry : StepEntry} {step : WorkflowStep}

theorem WorkflowStep.accepts (conforms : step.conforms = true) :
    acceptsToolchains step.toolchains = true ∧ acceptsEnvOverrides step.envOverrides = true ∧
      acceptsPermissions step.permissions = true := by
  simp only [WorkflowStep.conforms, Bool.and_eq_true] at conforms
  obtain ⟨⟨⟨⟨⟨⟨⟨_, toolchains⟩, envOverrides⟩, permissions⟩, _⟩, _⟩, _⟩, _⟩ := conforms
  exact ⟨toolchains, envOverrides, permissions⟩

theorem planSettings_passes (conforms : entry.1.2.conforms = true) :
    (∃ settings, planSettings catalog context entry = .ok settings) ↔ ¬ SettingsRefused catalog context entry := by
  obtain ⟨_, envOverrides, permissions⟩ := entry.1.2.accepts conforms
  simp only [planSettings, bind_eq_ok]
  constructor
  · rintro ⟨_, env, env_passes, scope, scope_passes, granted, granted_passes, refs, refs_passes, _⟩
    intro refused
    cases refused with
    | environment issues => exact issues ((planEnvOverrides_passes envOverrides).mp ⟨env, env_passes⟩)
    | scope asked merged checked denied =>
      have passes := planTokenScope_passes.mp ⟨scope, scope_passes⟩ _ asked _ merged _ checked
      rw [passes] at denied
      cases denied
    | unknownPermission declared unknown =>
      have known := ((planTokenPermissions_passes permissions).mp ⟨granted, granted_passes⟩).1
      rw [known _ declared] at unknown
      cases unknown
    | permission asked requested denied =>
      have allowed := ((planTokenPermissions_passes permissions).mp ⟨granted, granted_passes⟩).2
      rw [allowed _ asked _ requested] at denied
      cases denied
    | resourceRefs contradictory =>
      obtain ⟨parsed, passed⟩ := resolveStepResourceRefs_passes.mp ⟨refs, refs_passes⟩
      exact nomatch passed.symm.trans contradictory
  · intro clean
    obtain ⟨env, env_passes⟩ := (planEnvOverrides_passes envOverrides).mpr
      (by_contra fun issues => clean (.environment issues))
    obtain ⟨scope, scope_passes⟩ := planTokenScope_passes.mpr fun grants asked scope merged check checked => by
        by_contra denied
        exact clean (.scope asked merged checked (Bool.eq_false_iff.mpr denied))
    obtain ⟨granted, granted_passes⟩ := (planTokenPermissions_passes permissions).mpr ⟨fun permission declared => by
          by_contra unknown
          exact clean (.unknownPermission declared (Bool.eq_false_iff.mpr unknown)),
        fun grants asked permission requested => by
          by_contra denied
          exact clean (.permission asked requested (Bool.eq_false_iff.mpr denied))⟩
    obtain ⟨refs, refs_passes⟩ := resolveStepResourceRefs_passes.mpr (by
      by_contra refused
      obtain ⟨message, contradictory⟩ := not_ok_iff.mp refused
      exact clean (.resourceRefs contradictory))
    exact ⟨_, env, env_passes, scope, scope_passes, granted, granted_passes, refs, refs_passes, rfl⟩

theorem resolveProfile_error {templateScope : Templates.EvaluateScope} {template : Option Json}
    (failed : resolveProfile templateScope template = .error failure) : failure.rejects = false := by
  cases template with
  | none => cases failed
  | some value =>
    rcases bind_eq_error.mp failed with raised | ⟨_, _, same⟩
    · obtain ⟨_, _, rfl⟩ := mapError_eq_error.mp raised
      rfl
    · cases same

theorem nonEmpty_isSome (toolchains : Option (List String)) :
    (nonEmpty (toolchains.map fun names => names.reverse.dedup.reverse)).isSome = false ↔ toolchains.getD [] = [] := by
  cases toolchains with
  | none => simp [nonEmpty]
  | some names => simp [nonEmpty, Option.filter]

theorem resolveDeclaredToolchains_refused : (∃ failure, resolveDeclaredToolchains catalog context step
        (step.toolchains.map fun names => names.reverse.dedup.reverse) = .error failure ∧
      failure.rejects = true) ↔ ∃ agent, AgentRefused catalog context step agent := by
  unfold resolveDeclaredToolchains
  constructor
  · rintro ⟨failure, failed, _⟩
    cases declared : declaredAgent catalog context step with
    | none =>
      rw [declared] at failed
      cases failed
    | some agent =>
      rw [declared] at failed
      cases given : (nonEmpty (step.toolchains.map fun names => names.reverse.dedup.reverse)).isSome with
      | true =>
        simp only [given, if_true] at failed
        cases failed
      | false =>
        simp only [given, Bool.false_eq_true, if_false] at failed
        obtain ⟨message, unknown, _⟩ := rejecting_eq_error.mp failed
        exact ⟨agent, declared, (nonEmpty_isSome _).mp given, message, unknown⟩
  · rintro ⟨agent, declared, undeclared, message, unknown⟩
    have missing := (nonEmpty_isSome step.toolchains).mpr undeclared
    simp only [declared, missing, Bool.false_eq_true, if_false]
    exact ⟨.badRequest message, rejecting_eq_error.mpr ⟨message, unknown, rfl⟩, rfl⟩

variable {stepToolchains : Option (List String)}

theorem resolveDeclaredToolchains_error
    (failed : resolveDeclaredToolchains catalog context step stepToolchains = .error failure) :
    failure.rejects = true := by
  unfold resolveDeclaredToolchains at failed
  split at failed
  · cases failed
  · split at failed
    · cases failed
    · obtain ⟨message, _, rfl⟩ := rejecting_eq_error.mp failed
      rfl

theorem resolveStepAgentFromStep_passes :
    (∃ config, resolveStepAgentFromStep catalog context step stepToolchains = .ok config) ↔ ProfilesParse context step ∧
        ∃ toolchains, resolveDeclaredToolchains catalog context step stepToolchains = .ok toolchains := by
  simp only [resolveStepAgentFromStep, bind_eq_ok]
  constructor
  · rintro ⟨_, ref, ref_parses, overriding, override_parses, toolchains, resolved, _⟩
    exact ⟨⟨⟨ref, ref_parses⟩, overriding, override_parses⟩, toolchains, resolved⟩
  · rintro ⟨⟨⟨ref, ref_parses⟩, overriding, override_parses⟩, toolchains, resolved⟩
    exact ⟨_, ref, ref_parses, overriding, override_parses, toolchains, resolved, rfl⟩

theorem resolveStepAgentFromStep_rejected :
    (∃ failure, resolveStepAgentFromStep catalog context step stepToolchains = .error failure ∧
      failure.rejects = true) ↔ ProfilesParse context step ∧
        ∃ failure, resolveDeclaredToolchains catalog context step stepToolchains = .error failure ∧
          failure.rejects = true := by
  simp only [resolveStepAgentFromStep, bind_eq_error]
  constructor
  · rintro ⟨failure, malformed | ⟨ref, ref_parses, malformed |
      ⟨overriding, override_parses, refused | ⟨_, _, same⟩⟩⟩, rejects⟩
    · rw [resolveProfile_error malformed] at rejects
      cases rejects
    · rw [resolveProfile_error malformed] at rejects
      cases rejects
    · exact ⟨⟨⟨ref, ref_parses⟩, overriding, override_parses⟩, failure, refused, rejects⟩
    · cases same
  · rintro ⟨⟨⟨ref, ref_parses⟩, overriding, override_parses⟩, failure, refused, rejects⟩
    exact ⟨failure, .inr ⟨ref, ref_parses, .inr ⟨overriding, override_parses, .inl refused⟩⟩, rejects⟩

theorem resolveDeclaredToolchains_passes : (∃ toolchains, resolveDeclaredToolchains catalog context step
        (step.toolchains.map fun names => names.reverse.dedup.reverse) = .ok toolchains) ↔
      ∀ agent, ¬ AgentRefused catalog context step agent := by
  rw [← not_iff_not, not_ok_iff, not_forall_not, ← resolveDeclaredToolchains_refused]
  constructor
  · rintro ⟨failure, failed⟩
    exact ⟨failure, failed, resolveDeclaredToolchains_error failed⟩
  · rintro ⟨failure, failed, _⟩
    exact ⟨failure, failed⟩

theorem planAgent_passes (conforms : entry.1.2.conforms = true) :
    (∃ config, planAgent catalog context entry = .ok config) ↔ AgentPasses catalog context entry := by
  have toolchains := @parseToolchains_accepted (stepPath context entry.1.1 ++ ".toolchains") _
    (entry.1.2.accepts conforms).1
  rw [planAgent, toolchains, AgentPasses]
  cases execution : entry.2 with
  | agent =>
    change (∃ config, resolveStepAgentFromStep _ _ _ _ = _) ↔ _
    rw [resolveStepAgentFromStep_passes, resolveDeclaredToolchains_passes]
    simp
  | script | action type => simp [rejecting, Except.mapError, bind, Except.bind, pure, Except.pure]

theorem planAgent_rejected (conforms : entry.1.2.conforms = true) :
    (∃ failure, planAgent catalog context entry = .error failure ∧ failure.rejects = true) ↔
      entry.2 = .agent ∧ ProfilesParse context entry.1.2 ∧ ∃ agent, AgentRefused catalog context entry.1.2 agent := by
  have toolchains := @parseToolchains_accepted (stepPath context entry.1.1 ++ ".toolchains") _
    (entry.1.2.accepts conforms).1
  rw [planAgent, toolchains]
  cases execution : entry.2 with
  | agent =>
    change (∃ failure, resolveStepAgentFromStep _ _ _ _ = _ ∧ _) ↔ _
    rw [resolveStepAgentFromStep_rejected, resolveDeclaredToolchains_refused]
    simp
  | script | action type => simp [rejecting, Except.mapError, bind, Except.bind, pure, Except.pure]

variable {name : String}

theorem resolveStepGit_passes :
    (∃ git, resolveStepGit context.git step.git context.templateScope workflowName name = .ok git) ↔
      GitPasses context step := by
  unfold resolveStepGit GitPasses
  by_cases absent : context.git = none ∧ step.git = none
  · simp [absent]
  · rw [if_neg absent]
    cases interpolateGit context.git step.git context.templateScope with
    | error message => simp [absent]
    | ok resolved =>
      by_cases complete : resolved.missing = [] ∧ resolved.nonScalar = []
      · simp [complete]
      · simp [absent, complete]

theorem resolveStepGit_rejected :
    (∃ failure, resolveStepGit context.git step.git context.templateScope workflowName name =
      .error failure ∧ failure.rejects = true) ↔ GitRefused context step := by
  unfold resolveStepGit GitRefused
  by_cases absent : context.git = none ∧ step.git = none
  · simp [absent]
  · rw [if_neg absent]
    cases interpolateGit context.git step.git context.templateScope with
    | error message => simp [Failure.rejects]
    | ok resolved =>
      by_cases complete : resolved.missing = [] ∧ resolved.nonScalar = []
      · simp [complete]
      · simp only [absent, complete, if_false, not_false_eq_true, true_and]
        exact ⟨fun _ => ⟨resolved, rfl, complete⟩, fun _ => ⟨_, rfl, rfl⟩⟩

theorem planStep_passes (conforms : entry.1.2.conforms = true) :
    (∃ plan, planStep catalog context entry = .ok plan) ↔ StepPasses catalog context entry := by
  simp only [planStep, bind_eq_ok, rejecting_eq_ok]
  constructor
  · rintro ⟨_, config, resolved, git, interpolated, settings, passed, _⟩
    exact ⟨(planAgent_passes conforms).mp ⟨config, resolved⟩, resolveStepGit_passes.mp ⟨git, interpolated⟩,
      (planSettings_passes conforms).mp ⟨settings, passed⟩⟩
  · intro passes
    obtain ⟨config, resolved⟩ := (planAgent_passes conforms).mpr passes.agent
    obtain ⟨git, interpolated⟩ := resolveStepGit_passes.mpr passes.git
    obtain ⟨settings, passed⟩ := (planSettings_passes conforms).mpr passes.settings
    exact ⟨_, config, resolved, git, interpolated, settings, passed, rfl⟩

theorem planStep_rejected (conforms : entry.1.2.conforms = true) :
    (∃ failure, planStep catalog context entry = .error failure ∧ failure.rejects = true) ↔
      StepRejected catalog context entry := by
  simp only [planStep, bind_eq_error, rejecting_eq_error]
  constructor
  · rintro ⟨failure, refused | ⟨config, resolved, refused | ⟨git, interpolated, refused⟩⟩, rejects⟩
    · obtain ⟨execution, parses, agent, refused⟩ := (planAgent_rejected conforms).mp ⟨failure, refused, rejects⟩
      exact .agent execution parses refused
    · have agent := (planAgent_passes conforms).mp ⟨config, resolved⟩
      exact .git agent (resolveStepGit_rejected.mp ⟨failure, refused, rejects⟩)
    · have agent := (planAgent_passes conforms).mp ⟨config, resolved⟩
      have git := resolveStepGit_passes.mp ⟨git, interpolated⟩
      rcases refused with ⟨message, refused, _⟩ | ⟨_, _, same⟩
      · refine .settings agent git (by_contra fun clean => ?_)
        obtain ⟨settings, passed⟩ := (planSettings_passes conforms).mpr clean
        cases passed.symm.trans refused
      · cases same
  · intro rejected
    cases rejected with
    | agent execution parses refused =>
      obtain ⟨failure, failed, rejects⟩ := (planAgent_rejected conforms).mpr ⟨execution, parses, _, refused⟩
      exact ⟨failure, .inl failed, rejects⟩
    | git agent refused =>
      obtain ⟨config, resolved⟩ := (planAgent_passes conforms).mpr agent
      obtain ⟨failure, failed, rejects⟩ := resolveStepGit_rejected.mpr refused
      exact ⟨failure, .inr ⟨config, resolved, .inl failed⟩, rejects⟩
    | settings agent git refused =>
      obtain ⟨config, resolved⟩ := (planAgent_passes conforms).mpr agent
      obtain ⟨controls, interpolated⟩ := resolveStepGit_passes.mpr git
      have failing := (planSettings_passes conforms).not.mpr (not_not_intro refused)
      obtain ⟨message, failed⟩ := not_ok_iff.mp failing
      exact ⟨.badRequest message, .inr ⟨config, resolved, .inr ⟨controls, interpolated,
        .inl ⟨message, failed, rfl⟩⟩⟩, rfl⟩

end

end EveHorizon.Workflows
