import EveHorizon.Workflows.TemplateMeaning

/-!
# Profiles without a value

What becomes of the profile of a step, and of the bundle it gives in its place, where references
in them have no scalar value.
-/

namespace EveHorizon.Workflows

open Templates List Checks
open Pipelines (truthy)

/-- A reference of the field has no value, or one that is no scalar. -/
def Unresolvable (scope : EvaluateScope) (field : Json) : Prop :=
  ∃ leaf ∈ leaves field, ∃ reference ∈ templateReferences leaf,
    isMissing scope reference = true ∨ scalarOf scope reference = none

def Misses (scope : EvaluateScope) (field : Json) : Prop :=
  ∃ leaf ∈ leaves field, ∃ reference ∈ templateReferences leaf, isMissing scope reference = true

instance (scope : EvaluateScope) (field : Json) : Decidable (Unresolvable scope field) :=
  inferInstanceAs (Decidable (∃ leaf ∈ _, ∃ _ ∈ templateReferences leaf, _))

def profileFields (step : WorkflowStep) : List Json :=
  (step.harnessProfile.map Json.string).toList ++ (step.harnessProfileOverride.map Json.object).toList

variable (scope : EvaluateScope)

/-- The step without the fields that have no value. -/
def WorkflowStep.resolvable (step : WorkflowStep) : WorkflowStep :=
  { step with
    harnessProfile := step.harnessProfile.filter fun profile => ¬Unresolvable scope (.string profile)
    harnessProfileOverride := step.harnessProfileOverride.filter fun fields => ¬Unresolvable scope (.object fields) }

/-- The text has, as it was written, a reference without a scalar value. -/
def ShowsUnresolved (text : Text) : Prop :=
  ∃ before body after reference, text = before ++ '$' :: '\x7b' :: body ++ '\x7d' :: after ∧
    parseReference (Text.trim body) = .ok reference ∧ scalarOf scope reference = none

def InlineProfileBundle.texts (bundle : InlineProfileBundle) : List Text :=
  bundle.harness :: [bundle.model, bundle.variant, bundle.reasoningEffort].reduceOption

def optionTexts (options : Option JobHarnessOptions) : List Text := options.elim [] memberLeaves

/-- The name of the profile, the fields of the override and the options. -/
def StepAgentConfig.profileTexts (config : StepAgentConfig) : List Text :=
  (config.harnessProfile.map String.toList).toList ++ config.harnessProfileOverride.elim [] (·.texts) ++
    optionTexts config.harnessOptions

variable (catalog : Catalog) (context : Invocation) (step : WorkflowStep) (stepToolchains : Option (List String))

/-- A step with a field that has no value is resolved as without it, and shows no such reference. -/
def FallsBack (config : StepAgentConfig) : Prop :=
  (∃ field ∈ profileFields step, Unresolvable context.templateScope field) →
    resolveStepAgentFromStep catalog context (step.resolvable context.templateScope) stepToolchains = .ok config ∧
    ∀ text ∈ config.profileTexts, ¬ShowsUnresolved context.templateScope text

/-! ## When it falls back -/

def settled (field : Option Json) : Option Json :=
  (field.filter fun field => ¬Unresolvable scope field).bind fun field =>
    (interpolateValue scope [] field).toOption.map (·.value)

def settledName : Option Text := jsonText (settled context.templateScope (step.harnessProfile.map .string))

def settledBundle : Option InlineProfileBundle :=
  (settled context.templateScope (step.harnessProfileOverride.map .object)).bind toInlineProfileBundle

/-- The step names an agent that the project has not. -/
def UnknownAgent : Prop :=
  declaredAgent catalog context step = none ∧ (truthy (step.agent.bind (·.name))).isSome

def RunsHarness : Prop :=
  (declaredAgent catalog context step).isSome ∨ (settledBundle context step).isSome ∨
    (truthy step.harness).isSome ∨ step.harnessOptions.isSome

/-- What the step is left with: its own options, the fields that have a value, the default of its
agent, and the options that the profile it runs with is looked up to have. -/
def remainingTexts : List Text :=
  let agent := declaredAgent catalog context step
  let agentDefault := agent.bind (·.harnessProfile)
  let resolved := resolveHarnessProfile (catalog.profiles context.project.id)
    { workflowTemplate := settledBundle context step, stringRef := settledName context step, agentDefault }
  (if agent.isSome then (resolved.profileName <|> agentDefault).map String.toList
    else settledName context step).toList ++
    (settledBundle context step).elim [] (·.texts) ++ optionTexts (step.harnessOptions <|> resolved.harnessOptions)

/-- The override is no bundle: a reference is missing, or the harness comes out blank. -/
def NoBundle (fields : List (Text × Json)) : Prop :=
  Misses scope (.object fields) ∨
    ∀ result, interpolateValue scope [] (.object fields) = .ok result → bundleText result.value "harness" = none

/-- What the code notices: no bundle is made of an override without a value, the name of such a
profile is not used, and what is left shows no reference. -/
structure Noticed : Prop where
  override : ∀ fields, step.harnessProfileOverride = some fields →
    Unresolvable context.templateScope (.object fields) → NoBundle context.templateScope fields
  profile : RunsHarness catalog context step → ∀ profile, step.harnessProfile = some profile →
    Unresolvable context.templateScope (.string profile) → Misses context.templateScope (.string profile) ∨
      ((declaredAgent catalog context step).isSome ∧ (settledBundle context step).isSome)
  texts : RunsHarness catalog context step → ∀ text ∈ remainingTexts catalog context step,
    ¬ShowsUnresolved context.templateScope text

variable {catalog context step stepToolchains} {scope : EvaluateScope} {field : Json}

theorem missing_eq_nil_iff {result : Interpolated Json} (walked : interpolateValue scope [] field = .ok result) :
    result.missing = [] ↔ ¬Misses scope field := by
  unfold Misses
  rw [← map_eq_nil_iff (f := Prod.snd), (interpolateValue_walk walked).missing]
  simp only [filter_eq_nil_iff, mem_flatMap, forall_exists_index, and_imp, not_exists, not_and]
  exact ⟨fun found leaf member reference => found reference leaf member,
    fun found reference leaf member => found leaf member reference⟩

theorem Misses.unresolvable (misses : Misses scope field) : Unresolvable scope field := by
  obtain ⟨leaf, member, reference, listed, missing⟩ := misses
  exact ⟨leaf, member, reference, listed, .inl missing⟩

variable {resolved : Option Json}

theorem resolveProfile_some (held : resolveProfile scope (some field) = .ok resolved) :
    ∃ result, interpolateValue scope [] field = .ok result ∧
      (Misses scope field → resolved = none) ∧ (¬Misses scope field → resolved = some result.value) := by
  obtain ⟨result, walked, ⟨⟩⟩ := bind_eq_ok.mp held
  cases ran : interpolateValue scope [] field with
  | error message =>
    rw [ran] at walked
    cases walked
  | ok found =>
    rw [ran] at walked
    cases walked
    have missing := missing_eq_nil_iff ran
    exact ⟨_, rfl, fun misses => if_neg fun none => missing.mp none misses, fun found => if_pos (missing.mpr found)⟩

/-- Without the field where it has no value, with its value elsewhere. -/
theorem resolveProfile_settled {field : Option Json} (held : resolveProfile scope field = .ok resolved) :
    resolveProfile scope (field.filter fun field => ¬Unresolvable scope field) = .ok (settled scope field) ∧
      ((∀ value, field = some value → ¬Unresolvable scope value) → resolved = settled scope field) := by
  cases field with
  | none =>
    cases held
    exact ⟨rfl, fun _ => rfl⟩
  | some value =>
    obtain ⟨result, walked, -, found⟩ := resolveProfile_some held
    by_cases unresolvable : Unresolvable scope value
    · have dropped : (some value).filter (fun field => ¬Unresolvable scope field) = none := by
        simp [Option.filter, unresolvable]
      rw [settled, dropped]
      exact ⟨rfl, fun resolvable => absurd unresolvable (resolvable value rfl)⟩
    · have kept : (some value).filter (fun field => ¬Unresolvable scope field) = some value := by
        simp [Option.filter, unresolvable]
      have same := found (mt Misses.unresolvable unresolvable)
      rw [settled, kept, held, same, Option.bind_some, walked]
      exact ⟨rfl, fun _ => rfl⟩

variable {text : Text}

theorem evaluateTemplate_failed {result : EvaluateResult} (evaluated : evaluateTemplate text scope = .ok result)
    (failed : result.nonScalar ≠ []) : result.value = none := by
  obtain ⟨parts, -, evaluated⟩ := bind_eq_ok.mp evaluated
  split at evaluated
  · cases evaluated
    exact absurd rfl failed
  · split at evaluated
    next out found folded =>
    split at evaluated
    · cases evaluated
      rfl
    · next complete =>
      cases evaluated
      exact absurd (.inr failed) complete

theorem looksTemplated_of_reference {reference : TemplateReference} (listed : reference ∈ templateReferences text) :
    looksTemplated text = true := by
  by_contra plain
  rw [templateReferences_untemplated (Bool.eq_false_iff.mpr plain)] at listed
  cases listed

variable {profile : Text}

/-- A profile with an object or array in place of a text is its own name. -/
theorem name_unresolvable (held : resolveProfile scope (some (.string profile)) = .ok resolved)
    (unresolvable : Unresolvable scope (.string profile)) (found : ¬Misses scope (.string profile)) :
    jsonText resolved = some profile ∧ profile ≠ [] := by
  obtain ⟨result, walked, -, kept⟩ := resolveProfile_some held
  obtain ⟨leaf, member, reference, listed, failed⟩ := unresolvable
  obtain rfl := mem_singleton.mp member
  have present : isMissing scope reference = false :=
    Bool.eq_false_iff.mpr fun missing => found ⟨leaf, member, reference, listed, missing⟩
  have nonScalar : scalarOf scope reference = none := failed.resolve_left (Bool.eq_false_iff.mp present)
  have templated := looksTemplated_of_reference listed
  rw [interpolateValue, bind_eq_ok] at walked
  obtain ⟨inner, walked, ⟨⟩⟩ := walked
  rw [interpolateText, if_pos templated, bind_eq_ok] at walked
  obtain ⟨evaluated, ran, ⟨⟩⟩ := walked
  have reported : evaluated.nonScalar ≠ [] := by
    obtain ⟨parts, parsed, -, reports, -⟩ := evaluateTemplate_ok ran
    rw [templateReferences, parsed] at listed
    rw [reports]
    exact ne_nil_of_mem (mem_filter.mpr ⟨listed, by simp [present, nonScalar]⟩)
  rw [kept found, evaluateTemplate_failed ran reported]
  refine ⟨rfl, ?_⟩
  rintro rfl
  cases templated

theorem settled_unresolvable {value : Json} (unresolvable : Unresolvable scope value) :
    settled scope (some value) = none := by
  simp [settled, Option.filter, unresolvable]

theorem bundle_unresolvable {fields : List (Text × Json)}
    (held : resolveProfile scope (some (.object fields)) = .ok resolved) :
    resolved.bind toInlineProfileBundle = none ↔ NoBundle scope fields := by
  obtain ⟨result, walked, missed, found⟩ := resolveProfile_some held
  unfold NoBundle
  by_cases misses : Misses scope (.object fields)
  · simp [missed misses, misses]
  · rw [found misses, or_iff_right misses, Option.bind_some, toInlineProfileBundle, Option.map_eq_none_iff]
    exact ⟨fun blank _ same => Except.ok.inj (walked.symm.trans same) ▸ blank, fun blank => blank _ walked⟩

/-! ## The configuration of the agent -/

theorem resolveHarnessProfile_source (deps : ResolverDeps) (nonempty : profile ≠ []) (agentDefault : Option String) :
    (resolveHarnessProfile deps { stringRef := some profile, agentDefault }).source = "string_ref" ∧
      (resolveHarnessProfile deps { agentDefault }).source = "agent_default" := by
  have named : (some profile).filter (· ≠ []) = some profile := by simp [Option.filter, nonempty]
  unfold resolveHarnessProfile
  rw [named]
  cases truthy agentDefault <;> exact ⟨rfl, rfl⟩

section

variable {agentToolchains : Option (List String)} {name : Option Text} {bundle : Option InlineProfileBundle}

theorem stepAgentConfig_override (known : ¬UnknownAgent catalog context step) :
    (stepAgentConfig catalog context step stepToolchains agentToolchains name bundle).harnessProfileOverride =
      bundle := by
  unfold stepAgentConfig
  split
  · rfl
  · next undeclared =>
    split
    · rfl
    · next idle =>
      have unnamed : (truthy (step.agent.bind (·.name))).isNone := by
        by_contra named
        exact known ⟨undeclared, Option.isSome_iff_ne_none.mpr (mt Option.isNone_iff_eq_none.mpr named)⟩
      cases bundle with
      | none => rfl
      | some bundle => exact absurd ⟨unnamed, .inl rfl⟩ idle

/-- A name makes no difference where no harness runs, and beside the bundle of an agent. -/
theorem stepAgentConfig_name {profile : Text} (nonempty : profile ≠ []) (known : ¬UnknownAgent catalog context step) :
    stepAgentConfig catalog context step stepToolchains agentToolchains (some profile) bundle =
        stepAgentConfig catalog context step stepToolchains agentToolchains none bundle ↔
      ((declaredAgent catalog context step).isSome ∨ bundle.isSome ∨ (truthy step.harness).isSome ∨
          step.harnessOptions.isSome → (declaredAgent catalog context step).isSome ∧ bundle.isSome) := by
  unfold stepAgentConfig
  cases declared : declaredAgent catalog context step with
  | some agent =>
    cases bundle with
    | some bundle => simp [resolveHarnessProfile]
    | none =>
      refine iff_of_false (fun same => ?_) (by simp)
      obtain ⟨named, unnamed⟩ :=
        resolveHarnessProfile_source (catalog.profiles context.project.id) nonempty agent.harnessProfile
      have source := Option.some.inj (congrArg StepAgentConfig.harnessProfileSource same)
      rw [named, unnamed] at source
      exact absurd source (by decide)
  | none =>
    have unnamed : (truthy (step.agent.bind (·.name))).isNone := by
      by_contra named
      exact known ⟨declared, Option.isSome_iff_ne_none.mpr (mt Option.isNone_iff_eq_none.mpr named)⟩
    by_cases runs : bundle.isSome ∨ (truthy step.harness).isSome ∨ step.harnessOptions.isSome
    · refine iff_of_false (fun same => ?_) (by simp [runs])
      simp only [unnamed, runs, and_self, if_true] at same
      cases congrArg StepAgentConfig.harnessProfile same
    · simp [unnamed, runs]

theorem profileTexts_remaining (known : ¬UnknownAgent catalog context step) (runs : RunsHarness catalog context step) :
    (stepAgentConfig catalog context step stepToolchains agentToolchains (settledName context step)
      (settledBundle context step)).profileTexts = remainingTexts catalog context step := by
  unfold stepAgentConfig remainingTexts
  cases declared : declaredAgent catalog context step with
  | some agent => rfl
  | none =>
    have unnamed : (truthy (step.agent.bind (·.name))).isNone := by
      by_contra named
      exact known ⟨declared, Option.isSome_iff_ne_none.mpr (mt Option.isNone_iff_eq_none.mpr named)⟩
    rw [RunsHarness, declared] at runs
    simp only [unnamed, runs.resolve_left (by simp), and_self, if_true]
    simp [StepAgentConfig.profileTexts, Function.comp_def]

theorem profileTexts_idle (idle : UnknownAgent catalog context step ∨ ¬RunsHarness catalog context step) :
    (stepAgentConfig catalog context step stepToolchains agentToolchains (settledName context step)
      (settledBundle context step)).profileTexts = [] := by
  have undeclared : declaredAgent catalog context step = none := by
    rcases idle with unknown | idle
    · exact unknown.1
    · exact Option.not_isSome_iff_eq_none.mp fun declared => idle (.inl declared)
  have stays : ¬((truthy (step.agent.bind (·.name))).isNone ∧ ((settledBundle context step).isSome ∨
      (truthy step.harness).isSome ∨ step.harnessOptions.isSome)) := by
    rintro ⟨unnamed, runs⟩
    rcases idle with ⟨-, named⟩ | idle
    · simp_all
    · exact idle (.inr runs)
  unfold stepAgentConfig
  rw [undeclared]
  simp only [stays, if_false]
  rfl

end

theorem stepAgentConfig_unknown {agentToolchains : Option (List String)} {name : Option Text}
    {bundle : Option InlineProfileBundle} (unknown : UnknownAgent catalog context step) :
    stepAgentConfig catalog context step stepToolchains agentToolchains name bundle =
      { toolchains := resolveStepToolchains context.workflowToolchains stepToolchains } := by
  obtain ⟨undeclared, named⟩ := unknown
  have stays : (truthy (step.agent.bind (·.name))).isNone = false := by simpa using named
  unfold stepAgentConfig
  rw [undeclared]
  simp [stays]

/-- Without its unresolvable fields a step is resolved from what is settled. -/
theorem resolve_resolvable {config : StepAgentConfig}
    (resolved : resolveStepAgentFromStep catalog context step stepToolchains = .ok config) :
    ∃ profileRef profileOverride agentToolchains,
      resolveProfile context.templateScope (step.harnessProfile.map .string) = .ok profileRef ∧
      resolveProfile context.templateScope (step.harnessProfileOverride.map .object) = .ok profileOverride ∧
      config = stepAgentConfig catalog context step stepToolchains agentToolchains (jsonText profileRef)
        (profileOverride.bind toInlineProfileBundle) ∧
      resolveStepAgentFromStep catalog context (step.resolvable context.templateScope) stepToolchains =
        .ok (stepAgentConfig catalog context step stepToolchains agentToolchains (settledName context step)
          (settledBundle context step)) := by
  obtain ⟨profileRef, ref, resolved⟩ := bind_eq_ok.mp resolved
  obtain ⟨profileOverride, overriding, resolved⟩ := bind_eq_ok.mp resolved
  obtain ⟨agentToolchains, declared, resolved⟩ := bind_eq_ok.mp resolved
  cases resolved
  refine ⟨profileRef, profileOverride, agentToolchains, ref, overriding, rfl, ?_⟩
  have ref_settled := (resolveProfile_settled ref).1
  have override_settled := (resolveProfile_settled overriding).1
  rw [Option.filter_map] at ref_settled override_settled
  exact bind_eq_ok.mpr ⟨_, ref_settled, bind_eq_ok.mpr ⟨_, override_settled, bind_eq_ok.mpr ⟨_, declared, rfl⟩⟩⟩

/-- Only a profile with an object or array in it is read as something else than what is settled. -/
theorem name_settled {profileRef : Option Json}
    (ref : resolveProfile context.templateScope (step.harnessProfile.map .string) = .ok profileRef) :
    (jsonText profileRef = settledName context step ∧ ∀ profile, step.harnessProfile = some profile →
      Unresolvable context.templateScope (.string profile) → Misses context.templateScope (.string profile)) ∨
    ∃ profile, step.harnessProfile = some profile ∧ profile ≠ [] ∧
      Unresolvable context.templateScope (.string profile) ∧ ¬Misses context.templateScope (.string profile) ∧
      jsonText profileRef = some profile ∧ settledName context step = none := by
  unfold settledName
  cases declared : step.harnessProfile with
  | none =>
    rw [declared] at ref
    cases ref
    exact .inl ⟨rfl, by rintro _ ⟨⟩⟩
  | some profile =>
    rw [declared] at ref
    by_cases unresolvable : Unresolvable context.templateScope (.string profile)
    · rw [Option.map_some, settled_unresolvable unresolvable]
      by_cases misses : Misses context.templateScope (.string profile)
      · obtain ⟨_, _, missed, _⟩ := resolveProfile_some ref
        rw [missed misses]
        exact .inl ⟨rfl, fun _ same _ => Option.some.inj same ▸ misses⟩
      · obtain ⟨named, nonempty⟩ := name_unresolvable ref unresolvable misses
        exact .inr ⟨profile, rfl, nonempty, unresolvable, misses, named, rfl⟩
    · rw [(resolveProfile_settled ref).2 fun value same => Option.some.inj same ▸ unresolvable]
      exact .inl ⟨rfl, fun _ same held => absurd held (Option.some.inj same ▸ unresolvable)⟩

theorem bundle_settled_iff {profileOverride : Option Json}
    (overriding : resolveProfile context.templateScope (step.harnessProfileOverride.map .object) =
      .ok profileOverride) :
    profileOverride.bind toInlineProfileBundle = settledBundle context step ↔
      ∀ fields, step.harnessProfileOverride = some fields →
        Unresolvable context.templateScope (.object fields) → NoBundle context.templateScope fields := by
  unfold settledBundle
  cases declared : step.harnessProfileOverride with
  | none =>
    rw [declared] at overriding
    cases overriding
    exact iff_of_true rfl (by rintro _ ⟨⟩)
  | some fields =>
    rw [declared] at overriding
    by_cases unresolvable : Unresolvable context.templateScope (.object fields)
    · rw [Option.map_some, settled_unresolvable unresolvable, Option.bind_none, bundle_unresolvable overriding]
      exact ⟨fun dropped _ same _ => Option.some.inj same ▸ dropped, fun dropped => dropped fields rfl unresolvable⟩
    · rw [(resolveProfile_settled overriding).2 fun value same => Option.some.inj same ▸ unresolvable]
      exact iff_of_true rfl fun _ same held => absurd held (Option.some.inj same ▸ unresolvable)

def modelText : Text := ['$', '\x7b'] ++ "inputs.model".toList ++ ['\x7d']

def objectContext : Invocation where
  project := { id := "proj_1", slug := "shop", orgId := "org_1" }
  workflowName := "review"
  userId := none
  steps := []
  hints := {}
  git := none
  resourceRefs := []
  resourceRefsPolicy := none
  workflowEnvOverrides := none
  invocationEnvOverrides := none
  workflowTokenScope := none
  invocationTokenScope := none
  workflowTokenPermissions := none
  invocationTokenPermissions := none
  workflowToolchains := none
  templateScope := { inputs := [("model".toList, .json (.object []))] }

def agentCatalog : Catalog :=
  { templatedCatalog with agents := fun _ => [{ id := "coder", harnessProfile := some "fast" }] }

def missingStep : WorkflowStep where
  agent := some { name := some "coder" }
  harnessProfile := some modelText
  harnessOptions := some [("model".toList, .string "opus".toList)]

def emptyContext : Invocation := { objectContext with templateScope := {} }

end EveHorizon.Workflows
