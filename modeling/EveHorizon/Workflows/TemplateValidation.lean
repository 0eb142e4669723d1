import EveHorizon.Workflows.Expansion

/-!
# Validation of templates at sync time

The templates that are checked when a manifest is synced, against those that are interpolated
when a workflow is invoked.
-/

namespace EveHorizon.Workflows

open List
open Templates (EvaluateScope Interpolated TemplateReference interpolateItems interpolateMembers
  interpolateText interpolateValue looksTemplated parseTemplate references)

variable (declaredInputs : List Text)

def undeclaredInput (reference : TemplateReference) : Option Text :=
  match reference.head with
  | .eventPayload => none
  | .inputs =>
    let key := reference.path.head?.getD []
    if declaredInputs.contains key then none
    else some ("Template references undeclared input ".toList ++
      Templates.quoted ("inputs.".toList ++ key) ++ ". Declare it in workflow.inputs.".toList)

def validateTemplate (input : Text) : List Text :=
  if looksTemplated input then
    match parseTemplate input with
    | .error message => [message]
    | .ok parts => (references parts).filterMap (undeclaredInput declaredInputs)
  else []

structure WorkflowValidationError where
  workflow : String
  stepName : Option String
  field : String
  message : Text

def templateFields : List String := ["harness_profile"]

def overrideTemplateFields : List String := ["harness", "model", "reasoning_effort", "variant", "temperature"]

def gitTemplateFields : List String := ["ref", "branch", "commit_message", "remote"]

variable (workflow : String)

def validateFields (stepName : Option String) (path : String) (fields : List String) (value : Text → Option Text) :
    List WorkflowValidationError :=
  fields.flatMap fun field =>
    ((value field.toList).elim [] (validateTemplate declaredInputs)).map fun message =>
      { workflow, stepName, field := path ++ field, message }

def validateGitTemplates (stepName : Option String) (git : Option GitConfig) : List WorkflowValidationError :=
  validateFields declaredInputs workflow stepName "git." gitTemplateFields fun field =>
    git.bind (·.lookup field)

def validateStepTemplates (entry : String × WorkflowStep) : List WorkflowValidationError :=
  validateFields declaredInputs workflow (some entry.1) "" templateFields
      (fun _ => entry.2.harnessProfile) ++
    validateFields declaredInputs workflow (some entry.1) "harness_profile_override."
      overrideTemplateFields
      (fun field => jsonText (entry.2.harnessProfileOverride.bind (·.lookup field))) ++
    validateGitTemplates declaredInputs workflow (some entry.1) entry.2.git

def validateWorkflowTemplates (workflows : List (String × WorkflowDefinition)) : List WorkflowValidationError :=
  workflows.flatMap fun (workflowName, definition) =>
    let declaredInputs := definition.inputs.map Prod.fst
    validateGitTemplates declaredInputs workflowName none definition.git ++
      (namedSteps (definition.steps.getD [])).flatMap
        (validateStepTemplates declaredInputs workflowName)

section

variable (templateScope : EvaluateScope) {declaredInputs : List Text}

def Parses (text : Text) : Prop := looksTemplated text = true → ∃ parts, parseTemplate text = .ok parts

variable {text : Text}

theorem interpolateText_parses (path : Text) (parses : Parses text) :
    ∃ result, interpolateText templateScope path text = .ok result := by
  unfold interpolateText
  by_cases templated : looksTemplated text = true
  · obtain ⟨parts, read⟩ := parses templated
    rw [if_pos templated, Templates.evaluateTemplate, read]
    by_cases plain : references parts = []
    · exact ⟨_, by simp only [bind, Except.bind, if_pos plain]; rfl⟩
    · simp only [bind, Except.bind, if_neg plain]
      split
      · next failed =>
          split at failed
          · cases failed
          · cases failed
      · exact ⟨_, rfl⟩
  · exact ⟨_, if_neg templated⟩

mutual

def leaves : Json → List Text
  | .string text => [text]
  | .array items => itemLeaves items
  | .object members => memberLeaves members
  | .null | .bool _ | .number _ => []

def itemLeaves : List Json → List Text
  | [] => []
  | item :: rest => leaves item ++ itemLeaves rest

def memberLeaves : List (Text × Json) → List Text
  | [] => []
  | (_, value) :: rest => leaves value ++ memberLeaves rest

end

theorem mem_memberLeaves {members : List (Text × Json)} :
    text ∈ memberLeaves members ↔ ∃ field ∈ members, text ∈ leaves field.2 := by
  induction members with
  | nil => simp [memberLeaves]
  | cons field rest ih => simp [memberLeaves, ih]

mutual

theorem interpolateValue_parses (path : Text) {value : Json} (parse : ∀ text ∈ leaves value, Parses text) :
    ∃ result, interpolateValue templateScope path value = .ok result := by
  cases value with
  | null | bool value | number numeral => exact ⟨_, by rw [interpolateValue]⟩
  | string text =>
    obtain ⟨result, read⟩ := interpolateText_parses templateScope path (parse text (by simp [leaves]))
    exact ⟨_, by rw [interpolateValue, read]; rfl⟩
  | array items =>
    rw [leaves] at parse
    obtain ⟨result, read⟩ := interpolateItems_parse path 0 parse
    exact ⟨_, by rw [interpolateValue, read]; rfl⟩
  | object members =>
    rw [leaves] at parse
    obtain ⟨result, read⟩ := interpolateMembers_parse path parse
    exact ⟨_, by rw [interpolateValue, read]; rfl⟩

theorem interpolateItems_parse (path : Text) (index : Nat) {items : List Json}
    (parse : ∀ text ∈ itemLeaves items, Parses text) :
    ∃ result, interpolateItems templateScope path index items = .ok result := by
  cases items with
  | nil => exact ⟨_, by rw [interpolateItems]⟩
  | cons item rest =>
    rw [itemLeaves, forall_mem_append] at parse
    obtain ⟨first, first_read⟩ := interpolateValue_parses (Templates.itemPath path index) parse.1
    obtain ⟨later, later_read⟩ := interpolateItems_parse path (index + 1) parse.2
    exact ⟨_, by rw [interpolateItems, first_read, later_read]; rfl⟩

theorem interpolateMembers_parse (path : Text) {members : List (Text × Json)}
    (parse : ∀ text ∈ memberLeaves members, Parses text) :
    ∃ result, interpolateMembers templateScope path members = .ok result := by
  cases members with
  | nil => exact ⟨_, by rw [interpolateMembers]⟩
  | cons field rest =>
    rw [memberLeaves, forall_mem_append] at parse
    obtain ⟨first, first_read⟩ := interpolateValue_parses (Templates.memberPath path field.1) parse.1
    obtain ⟨later, later_read⟩ := interpolateMembers_parse path parse.2
    exact ⟨_, by rw [interpolateMembers, first_read, later_read]; rfl⟩

end

theorem validateTemplate_parses (valid : validateTemplate declaredInputs text = []) : Parses text := by
  intro templated
  rw [validateTemplate, if_pos templated] at valid
  cases read : parseTemplate text with
  | error message =>
    rw [read] at valid
    cases valid
  | ok parts => exact ⟨parts, rfl⟩

theorem validateFields_parse {workflow : String} {stepName : Option String} {path field : String} {fields : List String}
    {value : Text → Option Text} (valid : validateFields declaredInputs workflow stepName path fields value = [])
    (listed : field ∈ fields) (holds : value field.toList = some text) : Parses text := by
  have none_found := map_eq_nil_iff.mp (flatMap_eq_nil_iff.mp valid field listed)
  rw [holds] at none_found
  exact validateTemplate_parses none_found

end

section

variable {declaredInputs : List Text} {workflow : String} {stepName : Option String} {value name : Text}

theorem gitChoices_plain (chosen : value ∈ (gitChoices.lookup name).getD []) : Parses value := by
  have plain : ∀ entry ∈ gitChoices, ∀ value ∈ entry.2, looksTemplated value = false := by decide
  intro templated
  cases listed : gitChoices.lookup name with
  | none => simp [listed] at chosen
  | some values =>
    rw [listed, Option.getD_some] at chosen
    have untemplated := plain (name, values) (Table.mem_of_lookup listed) value chosen
    rw [templated] at untemplated
    cases untemplated

theorem git_parses {git : Option GitConfig} (accepted : git.all acceptsGit = true)
    (valid : validateGitTemplates declaredInputs workflow stepName git = []) (member : (name, value) ∈ git.getD []) :
    Parses value := by
  cases git with
  | none => cases member
  | some fields =>
    rw [Option.all_some, acceptsGit, Bool.and_eq_true, decide_eq_true_iff, all_eq_true] at accepted
    have admitted := accepted.2 _ member
    rw [acceptsGitField, Bool.or_eq_true] at admitted
    rcases admitted with named | chosen
    · obtain ⟨name, listed, same⟩ := mem_map.mp (contains_iff_mem.mp named)
      exact validateFields_parse valid listed (same ▸ Table.lookup_of_mem accepted.1 member)
    · exact gitChoices_plain (contains_iff_mem.mp chosen)

theorem override_parses {fields : List (Text × Json)} (accepted : acceptsProfileOverride fields = true)
    (valid : validateFields declaredInputs workflow stepName "harness_profile_override."
      overrideTemplateFields (fun field => jsonText (fields.lookup field)) = []) :
    ∀ text ∈ leaves (.object fields), Parses text := by
  intro text leaf
  rw [leaves, mem_memberLeaves] at leaf
  obtain ⟨⟨name, value⟩, member, leaf⟩ := leaf
  rw [acceptsProfileOverride, Bool.and_eq_true, Bool.and_eq_true, decide_eq_true_iff, all_eq_true] at accepted
  have admitted := accepted.2 _ member
  cases value with
  | string held =>
    have same : text = held := by simpa [leaves] using leaf
    have named : name ∈ overrideTemplateFields.map String.toList := by
      simp only [acceptsOverrideField, Bool.or_eq_true, Bool.and_eq_true, beq_iff_eq, contains_iff_mem] at admitted
      rcases admitted with listed | ⟨rfl, _⟩
      · exact mem_cons_of_mem _ listed
      · exact mem_cons_self
    obtain ⟨field, listed, rfl⟩ := mem_map.mp named
    refine validateFields_parse valid listed ?_
    rw [Table.lookup_of_mem accepted.1.2 member, same]
    rfl
  | number numeral => simp [leaves] at leaf
  | null | bool value | array items | object members => cases admitted

end

structure Interpolates (context : Invocation) (step : WorkflowStep) : Prop where
  profile : ∀ profile, step.harnessProfile = some profile → ∃ result,
    interpolateValue context.templateScope [] (.string profile) = .ok result
  profileOverride : ∀ fields, step.harnessProfileOverride = some fields → ∃ result,
    interpolateValue context.templateScope [] (.object fields) = .ok result
  git : ∃ result, interpolateGit context.git step.git context.templateScope = .ok result

theorem mem_spread {α : Type} {base overriding : List (Text × α)} {field : Text × α}
    (member : field ∈ spread base overriding) :
    (∃ name, (name, field.2) ∈ base) ∨ ∃ name, (name, field.2) ∈ overriding := by
  rcases mem_append.mp member with kept | added
  · obtain ⟨entry, listed, rfl⟩ := mem_map.mp kept
    cases found : overriding.lookup entry.1 with
    | none => exact .inl ⟨entry.1, listed⟩
    | some value =>
      exact .inr ⟨entry.1, Table.mem_of_lookup found⟩
  · exact .inr ⟨field.1, mem_of_mem_filter added⟩

theorem interpolateProfile_ok {templateScope : EvaluateScope} {value : Json}
    (interpolated : ∃ result, interpolateValue templateScope [] value = .ok result) :
    ∃ resolved, interpolateProfile templateScope value = .ok resolved := by
  obtain ⟨result, interpolated⟩ := interpolated
  rw [interpolateProfile, interpolated]
  exact ⟨_, rfl⟩

variable {context : Invocation} {step : WorkflowStep}

theorem Interpolates.profilesParse (interpolates : Interpolates context step) : ProfilesParse context step := by
  constructor
  · cases declared : step.harnessProfile with
    | none => exact ⟨none, rfl⟩
    | some profile => exact interpolateProfile_ok (interpolates.profile profile declared)
  · cases declared : step.harnessProfileOverride with
    | none => exact ⟨none, rfl⟩
    | some fields => exact interpolateProfile_ok (interpolates.profileOverride fields declared)

variable {failure : Failure} {catalog : Catalog} {entry : StepEntry}

theorem planAgent_rejects (parse : ProfilesParse context entry.1.2)
    (failed : planAgent catalog context entry = .error failure) : failure.rejects = true := by
  rw [planAgent, Checks.bind_eq_error] at failed
  rcases failed with refused | ⟨_, _, failed⟩
  · obtain ⟨message, _, rfl⟩ := rejecting_eq_error.mp refused
    rfl
  · split at failed
    · obtain ⟨⟨ref, ref_parses⟩, overriding, override_parses⟩ := parse
      simp only [resolveStepAgentFromStep, ref_parses, override_parses, Checks.bind_eq_error] at failed
      rcases failed with malformed | ⟨_, _, malformed | ⟨_, _, refused | ⟨_, _, same⟩⟩⟩
      · cases malformed
      · cases malformed
      · exact resolveDeclaredToolchains_error refused
      · cases same
    · cases failed

variable {workflowName : String}

theorem resolveStepGit_rejects {name : String} (interpolates : Interpolates context step)
    (failed : resolveStepGit context.git step.git context.templateScope workflowName name = .error failure) :
    failure.rejects = true := by
  obtain ⟨result, interpolated⟩ := interpolates.git
  rw [resolveStepGit, interpolated] at failed
  split at failed
  · cases failed
  · dsimp only at failed
    split at failed
    · cases failed
    · cases failed
      rfl

theorem planStep_rejects (interpolates : Interpolates context entry.1.2)
    (failed : planStep catalog context entry = .error failure) : failure.rejects = true := by
  simp only [planStep, Checks.bind_eq_error] at failed
  rcases failed with refused | ⟨_, _, refused | ⟨_, _, refused | ⟨_, _, same⟩⟩⟩
  · exact planAgent_rejects interpolates.profilesParse refused
  · exact resolveStepGit_rejects interpolates refused
  · obtain ⟨message, _, rfl⟩ := rejecting_eq_error.mp refused
    rfl
  · cases same

theorem validated_step_interpolates {definition : WorkflowDefinition} {entry : String × WorkflowStep}
    (conforms : definition.conforms = true) (valid : validateWorkflowTemplates [(workflowName, definition)] = [])
    (git : context.git = definition.git) (member : entry ∈ namedSteps (definition.steps.getD [])) :
    Interpolates context entry.2 := by
  rw [validateWorkflowTemplates, flatMap_singleton, append_eq_nil_iff] at valid
  obtain ⟨workflowGit, steps⟩ := valid
  have step := flatMap_eq_nil_iff.mp steps entry member
  rw [validateStepTemplates, append_eq_nil_iff, append_eq_nil_iff] at step
  obtain ⟨⟨profile, profileOverride⟩, stepGit⟩ := step
  simp only [WorkflowDefinition.conforms, Bool.and_eq_true] at conforms
  have conforming := all_eq_true.mp conforms.1.1.1.1.1 _ (mem_of_mem_namedSteps member)
  simp only [WorkflowStep.conforms, Bool.and_eq_true] at conforming
  constructor
  · intro text declared
    refine interpolateValue_parses _ [] fun leaf isLeaf => ?_
    rw [leaves, mem_singleton] at isLeaf
    exact isLeaf ▸ validateFields_parse profile (mem_singleton.mpr rfl) declared
  · intro fields declared
    rw [declared] at profileOverride conforming
    exact interpolateValue_parses _ [] (override_parses conforming.1.2 profileOverride)
  · refine interpolateValue_parses _ _ fun leaf isLeaf => ?_
    rw [leaves, mem_memberLeaves] at isLeaf
    obtain ⟨field, listed, isLeaf⟩ := isLeaf
    obtain ⟨merged, merges, rfl⟩ := mem_map.mp listed
    cases mem_singleton.mp isLeaf
    rcases mem_spread merges with ⟨name, fromWorkflow⟩ | ⟨name, fromStep⟩
    · exact git_parses conforms.2 workflowGit (git ▸ fromWorkflow)
    · exact git_parses conforming.2 stepGit fromStep

/-- What the validator lets pass at sync time throws in no invocation. -/
theorem validated_templates_interpolate {catalog : Catalog} {projectId workflowName : String}
    {workflows : List (String × WorkflowDefinition)} {workflow : AcceptedWorkflow}
    {request : WorkflowInvokeRequest} {userId : Option String} {context : Invocation}
    (valid : validateWorkflowTemplates workflows = []) (defined : (workflowName, workflow.val) ∈ workflows)
    (found : findByName catalog projectId workflowName = .ok workflow)
    (prepared : prepare catalog projectId workflowName request userId = .ok context) :
    ∀ entry ∈ context.steps, Interpolates context entry.1.2 ∧
      ∀ failure, planStep catalog context entry = .error failure → failure.rejects = true := by
  intro entry member
  obtain ⟨workflow', found', git, steps, _⟩ := prepare_definition prepared
  cases found.symm.trans found'
  have alone : validateWorkflowTemplates [(workflowName, workflow.val)] = [] := by
    rw [validateWorkflowTemplates, flatMap_singleton]
    exact flatMap_eq_nil_iff.mp valid _ defined
  have interpolates := validated_step_interpolates workflow.property alone git (steps ▸ mem_map_of_mem member)
  exact ⟨interpolates, fun _ => planStep_rejects interpolates⟩

def templated : AcceptedWorkflow where
  val :=
    { inputs := [("profile".toList, {})]
      git := some [("push".toList, "never".toList),
        ("branch".toList, ['$', '\x7b'] ++ "event.payload.ref".toList ++ ['\x7d'])]
      steps := some [{ agent := some { name := some "coder" }
                       harnessProfile := some (['$', '\x7b'] ++ "inputs.profile".toList ++ ['\x7d'])
                       harnessProfileOverride := some [("harness".toList, .string "claude".toList)] }] }
  property := by decide +kernel

def templatedCatalog : Catalog where
  projects := [{ id := "proj_1", slug := "shop", orgId := "org_1" }]
  orgs := ["org_1"]
  workflows _ := some (.ok [("review", .valid templated)])
  appLinks _ := []
  agents _ := []
  agentToolchains _ _ := .absent
  grants := none
  isValidPermission := (· == "jobs:read")
  profiles _ := { digest := fun _ _ => "" }
  resourceRef _ := .error "Required"
  issuesMessage _ := "invalid"

theorem templated_interpolates : ∃ context, prepare templatedCatalog "proj_1" "review" {} none = .ok context ∧
      ∀ entry ∈ context.steps, Interpolates context entry.1.2 ∧
        ∀ failure, planStep templatedCatalog context entry = .error failure → failure.rejects = true := by
  cases prepared : prepare templatedCatalog "proj_1" "review" {} none with
  | error failure =>
    have accepted : (prepare templatedCatalog "proj_1" "review" {} none).isOk = true := by decide +kernel
    rw [prepared] at accepted
    cases accepted
  | ok context =>
    have valid : validateWorkflowTemplates [("review", templated.val)] = [] := by decide +kernel
    exact ⟨context, rfl, validated_templates_interpolate valid mem_cons_self rfl prepared⟩

end EveHorizon.Workflows
