import EveHorizon.Library.Decimal
import EveHorizon.Workflows.Settings

/-!
# Harness profiles

A job runs with the profile that its workflow step gives in full, else with the one that the
step names, else with that of its agent. A name is looked up in the agent configuration of the
project or, where that has no profiles, in its manifest.
-/

namespace EveHorizon.Workflows

open Json (Member)
open Pipelines (truthy)

abbrev JobHarnessOptions := List (Text × Json)

structure InlineProfileBundle where
  harness : Text
  model : Option Text := none
  variant : Option Text := none
  reasoningEffort : Option Text := none
  -- A numeral of the number, not always the one it is printed as.
  temperature : Option Text := none

def textMember (value : Member) (name : String) : Option Text :=
  match value.get name.toList with
  | .json (.string text) => some text
  | _ => none

def numberMember (value : Member) (name : String) : Option Text :=
  match value.get name.toList with
  | .json (.number numeral) => some numeral
  | _ => none

def bundleText (value : Json) (name : String) : Option Text :=
  ((textMember (.json value) name).map Text.trim).filter (· ≠ [])

/-- `Number.isFinite` of the nearest double. -/
def isFinite (number : ℚ) : Bool := |number| < 2 ^ 1024 - 2 ^ 970

def bundleTemperature (value : Json) : Option Text :=
  numberMember (.json value) "temperature" <|>
    (bundleText value "temperature").filter fun text => (Decimal.literal text).any isFinite

def reasoningEfforts : List Text := ["low", "medium", "high", "x-high"].map String.toList

def toInlineProfileBundle (value : Json) : Option InlineProfileBundle :=
  (bundleText value "harness").map fun harness =>
    { harness := harness
      model := bundleText value "model"
      variant := bundleText value "variant"
      reasoningEffort := (bundleText value "reasoning_effort").filter (reasoningEfforts.contains ·)
      temperature := bundleTemperature value }

structure ResolvedProfile where
  harness : Option String := none
  harnessOptions : Option JobHarnessOptions := none
  profileName : Option String := none
  profileHash : Option String := none
  source : String := "agent_default"

structure ResolverParams where
  workflowTemplate : Option InlineProfileBundle := none
  stringRef : Option Text := none
  agentDefault : Option String := none

structure ResolverDeps where
  -- `x_eve_yaml` of the latest agent configuration; undefined where it is missing or no YAML.
  agentConfig : Member := .undefined
  manifest : Member := .undefined
  -- The first sixteen digits of the SHA-256 of the bundle, its fields sorted, and of the name.
  digest : Option InlineProfileBundle → Option Text → String

def harnessOption (name : String) (make : Text → Json) (value : Option Text) : JobHarnessOptions :=
  (value.map fun text => (name.toList, make text)).toList

def nonEmptyOptions (options : JobHarnessOptions) : Option JobHarnessOptions :=
  if options = [] then none else some options

def readProfilesFromXEve (agentConfig : Member) : Member :=
  (agentConfig.get "agents".toList).get "profiles".toList

def readProfilesFromManifest (manifest : Member) : Member :=
  let xEve := (manifest.get "x_eve".toList).orElse (manifest.get "x-eve".toList)
  (xEve.get "agents".toList).get "profiles".toList

def projectProfileTarget (target : Member) : ResolvedProfile where
  harness := (textMember target "harness").map String.ofList
  harnessOptions := nonEmptyOptions
    (harnessOption "model" .string (textMember target "model") ++
      harnessOption "reasoning_effort" .string (textMember target "reasoning_effort") ++
      harnessOption "temperature" .number (numberMember target "temperature") ++
      harnessOption "variant" .string (textMember target "variant"))

def firstTarget : Member → Member
  | .json (.array (target :: _)) => .json target
  | _ => .undefined

section

variable (deps : ResolverDeps)

def lookupProfile (profileName : Text) : ResolvedProfile :=
  let declared := readProfilesFromXEve deps.agentConfig
  let profiles := if declared.isTruthy then declared else readProfilesFromManifest deps.manifest
  let target := firstTarget (profiles.get profileName)
  if profiles.isTruthy && target.isTruthy then projectProfileTarget target else {}

def hashProfile (bundle : Option InlineProfileBundle) (profileName : Option Text) : Option String :=
  if bundle.isNone ∧ profileName.all (· = []) then none else some (deps.digest bundle profileName)

def namedProfile (profileName : Text) (source : String) : ResolvedProfile :=
  { lookupProfile deps profileName with
    profileName := some (String.ofList profileName)
    profileHash := hashProfile deps none (some profileName)
    source }

def bundledProfile (bundle : InlineProfileBundle) : ResolvedProfile where
  harness := some (String.ofList bundle.harness)
  harnessOptions := nonEmptyOptions
    (harnessOption "model" .string (bundle.model.filter (· ≠ [])) ++
      harnessOption "reasoning_effort" .string (bundle.reasoningEffort.filter (· ≠ [])) ++
      harnessOption "variant" .string (bundle.variant.filter (· ≠ [])) ++
      harnessOption "temperature" .number bundle.temperature)
  profileHash := hashProfile deps (some bundle) none
  source := "workflow_template"

def resolveHarnessProfile (params : ResolverParams) : ResolvedProfile :=
  match params.workflowTemplate, params.stringRef.filter (· ≠ []), truthy params.agentDefault with
  | some bundle, _, _ => bundledProfile deps bundle
  | none, some profileName, _ => namedProfile deps profileName "string_ref"
  | none, none, some agentDefault => namedProfile deps agentDefault.toList "agent_default"
  | none, none, none => {}

end

end EveHorizon.Workflows
