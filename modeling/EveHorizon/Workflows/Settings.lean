import EveHorizon.Access.Permissions
import EveHorizon.Templates.Expr
import EveHorizon.Workflows.StepGraph

/-!
# Settings of steps

What a workflow, its steps and an invocation may declare about the jobs to be created, and
how the declarations are checked and merged: environment, token scope and permissions,
toolchains, resource references and git controls.
-/

namespace EveHorizon.Workflows

open Access (AccessBindingScope)
open Pipelines (RawList Validated)
open Templates (EvaluateScope)

inductive Failure where
  | badRequest (message : String)
  | forbidden (message : String)
  | notFound (message : String)
  | timeout (message : String)
  | error (message : String)
  deriving DecidableEq

def Failure.rejects : Failure → Bool
  | .badRequest _ | .forbidden _ => true
  | _ => false

def rejecting {α : Type} (checked : Except String α) : Except Failure α := checked.mapError .badRequest

def spread {α : Type} (base overriding : List (Text × α)) : List (Text × α) :=
  (base.map fun entry => (entry.1, (overriding.lookup entry.1).getD entry.2)) ++
    overriding.filter fun entry => !(base.map Prod.fst).contains entry.1

structure Issue where
  path : List Text
  message : Text
  deriving DecidableEq

def reservedEnvKeys : List Text :=
  ["PATH", "HOME", "SHELL", "USER", "TMPDIR", "NODE_OPTIONS", "CLAUDE_CONFIG_DIR", "CODEX_HOME",
    "PI_HOME"].map String.toList

def isReservedEnvKey (key : Text) : Bool := reservedEnvKeys.contains key || Text.startsWith "EVE_".toList key

def isUpperStart (char : Char) : Bool := ('A' ≤ char && char ≤ 'Z') || char == '_'

def isUpperSnake : Text → Bool
  | [] => false
  | first :: rest =>
    isUpperStart first && rest.all fun char => isUpperStart char || char.isDigit

def expressions : Option Text → Text → List Text
  | none, '$' :: '\x7b' :: rest => expressions (some []) rest
  | none, _ :: rest => expressions none rest
  | some body, char :: rest =>
    if char = '\x7d' then body :: expressions none rest
    else expressions (some (body ++ [char])) rest
  | _, [] => []

def isSecretExpression (expression : Text) : Bool :=
  Text.startsWith "secret.".toList expression && isUpperSnake (expression.drop "secret.".length)

def entryIssues (entry : Text × Text) : List Issue :=
  if isReservedEnvKey entry.1 then
    [{ path := [entry.1]
       message := "env key ".toList ++ entry.1 ++
         " is reserved by Eve and cannot be overridden".toList }]
  else
    ((expressions none entry.2).filter fun expression => !isSecretExpression expression).map
      fun expression =>
        { path := [entry.1]
          message := "env value contains unsupported expression $\x7b".toList ++ expression ++
            "\x7d; only $\x7bsecret.KEY\x7d is allowed".toList }

def shapeIssues (entry : Text × Text) : List Issue :=
  (if isUpperSnake entry.1 then []
    else [{ path := [entry.1], message := "env key must be UPPER_SNAKE_CASE".toList }]) ++
  (if Text.unitLength entry.2 ≤ 2048 then []
    else [{ path := [entry.1], message := "env value exceeds 2048 chars".toList }])

def stringifiedLength (char : Char) : Nat :=
  if char = '"' ∨ char = '\\' then 2
  else if char.toNat < 0x20 then
    if [0x08, 0x09, 0x0A, 0x0C, 0x0D].contains char.toNat then 2 else 6
  else Text.unitLength [char]

def stringifiedString (text : Text) : Nat := (text.map stringifiedLength).sum + 2

def stringifiedEntries (entries : List (Text × Text)) : Nat :=
  (entries.map fun entry => stringifiedString entry.1 + 1 + stringifiedString entry.2).sum + (entries.length - 1) + 2

def envOverrideIssues (entries : List (Text × Text)) : List Issue :=
  entries.flatMap shapeIssues ++
  (if stringifiedEntries entries ≤ 4096 then []
    else [{ path := [], message := "env_overrides exceeds 4KB".toList }]) ++
  entries.flatMap entryIssues

def formatEnvOverrideIssues (issues : List Issue) : String :=
  "; ".intercalate (issues.map fun issue => String.ofList
    ((if issue.path = [] then [] else ['.'].intercalate issue.path ++ ": ".toList) ++ issue.message))

def parseEnvOverrides (path : String) : Option (List (Text × Text)) → Except String (Option (List (Text × Text)))
  | none => .ok none
  | some entries =>
    if envOverrideIssues entries = [] then .ok (some entries)
    else .error ("Invalid " ++ path ++ ": " ++ formatEnvOverrideIssues (envOverrideIssues entries))

def mergeEnvOverrides (workflowEnv stepEnv invocationEnv : Option (List (Text × Text))) :
    Except (List Issue) (Option (List (Text × Text))) :=
  let merged := spread (spread (workflowEnv.getD []) (stepEnv.getD [])) (invocationEnv.getD [])
  if merged = [] then .ok none
  else if envOverrideIssues merged = [] then .ok (some merged)
  else .error (envOverrideIssues merged)

def mergeStepEnvOverrides (issuesMessage : List Issue → String)
    (workflowEnv stepEnv invocationEnv : Option (List (Text × Text))) (path : String) :
    Except String (Option (List (Text × Text))) :=
  (mergeEnvOverrides workflowEnv stepEnv invocationEnv).mapError fun issues =>
    "Invalid " ++ path ++ ": " ++ issuesMessage issues

def parseTokenScope (path : String) : Validated AccessBindingScope → Except String (Option AccessBindingScope)
  | .absent => .ok none
  | .invalid issues => .error ("Invalid " ++ path ++ ": " ++ issues)
  | .valid scope => .ok (some scope)

def accepted {α : Type} : Option α → Validated α
  | none => .absent
  | some value => .valid value

def rawList : Option (List String) → RawList
  | none => .absent
  | some entries => .array (entries.map some)

def parseTokenPermissions (isValidPermission : String → Bool) (path : String)
    (permissions : Option (List String)) : Except String (Option (List String)) :=
  Pipelines.parseTokenPermissions isValidPermission path (rawList permissions)

def mergeStepTokenPermissions
    (workflowPermissions stepPermissions invocationPermissions : Option (List String)) :
    Option (List String) :=
  (stepPermissions <|> invocationPermissions <|> workflowPermissions).map fun winner =>
    winner.dedup.insertionSort (· ≤ ·)

def parseToolchains (path : String) (toolchains : RawList) : Except String (Option (List String)) :=
  Pipelines.parseToolchains validToolchains path toolchains

def nonEmpty (toolchains : Option (List String)) : Option (List String) := toolchains.filter (· ≠ [])

def resolveStepToolchains (workflowToolchains stepToolchains : Option (List String)) : List String :=
  (nonEmpty stepToolchains <|> nonEmpty workflowToolchains).getD []

def resolveAgentToolchains
    (workflowToolchains stepToolchains agentToolchains : Option (List String)) : List String :=
  (nonEmpty stepToolchains <|> nonEmpty agentToolchains <|> nonEmpty workflowToolchains).getD []

structure ResourceRef where
  uri : String
  name : Option String := none
  label : Option String := none
  mountPath : Option String := none
  required : Option Bool := none
  mimeType : Option String := none
  -- The texts under `name`, `resource_name` and `key` of the metadata.
  metadataNames : List String := []

inductive ResourceRefsPolicySource where
  | default | workflow | step
  deriving DecidableEq

structure ResolvedResourceRefsPolicy where
  mode : ResourceRefsMode
  source : ResourceRefsPolicySource
  selectors : List String := []

def policyMode (mode : Option ResourceRefsMode) (selectors : List String) : ResourceRefsMode :=
  match mode with
  | some .all => .inherit
  | some mode => mode
  | none => if selectors = [] then .inherit else .selected

def parseResourceRefsPolicy (source : ResourceRefsPolicySource) (context : String) :
    Option ResourceRefsSetting → Except String (Option ResolvedResourceRefsPolicy)
  | none => .ok none
  | some (.keyword .selected) => .error (context ++
      " has invalid resource_refs value \"selected\". Use \"inherit\", \"none\", or an array of selectors.")
  | some (.keyword .none) => .ok (some { mode := .none, source })
  | some (.keyword _) => .ok (some { mode := .inherit, source })
  | some (.selectors names) =>
    if names.contains "" then
      .error (context ++ " resource_refs array must contain non-empty strings")
    else .ok (some { mode := .selected, source, selectors := names })
  | some (.config mode included) =>
    let selectors := included.getD []
    if selectors.contains "" then
      .error (context ++ " resource_refs.include must be an array of non-empty strings")
    else
      let resolved := policyMode mode selectors
      if resolved = .selected ∧ selectors = [] then
        .error (context ++ " resource_refs selected mode requires include selectors")
      else if resolved ≠ .selected ∧ selectors ≠ [] then
        .error (context ++ " resource_refs.include can only be used with selected mode")
      else .ok (some { mode := resolved, source, selectors })

def resourceRefSelectorValues (ref : ResourceRef) : List String :=
  ([ref.name, ref.label, ref.mountPath, some ref.uri].filterMap Pipelines.truthy) ++ ref.metadataNames.filter (· ≠ "")

def selectedPlaces (refs : List ResourceRef) (selectors : List String) : List Nat :=
  (selectors.flatMap fun selector =>
    ((refs.zipIdx.filter fun entry =>
      (resourceRefSelectorValues entry.1).contains selector).map Prod.snd)).reverse.dedup.reverse

def missingSelectors (refs : List ResourceRef) (selectors : List String) : List String :=
  selectors.filter fun selector =>
    !refs.any fun ref => (resourceRefSelectorValues ref).contains selector

structure ResourceRefsSummary where
  mode : ResourceRefsMode
  source : ResourceRefsPolicySource
  count : Nat
  inheritedCount : Nat
  selectors : List String
  missingSelectors : List String
  deriving DecidableEq

def resolveStepResourceRefs (invocationRefs : List ResourceRef)
    (workflowPolicy : Option ResolvedResourceRefsPolicy) (setting : Option ResourceRefsSetting)
    (workflowName stepName : String) :
    Except String (List ResourceRef × ResourceRefsSummary) := do
  let stepPolicy ← parseResourceRefsPolicy .step
    ("Workflow \"" ++ workflowName ++ "\" step \"" ++ stepName ++ "\"") setting
  let policy := (stepPolicy <|> workflowPolicy).getD { mode := .inherit, source := .default }
  let refs := match policy.mode with
    | .none => []
    | .selected => (selectedPlaces invocationRefs policy.selectors).filterMap (invocationRefs[·]?)
    | _ => invocationRefs
  let missing := match policy.mode with
    | .selected => missingSelectors invocationRefs policy.selectors
    | _ => []
  return (refs, { mode := policy.mode, source := policy.source, count := refs.length
                  inheritedCount := invocationRefs.length, selectors := policy.selectors
                  missingSelectors := missing })

def listedReferences (found : List (Text × Templates.TemplateReference)) : String :=
  ", ".intercalate (found.map fun item => String.ofList (item.1 ++ ": ".toList ++ item.2.raw))

def gitTemplateError (workflowName stepName : String)
    (interpolated : Templates.Interpolated Json) : String :=
  let missing := if interpolated.missing = [] then []
    else ["missing refs (" ++ listedReferences interpolated.missing ++ ")"]
  let nonScalar := if interpolated.nonScalar = [] then []
    else ["non-scalar refs (" ++ listedReferences interpolated.nonScalar ++ ")"]
  "Workflow \"" ++ workflowName ++ "\" step \"" ++ stepName ++ "\" has invalid git template: " ++
    "; ".intercalate (missing ++ nonScalar)

def interpolateGit (workflowGit stepGit : Option GitConfig) (templateScope : EvaluateScope) :
    Except Text (Templates.Interpolated Json) :=
  Templates.interpolateValue templateScope "git".toList
    (.object ((spread (workflowGit.getD []) (stepGit.getD [])).map fun entry =>
      (entry.1, .string entry.2)))

/-- The git controls of a step after interpolation. A template that does not parse throws
an error of its own; one that cannot be resolved is a bad request. -/
def resolveStepGit (workflowGit stepGit : Option GitConfig) (templateScope : EvaluateScope)
    (workflowName stepName : String) : Except Failure (Option Json) :=
  if workflowGit = none ∧ stepGit = none then .ok none
  else
    match interpolateGit workflowGit stepGit templateScope with
    | .error message => .error (.error (String.ofList message))
    | .ok interpolated =>
      if interpolated.missing = [] ∧ interpolated.nonScalar = [] then .ok (some interpolated.value)
      else .error (.badRequest (gitTemplateError workflowName stepName interpolated))

end EveHorizon.Workflows
