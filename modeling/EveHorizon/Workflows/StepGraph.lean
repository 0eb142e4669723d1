import EveHorizon.Library.Json
import EveHorizon.Access.ScopeAlgebra
import EveHorizon.Pipelines.Runs

/-!
# Step graphs

The steps of a workflow as its manifest declares them, and the validation of the graph of
their dependencies and conditions before any job is created.
-/

namespace EveHorizon.Workflows

open Pipelines (truthy StepAction StepScript ExecutionType)

def validToolchains : List String := ["python", "media", "rust", "java", "kotlin", "browser"]

structure AgentStep where
  name : Option String := none
  prompt : Option String := none

inductive ResourceRefsMode where
  | inherit | all | none | selected
  deriving DecidableEq

inductive ResourceRefsSetting where
  | keyword (mode : ResourceRefsMode)
  | selectors (names : List String)
  | config (mode : Option ResourceRefsMode) (selectors : Option (List String))

abbrev GitConfig := List (Text × Text)

structure WorkflowStep where
  name : Option String := none
  dependsOn : Option (List String) := none
  condition : Option String := none
  action : Option StepAction := none
  script : Option StepScript := none
  agent : Option AgentStep := none
  run : Option String := none
  harness : Option String := none
  harnessOptions : Option (List (Text × Json)) := none
  harnessProfile : Option Text := none
  harnessProfileOverride : Option (List (Text × Json)) := none
  git : Option GitConfig := none
  resourceRefs : Option ResourceRefsSetting := none
  envOverrides : Option (List (Text × Text)) := none
  scope : Option Access.AccessBindingScope := none
  permissions : Option (List String) := none
  toolchains : Option (List String) := none

def stepName (index : Nat) (step : WorkflowStep) : String :=
  (truthy step.name).getD ("step-" ++ toString (index + 1))

variable (steps : List WorkflowStep)

def namedSteps : List (String × WorkflowStep) :=
  steps.zipIdx.map fun (step, index) => (stepName index step, step)

def stepNames : List String := (namedSteps steps).map Prod.fst

def executionKeyCount (step : WorkflowStep) : Nat :=
  [step.action.isSome, step.script.isSome, step.agent.isSome, step.run.isSome].count true

def WorkflowStep.dependencies (step : WorkflowStep) : List String := step.dependsOn.getD []

inductive ConditionOperator where
  | equal | notEqual

structure StepCondition where
  stepName : String
  operator : ConditionOperator
  value : String

def isWord (char : Char) : Bool :=
  ('a' ≤ char && char ≤ 'z') || ('A' ≤ char && char ≤ 'Z') ||
    char.isDigit || char == '_'

def isQuote (char : Char) : Bool := char == '\'' || char == '"'

def skipSpace (text : Text) : Text := text.dropWhile Text.isSpace

def expect (literal text : Text) : Option Text :=
  if Text.startsWith literal text then some (text.drop literal.length) else none

def readOperator : Text → Option (ConditionOperator × Text)
  | '=' :: '=' :: rest => some (.equal, rest)
  | '!' :: '=' :: rest => some (.notEqual, rest)
  | _ => none

def readQuoted : Text → Option Text
  | [] => none
  | quote :: rest =>
    let value := rest.takeWhile fun char => !isQuote char
    match rest.dropWhile fun char => !isQuote char with
    | [] => none
    | _ :: ending =>
      if isQuote quote ∧ ending.all Text.isSpace then some value else none

def parseStepCondition (condition : String) : Option StepCondition := do
  let text := condition.toList
  let name := text.takeWhile fun char => isWord char || char == '-'
  if name.head?.any isWord then
    let rest ← expect ['.'] (skipSpace (text.drop name.length))
    let rest ← expect "status".toList (skipSpace rest)
    let (operator, rest) ← readOperator (skipSpace rest)
    let value ← readQuoted (skipSpace rest)
    return { stepName := String.ofList name, operator, value := String.ofList value }
  else none

structure Search where
  visited : List String := []
  inStack : List String := []

def dfs (dependencies : String → List String) : Nat → List String → Search → String → Option (List String) × Search
  | 0, _, search, _ => (none, search)
  | levels + 1, path, search, node =>
    if search.inStack.contains node then (some (path ++ [node]), search)
    else if search.visited.contains node then (none, search)
    else
      let entered : Search :=
        { visited := search.visited ++ [node], inStack := search.inStack ++ [node] }
      let (cycle, left) := (dependencies node).foldl
        (fun found dependency =>
          match found.1 with
          | some _ => found
          | none => dfs dependencies levels (path ++ [node]) found.2 dependency)
        (none, entered)
      match cycle with
      | some cycle => (some cycle, left)
      | none => (none, { left with inStack := left.inStack.erase node })

def detectCycleInGraph (nodes : List String) (dependencies : String → List String) : Option (List String) :=
  (nodes.foldl (fun found node =>
      match found.1 with
      | some _ => found
      | none => dfs dependencies (nodes.length + 1) [] found.2 node)
    (none, {})).1

def checkNames (workflowName : String) : List String → List (String × WorkflowStep) → Except String Unit
  | _, [] => .ok ()
  | names, (name, step) :: rest =>
    if executionKeyCount step ≠ 1 then
      .error ("Workflow \"" ++ workflowName ++ "\" step \"" ++ name ++
        "\" must define exactly one of action, script, agent, or run")
    else if names.contains name then
      .error ("Workflow \"" ++ workflowName ++ "\" has duplicate step name \"" ++ name ++ "\"")
    else checkNames workflowName (names ++ [name]) rest

variable (workflowName : String)

def checkDependencies (names : List String) (entry : String × WorkflowStep) : Except String Unit :=
  match entry.2.dependencies.find? fun dependency => !names.contains dependency with
  | none => .ok ()
  | some dependency => .error ("Workflow \"" ++ workflowName ++ "\" step \"" ++ entry.1 ++
      "\" depends on nonexistent step \"" ++ dependency ++ "\"")

def dependenciesOf (name : String) : List String :=
  (((namedSteps steps).lookup name).map WorkflowStep.dependencies).getD []

def checkCondition (names : List String) (entry : String × WorkflowStep) : Except String Unit :=
  match entry.2.condition with
  | none => .ok ()
  | some condition =>
    let path := "Workflow \"" ++ workflowName ++ "\" step \"" ++ entry.1 ++ "\""
    match parseStepCondition condition with
    | none => .error (path ++ " has invalid condition \"" ++ condition ++ "\". " ++
        "Expected format: step_name.status == 'value' or step_name.status != 'value'")
    | some parsed =>
      if !names.contains parsed.stepName then
        .error (path ++ " condition references nonexistent step \"" ++ parsed.stepName ++ "\"")
      else if !entry.2.dependencies.contains parsed.stepName then
        .error (path ++ " condition references step \"" ++ parsed.stepName ++
          "\" which is not in its depends_on list. The condition step must be a dependency.")
      else .ok ()

def validateStepGraph (steps : List WorkflowStep) : Except String Unit := do
  let entries := namedSteps steps
  let names := stepNames steps
  checkNames workflowName [] entries
  entries.forM (checkDependencies workflowName names)
  match detectCycleInGraph names (dependenciesOf steps) with
  | some cycle => .error ("Workflow \"" ++ workflowName ++ "\" has a dependency cycle: " ++ " -> ".intercalate cycle)
  | none => entries.forM (checkCondition workflowName names)

end EveHorizon.Workflows
