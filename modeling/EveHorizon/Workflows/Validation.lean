import EveHorizon.Workflows.Cycles
import Mathlib.Data.List.Chain

/-!
# Exact validation of step graphs

What the cycle search returns is a cycle, and a step graph is accepted exactly if its names,
its dependencies and its conditions are as they must be.
-/

namespace EveHorizon.Workflows

open List Checks
open Precedence (Acyclic)

section

variable {dependencies : String → List String} {nodes path cycle rest : List String} {levels : Nat}
  {search left : Search} {node : String}

/-- A path along dependencies that ends where it has been before. -/
structure Closes (dependencies : String → List String) (path : List String) : Prop where
  chain : path.IsChain fun node dependency => dependency ∈ dependencies node
  again : ∃ earlier last, path = earlier ++ [last] ∧ last ∈ earlier

theorem transGen_of_isChain {edge : String → String → Prop} {first last : String} {between : List String}
    (chain : (first :: between ++ [last]).IsChain edge) : Relation.TransGen edge first last := by
  induction between generalizing first with
  | nil => exact .single (isChain_cons_cons.mp chain).1
  | cons next between ih =>
    obtain ⟨step, onward⟩ := isChain_cons_cons.mp chain
    exact .head step (ih onward)

theorem Closes.returns (closes : Closes dependencies path) :
    ∃ node, Relation.TransGen (fun node dependency => dependency ∈ dependencies node) node node := by
  obtain ⟨_, last, rfl, isEarlier⟩ := closes.again
  obtain ⟨before, between, rfl⟩ := append_of_mem isEarlier
  have chain := closes.chain
  rw [append_assoc] at chain
  exact ⟨last, transGen_of_isChain chain.right_of_append⟩

variable {stack : List String}

theorem foldl_restores
    (each : ∀ {search left : Search} {node : String}, dfs dependencies levels path search node = (none, left) →
      left.inStack = search.inStack)
    (onStack : search.inStack = stack)
    (result : rest.foldl (explore dependencies levels path) (none, search) = (none, left)) : left.inStack = stack := by
  induction rest generalizing search with
  | nil =>
    cases result
    exact onStack
  | cons node rest ih =>
    obtain ⟨cyclic, _⟩ | ⟨reached, step, further⟩ := foldl_explore_cons result
    · exact absurd rfl cyclic
    · exact ih ((each step).trans onStack) further

theorem dfs_restores (result : dfs dependencies levels path search node = (none, left)) :
    left.inStack = search.inStack := by
  induction levels generalizing path search left node with
  | zero =>
    cases result
    rfl
  | succ levels ih =>
    by_cases onStack : node ∈ search.inStack
    · rw [dfs_onStack onStack] at result
      cases result
    by_cases seen : node ∈ search.visited
    · rw [dfs_visited onStack seen] at result
      cases result
      rfl
    rw [dfs_enters onStack seen] at result
    obtain ⟨reached, inner, rfl⟩ := leave_eq_none result
    have stack : reached.inStack = (search.enter node).inStack := foldl_restores ih rfl inner
    exact stack ▸ enter_leave onStack

theorem foldl_meets (onStack : search.inStack = stack)
    (result : rest.foldl (explore dependencies levels path) (none, search) = (some cycle, left)) :
    ∃ node ∈ rest, ∃ reached left : Search, reached.inStack = stack ∧
      dfs dependencies levels path reached node = (some cycle, left) := by
  induction rest generalizing search with
  | nil => cases result
  | cons node rest ih =>
    obtain ⟨_, step⟩ | ⟨reached, step, further⟩ := foldl_explore_cons result
    · exact ⟨node, mem_cons_self, search, left, onStack, step⟩
    · obtain ⟨other, later, met⟩ := ih ((dfs_restores step).trans onStack) further
      exact ⟨other, mem_cons_of_mem _ later, met⟩

theorem dfs_closes (chain : (path ++ [node]).IsChain fun node dependency => dependency ∈ dependencies node)
    (onPath : search.inStack = path) (result : dfs dependencies levels path search node = (some cycle, left)) :
    Closes dependencies cycle := by
  induction levels generalizing path search node left with
  | zero => cases result
  | succ levels ih =>
    by_cases onStack : node ∈ search.inStack
    · rw [dfs_onStack onStack] at result
      cases result
      exact ⟨chain, path, node, rfl, onPath ▸ onStack⟩
    by_cases seen : node ∈ search.visited
    · rw [dfs_visited onStack seen] at result
      cases result
    rw [dfs_enters onStack seen] at result
    have entered : (search.enter node).inStack = path ++ [node] := by rw [Search.enter, onPath]
    obtain ⟨dependency, depends, reached, _, stack, found⟩ := foldl_meets entered (leave_eq_some result)
    have longer : (path ++ [node] ++ [dependency]).IsChain fun node dependency => dependency ∈ dependencies node := by
      rw [append_assoc]
      exact isChain_append_cons_cons.mpr ⟨chain, depends, isChain_singleton _⟩
    exact ih longer stack found

theorem searchCycle_closes {starts : List String}
    (found : searchCycle dependencies levels starts = some path) : Closes dependencies path := by
  cases searched : starts.foldl (explore dependencies levels []) (none, {}) with
  | mk cycle left =>
    have result : cycle = some path := by rwa [searchCycle, searched] at found
    subst result
    obtain ⟨node, _, _, _, stack, met⟩ := foldl_meets rfl searched
    exact dfs_closes (isChain_singleton node) stack met

theorem foldl_deeper
    (each : ∀ {search : Search} {node : String}, search.inStack = stack → node ∈ nodes →
      dfs dependencies (levels + 1) path search node = dfs dependencies levels path search node)
    (onStack : search.inStack = stack) (known : ∀ node ∈ rest, node ∈ nodes) :
    rest.foldl (explore dependencies (levels + 1) path) (none, search) =
      rest.foldl (explore dependencies levels path) (none, search) := by
  induction rest generalizing search with
  | nil => rfl
  | cons node rest ih =>
    have same : explore dependencies (levels + 1) path (none, search) node =
        explore dependencies levels path (none, search) node :=
      each onStack (known node mem_cons_self)
    rw [foldl_cons, foldl_cons, same]
    cases step : explore dependencies levels path (none, search) node with
    | mk found reached =>
      cases found with
      | some cycle => rw [foldl_explore_found, foldl_explore_found]
      | none =>
        exact ih ((dfs_restores step).trans onStack) fun other later =>
          known other (mem_cons_of_mem _ later)

theorem dfs_deeper (closed : ∀ node ∈ nodes, ∀ dependency ∈ dependencies node, dependency ∈ nodes)
    (distinct : search.inStack.Nodup) (inside : ∀ other ∈ search.inStack, other ∈ nodes)
    (known : node ∈ nodes) (enough : nodes.length < search.inStack.length + levels) :
    dfs dependencies (levels + 1) path search node = dfs dependencies levels path search node := by
  induction levels generalizing path search node with
  | zero =>
    have bounded := (subperm_of_subset distinct inside).length_le
    omega
  | succ levels ih =>
    by_cases onStack : node ∈ search.inStack
    · rw [dfs_onStack onStack, dfs_onStack onStack]
    by_cases seen : node ∈ search.visited
    · rw [dfs_visited onStack seen, dfs_visited onStack seen]
    have longer := distinct.concat onStack
    rw [concat_eq_append] at longer
    rw [dfs_enters onStack seen, dfs_enters onStack seen]
    refine congrArg _ (foldl_deeper ?_ rfl (closed node known))
    intro reached dependency sameStack isNode
    refine ih (sameStack ▸ longer) ?_ isNode ?_
    · rw [sameStack]
      intro other member
      cases mem_append.mp member with
      | inl old => exact inside other old
      | inr new => exact mem_singleton.mp new ▸ known
    · rw [sameStack, Search.enter, length_append, length_singleton]
      omega

/-- The search goes no deeper than there are nodes, however deep it may go. -/
theorem searchCycle_deeper (closed : ∀ node ∈ nodes, ∀ dependency ∈ dependencies node, dependency ∈ nodes)
    (enough : nodes.length < levels) :
    searchCycle dependencies levels nodes = searchCycle dependencies (nodes.length + 1) nodes := by
  induction levels, enough using Nat.le_induction with
  | base => rfl
  | succ levels enough ih =>
    rw [← ih]
    refine congrArg Prod.fst (foldl_deeper ?_ rfl fun _ member => member)
    intro search node empty known
    exact dfs_deeper closed (by simp [empty]) (by simp [empty]) known (by simp [empty]; omega)

/-- A diamond: the packages and the tests build on one checkout, and the release on both. -/
def releaseNeeds : String → List String
  | "release" => ["package", "test"]
  | "package" | "test" => ["checkout"]
  | _ => []

theorem searchCycle_deeper_diamond :
    searchCycle releaseNeeds 9 ["release", "package", "test", "checkout"] =
      searchCycle releaseNeeds 5 ["release", "package", "test", "checkout"] :=
  searchCycle_deeper (by decide) (by decide)


end

abbrev DependencyMap := List (String × List String)

def DependencyMap.get (depMap : DependencyMap) (node : String) : List String := (depMap.lookup node).getD []

def DependencyMap.reached (nodes : List String) (depMap : DependencyMap) : List String :=
  nodes ++ depMap.flatMap Prod.snd

/-- `detectCycleInGraph` on any nodes and any map, which may lead to further nodes. -/
def detectCycle (nodes : List String) (depMap : DependencyMap) : Option (List String) :=
  searchCycle depMap.get ((DependencyMap.reached nodes depMap).length + 1) nodes

section

variable {nodes : List String} {depMap : DependencyMap}

theorem mem_reached {node dependency : String} (depends : dependency ∈ depMap.get node) :
    dependency ∈ DependencyMap.reached nodes depMap := by
  rw [DependencyMap.get] at depends
  cases found : depMap.lookup node with
  | none =>
    rw [found] at depends
    cases depends
  | some listed =>
    rw [found] at depends
    exact mem_append_right _ (mem_flatMap.mpr ⟨_, Table.mem_of_lookup found, depends⟩)

theorem detectCycle_none (none : detectCycle nodes depMap = none) :
    Acyclic fun node dependency => node ∈ nodes ∧ dependency ∈ nodes ∧ dependency ∈ depMap.get node := by
  obtain ⟨finished, ordered, all⟩ := searchCycle_finishes (fun _ _ dependency depends => mem_reached depends)
    (fun start member => mem_append_left _ member) none
  have acyclic : Acyclic fun dependency node =>
      node ∈ nodes ∧ dependency ∈ nodes ∧ dependency ∈ depMap.get node := by
    refine Precedence.acyclic_of_ordered ?_ fun node _ edge => all node edge.1
    intro earlier node later split dependency edge
    exact ordered earlier node later split dependency edge.2.2
  exact acyclic.swap

end

inductive ExecutionKey where
  | action | script | agent | run
  deriving DecidableEq

def WorkflowStep.defines (step : WorkflowStep) : ExecutionKey → Bool
  | .action => step.action.isSome
  | .script => step.script.isSome
  | .agent => step.agent.isSome
  | .run => step.run.isSome

def executionKeys : List ExecutionKey := [.action, .script, .agent, .run]

theorem mem_executionKeys (key : ExecutionKey) : key ∈ executionKeys := by
  cases key <;> decide

theorem executionKeyCount_eq_one {step : WorkflowStep} :
    executionKeyCount step = 1 ↔ ∃! key, step.defines key = true := by
  have counted : executionKeyCount step = (executionKeys.filter step.defines).length := by
    change (executionKeys.map step.defines).count true = _
    rw [count_eq_countP, countP_map, countP_eq_length_filter]
    exact congrArg List.length (filter_congr fun key _ => by simp)
  rw [counted]
  constructor
  · intro single
    obtain ⟨key, only⟩ := length_eq_one_iff.mp single
    have found : key ∈ executionKeys.filter step.defines := by simp [only]
    refine ⟨key, (mem_filter.mp found).2, fun other defined => ?_⟩
    have listed := mem_filter.mpr ⟨mem_executionKeys other, defined⟩
    rw [only] at listed
    exact mem_singleton.mp listed
  · intro ⟨key, defined, alone⟩
    have distinct : (executionKeys.filter step.defines).Nodup := List.Nodup.filter _ (by decide)
    have same : (executionKeys.filter step.defines).Perm [key] := by
      refine (perm_ext_iff_of_nodup distinct (nodup_singleton key)).mpr fun other => ?_
      rw [mem_filter, mem_singleton]
      constructor
      · intro found
        exact alone other found.2
      · intro isKey
        exact isKey ▸ ⟨mem_executionKeys key, defined⟩
    exact same.length_eq

structure StepGraphValid (steps : List WorkflowStep) : Prop where
  distinct : (stepNames steps).Nodup
  executed : ∀ entry ∈ namedSteps steps, ∃! key, entry.2.defines key = true
  known : ∀ entry ∈ namedSteps steps, ∀ dependency ∈ entry.2.dependencies, dependency ∈ stepNames steps
  acyclic : Acyclic (StepDependsOn (namedSteps steps))
  conditioned : ∀ entry ∈ namedSteps steps, ∀ condition, entry.2.condition = some condition →
    ∃ parsed, parseStepCondition condition = some parsed ∧ parsed.stepName ∈ entry.2.dependencies

section

variable {workflowName : String} {steps : List WorkflowStep}

theorem checkCondition_eq_ok {names : List String} {entry : String × WorkflowStep}
    (known : ∀ dependency ∈ entry.2.dependencies, dependency ∈ names) :
    checkCondition workflowName names entry = .ok () ↔ ∀ condition, entry.2.condition = some condition →
        ∃ parsed, parseStepCondition condition = some parsed ∧ parsed.stepName ∈ entry.2.dependencies := by
  rw [checkCondition]
  cases entry.2.condition with
  | none => exact iff_of_true rfl nofun
  | some condition =>
    simp only [Option.some.injEq, forall_eq']
    cases parseStepCondition condition with
    | none => simp
    | some parsed =>
      by_cases depends : parsed.stepName ∈ entry.2.dependencies
      · simp [depends, known parsed.stepName depends]
      · by_cases named : parsed.stepName ∈ names
        · simp [depends, named]
        · simp [depends, named]

theorem validateStepGraph_eq_ok : validateStepGraph workflowName steps = .ok () ↔ StepGraphValid steps := by
  constructor
  · intro validated
    obtain ⟨distinct, known⟩ := validateStepGraph_accepts validated
    obtain ⟨_, named, onward⟩ := bind_eq_ok.mp validated
    obtain ⟨_, _, searching⟩ := bind_eq_ok.mp onward
    refine ⟨distinct, ?_, known, validateStepGraph_acyclic validated, ?_⟩
    · intro entry listed
      exact executionKeyCount_eq_one.mp ((checkNames_eq_ok.mp named).1 entry listed)
    · intro entry listed
      split at searching
      · cases searching
      · exact (checkCondition_eq_ok (known entry listed)).mp (forM_eq_ok.mp searching entry listed)
  · intro valid
    have named : checkNames workflowName [] (namedSteps steps) = .ok () := by
      refine checkNames_eq_ok.mpr ⟨fun entry listed => ?_, valid.distinct, nofun⟩
      exact executionKeyCount_eq_one.mpr (valid.executed entry listed)
    have related : (namedSteps steps).forM (checkDependencies workflowName (stepNames steps)) = .ok () :=
      forM_eq_ok.mpr fun entry listed => checkDependencies_eq_ok.mpr (valid.known entry listed)
    have conditioned : (namedSteps steps).forM (checkCondition workflowName (stepNames steps)) = .ok () :=
      forM_eq_ok.mpr fun entry listed =>
        (checkCondition_eq_ok (valid.known entry listed)).mpr (valid.conditioned entry listed)
    have none : detectCycleInGraph (stepNames steps) (dependenciesOf steps) = none := by
      by_contra found
      obtain ⟨cycle, isCycle⟩ := Option.ne_none_iff_exists'.mp found
      obtain ⟨node, returns⟩ := (searchCycle_closes isCycle).returns
      refine valid.acyclic node (Relation.TransGen.mono ?_ node node returns)
      exact fun name dependency => mem_dependenciesOf
    refine bind_eq_ok.mpr ⟨(), named, bind_eq_ok.mpr ⟨(), related, ?_⟩⟩
    rw [none]
    exact conditioned

end

structure ValidatedExactly (workflowName : String) (steps : List WorkflowStep) (nodes : List String)
    (depMap : DependencyMap) : Prop where
  accepts : validateStepGraph workflowName steps = .ok () ↔ StepGraphValid steps
  returns : ∀ path, detectCycle nodes depMap = some path → Closes depMap.get path
  clears : detectCycle nodes depMap = none → Acyclic fun node dependency =>
    node ∈ nodes ∧ dependency ∈ nodes ∧ dependency ∈ depMap.get node

theorem step_graph_validated_exactly (workflowName : String) (steps : List WorkflowStep)
    (nodes : List String) (depMap : DependencyMap) :
    ValidatedExactly workflowName steps nodes depMap where
  accepts := validateStepGraph_eq_ok
  returns _ found := searchCycle_closes found
  clears none := detectCycle_none none

end EveHorizon.Workflows
