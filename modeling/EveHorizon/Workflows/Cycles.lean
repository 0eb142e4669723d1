import EveHorizon.Workflows.Expansion
import EveHorizon.Library.Precedence

/-!
# Cycles of a step graph

A step graph in which the search finds no cycle has none.
-/

namespace EveHorizon.Workflows

open List Checks
open Precedence (Acyclic Ordered)

section

variable {dependencies : String → List String} {nodes : List String}

/-- What has been visited is on the stack, or listed after what it depends on. -/
structure Explored (dependencies : String → List String) (nodes : List String) (search : Search)
    (finished : List String) : Prop where
  visited : ∀ node ∈ search.visited, node ∈ search.inStack ∨ node ∈ finished
  ordered : Ordered (fun other node => other ∈ dependencies node) finished
  distinct : search.inStack.Nodup
  known : ∀ node ∈ search.inStack, node ∈ nodes

def explore (dependencies : String → List String) (levels : Nat) (path : List String)
    (found : Option (List String) × Search) (dependency : String) : Option (List String) × Search :=
  match found.1 with
  | some _ => found
  | none => dfs dependencies levels path found.2 dependency

def Search.enter (search : Search) (node : String) : Search :=
  { visited := search.visited ++ [node], inStack := search.inStack ++ [node] }

def Search.leave (node : String) : Option (List String) × Search → Option (List String) × Search
  | (some cycle, left) => (some cycle, left)
  | (none, left) => (none, { left with inStack := left.inStack.erase node })

variable {levels : Nat} {path cycle rest : List String} {search left : Search} {node : String}

theorem dfs_onStack (onStack : node ∈ search.inStack) :
    dfs dependencies (levels + 1) path search node = (some (path ++ [node]), search) := by
  rw [dfs, if_pos (contains_iff_mem.mpr onStack)]

theorem dfs_visited (offStack : node ∉ search.inStack) (visited : node ∈ search.visited) :
    dfs dependencies (levels + 1) path search node = (none, search) := by
  rw [dfs, if_neg (by simpa using offStack), if_pos (contains_iff_mem.mpr visited)]

theorem leave_eq (explored : Option (List String) × Search) :
    (match explored with
      | (cycle, left) =>
        match cycle with
        | some cycle => (some cycle, left)
        | none => (none, { left with inStack := left.inStack.erase node })) = Search.leave node explored := by
  rcases explored with ⟨_ | _, _⟩ <;> rfl

theorem dfs_enters (offStack : node ∉ search.inStack) (fresh : node ∉ search.visited) :
    dfs dependencies (levels + 1) path search node =
      Search.leave node ((dependencies node).foldl (explore dependencies levels (path ++ [node]))
        (none, search.enter node)) := by
  rw [dfs, if_neg (by simpa using offStack), if_neg (by simpa using fresh)]
  exact leave_eq ((dependencies node).foldl (explore dependencies levels (path ++ [node])) (none, search.enter node))

variable {explored : Option (List String) × Search}

theorem leave_eq_none (leaves : Search.leave node explored = (none, left)) :
    ∃ reached, explored = (none, reached) ∧ left = { reached with inStack := reached.inStack.erase node } := by
  obtain ⟨found, reached⟩ := explored
  cases found with
  | some cycle => cases leaves
  | none =>
    cases leaves
    exact ⟨reached, rfl, rfl⟩

theorem leave_eq_some (leaves : Search.leave node explored = (some cycle, left)) : explored = (some cycle, left) := by
  obtain ⟨found, reached⟩ := explored
  cases found with
  | some cycle => exact leaves
  | none => cases leaves

theorem foldl_explore_found :
    rest.foldl (explore dependencies levels path) (some cycle, search) = (some cycle, search) := by
  induction rest with
  | nil => rfl
  | cons node rest ih => exact ih

/-- The first node ends the search with a cycle, or the search goes on from where it leaves. -/
theorem foldl_explore_cons {found : Option (List String)} {node : String} {search left : Search}
    (result : (node :: rest).foldl (explore dependencies levels path) (none, search) = (found, left)) :
    (found ≠ none ∧ dfs dependencies levels path search node = (found, left)) ∨
      ∃ reached, dfs dependencies levels path search node = (none, reached) ∧
        rest.foldl (explore dependencies levels path) (none, reached) = (found, left) := by
  rw [foldl_cons] at result
  cases step : explore dependencies levels path (none, search) node with
  | mk first reached =>
    rw [step] at result
    cases first with
    | none => exact .inr ⟨reached, step, result⟩
    | some cycle =>
      rw [foldl_explore_found] at result
      cases result
      exact .inl ⟨Option.some_ne_none cycle, step⟩

theorem foldl_explores {stack : List String} (each : ∀ {search left : Search} {node : String} {finished : List String},
      Explored dependencies nodes search finished → node ∈ nodes → search.inStack = stack →
      dfs dependencies levels path search node = (none, left) →
      ∃ more, Explored dependencies nodes left (finished ++ more) ∧ left.inStack = stack ∧ node ∈ finished ++ more)
    {rest : List String} {search left : Search} {finished : List String}
    (explored : Explored dependencies nodes search finished) (known : ∀ node ∈ rest, node ∈ nodes)
    (onStack : search.inStack = stack)
    (result : rest.foldl (explore dependencies levels path) (none, search) = (none, left)) :
    ∃ more, Explored dependencies nodes left (finished ++ more) ∧ left.inStack = stack ∧
      ∀ node ∈ rest, node ∈ finished ++ more := by
  induction rest generalizing search finished with
  | nil =>
    cases result
    exact ⟨[], by rw [append_nil]; exact explored, onStack, nofun⟩
  | cons node rest ih =>
    obtain ⟨cyclic, _⟩ | ⟨reached, step, further⟩ := foldl_explore_cons result
    · exact absurd rfl cyclic
    · obtain ⟨more, reachedExplored, sameStack, isNode⟩ := each explored (known node mem_cons_self) onStack step
      obtain ⟨others, leftExplored, stillStack, areRest⟩ := ih reachedExplored
        (fun other member => known other (mem_cons_of_mem _ member)) sameStack further
      rw [append_assoc] at leftExplored areRest
      refine ⟨more ++ others, leftExplored, stillStack, ?_⟩
      intro other member
      cases mem_cons.mp member with
      | inr later => exact areRest other later
      | inl same =>
        subst same
        rw [← append_assoc]
        exact mem_append_left _ isNode

theorem enter_leave (offStack : node ∉ search.inStack) : (search.enter node).inStack.erase node = search.inStack := by
  rw [Search.enter, erase_append_right _ offStack]
  simp

section

variable (closed : ∀ node ∈ nodes, ∀ dependency ∈ dependencies node, dependency ∈ nodes)
include closed

theorem dfs_explores {finished : List String} (explored : Explored dependencies nodes search finished)
    (known : node ∈ nodes) (enough : search.inStack.length + levels = nodes.length + 1)
    (result : dfs dependencies levels path search node = (none, left)) :
    ∃ more, Explored dependencies nodes left (finished ++ more) ∧ left.inStack = search.inStack ∧
      node ∈ finished ++ more := by
  induction levels generalizing path search left node finished with
  | zero =>
    have bounded : search.inStack.length ≤ nodes.length :=
      (subperm_of_subset explored.distinct explored.known).length_le
    omega
  | succ levels ih =>
    by_cases onStack : node ∈ search.inStack
    · rw [dfs_onStack onStack] at result
      cases result
    by_cases seen : node ∈ search.visited
    · rw [dfs_visited onStack seen] at result
      cases result
      have isFinished := (explored.visited node seen).resolve_left onStack
      exact ⟨[], by rw [append_nil]; exact explored, rfl, mem_append_left _ isFinished⟩
    rw [dfs_enters onStack seen] at result
    obtain ⟨reached, inner, rfl⟩ := leave_eq_none result
    have entered : Explored dependencies nodes (search.enter node) finished := by
      constructor
      · intro other member
        cases mem_append.mp member with
        | inl old => exact (explored.visited other old).imp_left (mem_append_left _)
        | inr new => exact Or.inl (mem_append_right _ new)
      · exact explored.ordered
      · have longer := explored.distinct.concat onStack
        rwa [concat_eq_append] at longer
      · intro other member
        cases mem_append.mp member with
        | inl old => exact explored.known other old
        | inr new => exact mem_singleton.mp new ▸ known
    obtain ⟨more, reachedExplored, stack, areFinished⟩ := foldl_explores (fun explored isNode sameStack result => by
        obtain ⟨more, found⟩ := ih explored isNode (by
          rw [sameStack, Search.enter, length_append, length_singleton]
          omega) result
        exact ⟨more, found.1, found.2.1.trans sameStack, found.2.2⟩)
      entered (closed node known) rfl inner
    have left : reached.inStack.erase node = search.inStack := stack ▸ enter_leave onStack
    refine ⟨more ++ [node], ?_, left, by simp⟩
    rw [← append_assoc]
    constructor
    · intro other member
      rw [left]
      cases reachedExplored.visited other member with
      | inr isFinished => exact Or.inr (mem_append_left _ isFinished)
      | inl isOn =>
        rw [stack] at isOn
        cases mem_append.mp isOn with
        | inl old => exact Or.inl old
        | inr new => exact Or.inr (mem_append_right _ new)
    · exact reachedExplored.ordered.append areFinished
    · rw [left]
      exact explored.distinct
    · rw [left]
      exact explored.known

def searchCycle (dependencies : String → List String) (levels : Nat) (starts : List String) : Option (List String) :=
  (starts.foldl (explore dependencies levels []) (none, {})).1

theorem searchCycle_finishes {starts : List String} (known : ∀ start ∈ starts, start ∈ nodes)
    (none : searchCycle dependencies (nodes.length + 1) starts = none) :
    ∃ finished, Ordered (fun other node => other ∈ dependencies node) finished ∧
      ∀ start ∈ starts, start ∈ finished := by
  have start : Explored dependencies nodes {} [] := ⟨nofun, Precedence.ordered_nil _, nodup_nil, nofun⟩
  cases searched : starts.foldl (explore dependencies (nodes.length + 1) []) (Option.none, {}) with
  | mk cycle left =>
    have result : cycle = Option.none := by rwa [searchCycle, searched] at none
    subst result
    obtain ⟨finished, explored, _, all⟩ := foldl_explores (fun explored isNode sameStack result => by
        obtain ⟨more, found⟩ := dfs_explores closed explored isNode (by
          rw [sameStack, length_nil, Nat.zero_add]) result
        exact ⟨more, found.1, found.2.1.trans sameStack, found.2.2⟩)
      start known rfl searched
    exact ⟨finished, explored.ordered, all⟩

theorem acyclic_of_detectCycleInGraph (inside : ∀ node, dependencies node ≠ [] → node ∈ nodes)
    (none : detectCycleInGraph nodes dependencies = none) :
    Acyclic fun node dependency => dependency ∈ dependencies node := by
  obtain ⟨finished, ordered, all⟩ := searchCycle_finishes closed (fun _ member => member) none
  have acyclic : Acyclic fun dependency node => dependency ∈ dependencies node :=
    Precedence.acyclic_of_ordered ordered fun node dependency depends =>
      all node (inside node (ne_nil_of_mem depends))
  exact acyclic.swap

end

end

def StepDependsOn (entries : List (String × WorkflowStep)) (name dependency : String) : Prop :=
  ∃ entry ∈ entries, entry.1 = name ∧ dependency ∈ entry.2.dependencies

variable {steps : List WorkflowStep}

theorem lookup_namedSteps (distinct : (stepNames steps).Nodup) {entry : String × WorkflowStep}
    (member : entry ∈ namedSteps steps) : (namedSteps steps).lookup entry.1 = some entry.2 := by
  exact Table.lookup_of_mem distinct member

theorem mem_dependenciesOf {name dependency : String} (depends : dependency ∈ dependenciesOf steps name) :
    StepDependsOn (namedSteps steps) name dependency := by
  unfold dependenciesOf at depends
  cases found : (namedSteps steps).lookup name with
  | none =>
    rw [found] at depends
    cases depends
  | some step =>
    rw [found] at depends
    exact ⟨(name, step), Table.mem_of_lookup found, rfl, depends⟩

variable {workflowName : String}

theorem validateStepGraph_acyclic (validated : validateStepGraph workflowName steps = .ok ()) :
    Acyclic (StepDependsOn (namedSteps steps)) := by
  obtain ⟨distinct, closed⟩ := validateStepGraph_accepts validated
  have searched : detectCycleInGraph (stepNames steps) (dependenciesOf steps) = none := by
    obtain ⟨_, _, onward⟩ := bind_eq_ok.mp validated
    obtain ⟨_, _, searching⟩ := bind_eq_ok.mp onward
    split at searching
    · cases searching
    · next none => exact none
  have acyclic := acyclic_of_detectCycleInGraph (fun name _ dependency depends => by
      obtain ⟨entry, listed, _, isDependency⟩ := mem_dependenciesOf depends
      exact closed entry listed dependency isDependency)
    (fun name some => by
      obtain ⟨dependency, depends⟩ := exists_mem_of_ne_nil _ some
      obtain ⟨entry, listed, isName, _⟩ := mem_dependenciesOf depends
      exact isName ▸ mem_map_of_mem listed)
    searched
  refine acyclic.mono fun name dependency isStep => ?_
  obtain ⟨entry, listed, isName, depends⟩ := isStep
  subst isName
  unfold dependenciesOf
  rw [lookup_namedSteps distinct listed]
  exact depends

theorem prepare_steps {catalog : Catalog} {context : Invocation} {projectId : String} {request : WorkflowInvokeRequest}
    {userId : Option String} (prepared : prepare catalog projectId workflowName request userId = .ok context) :
    ∃ steps, context.steps.map Prod.fst = namedSteps steps ∧ validateStepGraph workflowName steps = .ok () := by
  obtain ⟨workflow, _, onward⟩ := bind_eq_ok.mp prepared
  obtain ⟨project, _, onward⟩ := bind_eq_ok.mp onward
  obtain ⟨entries, stepped, onward⟩ := bind_eq_ok.mp onward
  have steps : context.steps = entries := by
    simp only [bind_eq_ok] at onward
    obtain ⟨_, _, _, _, _, _, _, _, _, _, _, _, _, _, _, _, _, _, _, _, _, _, same⟩ := onward
    cases same
    rfl
  exact ⟨workflow.val.steps.getD [], steps ▸ prepareSteps_spec stepped⟩

end EveHorizon.Workflows
