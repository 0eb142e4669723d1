import EveHorizon.Jobs.Tables
import EveHorizon.Library.Precedence

/-!
# The graph of a batch

A request for a batch of jobs, and the two walks over its graph: the search for a cycle
before anything is created, and the order in which the jobs are created.
-/

namespace EveHorizon.Batches

open Jobs (JobHints)
open Precedence List

inductive NodeType where
  | epic
  | task

structure BatchNode where
  key : String
  title : String
  description : Option String := none
  type : Option NodeType := none
  parent : Option String := none
  hints : Option JobHints := none

structure BatchDependency where
  job : String
  dependsOn : List String

structure CreateBatchRequest where
  idempotencyKey : Option String := none
  nodes : List BatchNode
  dependencies : List BatchDependency := []

def BatchNode.parentKey (node : BatchNode) : Option String := node.parent.filter fun parent => !parent.isEmpty

variable (request : CreateBatchRequest)

def CreateBatchRequest.keys : List String := request.nodes.map (·.key)

abbrev Graph : Type := List (String × List String)

variable (graph : Graph)

def Graph.neighbors (key : String) : List String := (graph.lookup key).getD []

inductive Mark where
  | unvisited
  | inProgress
  | done
  deriving DecidableEq

/-- The state of a depth-first search. A frame holds the neighbors still to be looked at. -/
structure Search where
  mark : String → Mark
  stack : List (String × List String)

def setMark (mark : String → Mark) (key : String) (new : Mark) : String → Mark :=
  fun other => if other = key then new else mark other

/-- The search with its recursion on a stack; `none` when the rounds are over. -/
def visit (graph : Graph) : Nat → Search → Option (Bool × (String → Mark))
  | 0, _ => none
  | _ + 1, ⟨mark, []⟩ => some (false, mark)
  | rounds + 1, ⟨mark, (node, []) :: stack⟩ => visit graph rounds ⟨setMark mark node .done, stack⟩
  | rounds + 1, ⟨mark, (node, next :: rest) :: stack⟩ =>
    match mark next with
    | .inProgress => some (true, mark)
    | .unvisited =>
      visit graph rounds
        ⟨setMark mark next .inProgress, (next, Graph.neighbors graph next) :: (node, rest) :: stack⟩
    | .done => visit graph rounds ⟨mark, (node, rest) :: stack⟩

def searchFrom (graph : Graph) (rounds : Nat) : List String → (String → Mark) → Option Bool
  | [], _ => some false
  | start :: rest, mark =>
    if mark start ≠ .unvisited then searchFrom graph rounds rest mark
    else
      match visit graph rounds
        ⟨setMark mark start .inProgress, [(start, Graph.neighbors graph start)]⟩ with
      | none => none
      | some (true, _) => some true
      | some (false, mark) => searchFrom graph rounds rest mark

def nodeRounds (key : String) : Nat := 2 * (Graph.neighbors graph key).length + 1

def searchRounds : Nat := ((graph.map Prod.fst).map (nodeRounds graph)).sum + 1

def hasCycle : Bool :=
  (searchFrom graph (searchRounds graph) (graph.map Prod.fst) fun _ => .unvisited).getD true

def edges : List (String × String) :=
  (request.nodes.filterMap fun node => node.parentKey.map fun parent => (parent, node.key)) ++
    request.dependencies.flatMap fun dependency =>
      dependency.dependsOn.map fun dependsOn => (dependsOn, dependency.job)

variable (order : List (String × String))

def dependents (key : String) : List String :=
  (order.filter (·.1 == key)).map Prod.snd

structure Sorting where
  inDegree : String → Int
  queue : List String
  sorted : List String

def relax (state : (String → Int) × List String) (neighbor : String) : (String → Int) × List String :=
  let newDegree := state.1 neighbor - 1
  (fun key => if key = neighbor then newDegree else state.1 key,
    if newDegree = 0 then state.2 ++ [neighbor] else state.2)

def drain (order : List (String × String)) : Nat → Sorting → List String
  | 0, state => state.sorted
  | _ + 1, ⟨_, [], sorted⟩ => sorted
  | rounds + 1, ⟨inDegree, node :: queue, sorted⟩ =>
    let relaxed := (dependents order node).foldl relax (inDegree, queue)
    drain order rounds ⟨relaxed.1, relaxed.2, sorted ++ [node]⟩

def initialDegree (key : String) : Int := order.countP (·.2 == key)

/-- Kahn's algorithm: a key is queued once all that precede it are sorted. -/
def topologicalSort : List String :=
  drain (edges request) request.keys.length
    { inDegree := initialDegree (edges request)
      queue := request.keys.filter fun key => initialDegree (edges request) key == 0
      sorted := [] }

/-! ## What a search without a cycle finds -/

variable {node key : String} {rounds : Nat}

section

variable {graph : Graph}

def Needs (graph : Graph) (other key : String) : Prop := other ∈ Graph.neighbors graph key

/-- What a frame has looked at is finished, or it is the frame above that looks at it. -/
def Pending (graph : Graph) (finished : List String) : Option String → List (String × List String) → Prop
  | _, [] => True
  | above, (node, rest) :: stack =>
    (∀ neighbor ∈ Graph.neighbors graph node, neighbor ∈ rest ∨ neighbor ∈ finished ∨ above = some neighbor) ∧
    Pending graph finished (some node) stack

structure Explored (graph : Graph) (mark : String → Mark) (finished : List String) : Prop where
  done : ∀ key, mark key = .done → key ∈ finished
  ordered : Ordered (Needs graph) finished

variable {mark : String → Mark}

variable {new : Mark}

theorem Explored.setMark {finished : List String} (explored : Explored graph mark finished) (open_ : new ≠ .done) :
    Explored graph (setMark mark key new) finished := by
  refine ⟨?_, explored.ordered⟩
  intro other isDone
  unfold Batches.setMark at isDone
  split at isDone
  · exact absurd isDone open_
  · exact explored.done other isDone

theorem Explored.finish {finished : List String} (explored : Explored graph mark finished)
    (preceded : ∀ neighbor ∈ Graph.neighbors graph node, neighbor ∈ finished) :
    Explored graph (Batches.setMark mark node .done) (finished ++ [node]) := by
  constructor
  · intro other isDone
    unfold Batches.setMark at isDone
    split at isDone
    · next same => exact mem_append_right _ (mem_singleton.mpr same)
    · exact mem_append_left _ (explored.done other isDone)
  · exact explored.ordered.append preceded

variable {stack : List (String × List String)}

theorem Pending.mono {finished more : List String} (within : finished ⊆ more) {above : Option String}
    (pending : Pending graph finished above stack) : Pending graph more above stack := by
  induction stack generalizing above with
  | nil => trivial
  | cons frame stack ih =>
    obtain ⟨looked, below⟩ := pending
    refine ⟨?_, ih below⟩
    intro neighbor needed
    exact (looked neighbor needed).imp_right fun rest => rest.imp_left fun old => within old

theorem Pending.close {finished : List String} (member : node ∈ finished)
    (pending : Pending graph finished (some node) stack) : Pending graph finished none stack := by
  cases stack with
  | nil => trivial
  | cons frame stack =>
    obtain ⟨looked, below⟩ := pending
    refine ⟨?_, below⟩
    intro neighbor needed
    rcases looked neighbor needed with left | old | same
    · exact .inl left
    · exact .inr (.inl old)
    · cases same
      exact .inr (.inl member)

def Held (mark : String → Mark) (stack : List (String × List String)) : Prop :=
  ∀ key, mark key = .inProgress → key ∈ stack.map Prod.fst

variable {rest : List String}

theorem Held.pop (held : Held mark ((node, rest) :: stack)) : Held (setMark mark node .done) stack := by
  intro key inProgress
  unfold Batches.setMark at inProgress
  split at inProgress
  · cases inProgress
  · next other => exact (mem_cons.mp (held key inProgress)).resolve_left other

theorem Held.push {next : String} (held : Held mark stack) :
    Held (setMark mark next .inProgress) ((next, rest) :: stack) := by
  intro key inProgress
  unfold Batches.setMark at inProgress
  split at inProgress
  · next same => exact mem_cons.mpr (.inl same)
  · exact mem_cons_of_mem _ (held key inProgress)

theorem visit_finishes {search : Search} {finished : List String} (explored : Explored graph search.mark finished)
    (held : Held search.mark search.stack) (pending : Pending graph finished none search.stack)
    (found : visit graph rounds search = some (false, mark)) :
    ∃ more, Explored graph mark (finished ++ more) ∧ Held mark [] ∧
      ∀ frame ∈ search.stack, frame.1 ∈ finished ++ more := by
  induction rounds generalizing search finished with
  | zero => cases found
  | succ rounds ih =>
    obtain ⟨marked, stack⟩ := search
    match stack with
    | [] =>
      cases found
      exact ⟨[], by simpa using explored, held, by simp⟩
    | (node, []) :: stack =>
      obtain ⟨looked, below⟩ := pending
      have preceded : ∀ neighbor ∈ Graph.neighbors graph node, neighbor ∈ finished := by
        intro neighbor needed
        simpa using looked neighbor needed
      have closed : Pending graph (finished ++ [node]) none stack := (below.mono (subset_append_left _ _)).close
          (mem_append_right _ (mem_singleton_self node))
      obtain ⟨more, later, empty, all⟩ := ih (explored.finish preceded) held.pop closed found
      rw [append_assoc] at later all
      refine ⟨[node] ++ more, later, empty, ?_⟩
      intro frame member
      rcases mem_cons.mp member with rfl | other
      · simp
      · exact all frame other
    | (node, next :: rest) :: stack =>
      obtain ⟨looked, below⟩ := pending
      have kept : Held marked ((node, rest) :: stack) := held
      cases state : marked next with
      | inProgress => simp [visit, state] at found
      | unvisited =>
        simp only [visit, state] at found
        have pushed : Pending graph finished none ((next, Graph.neighbors graph next) :: (node, rest) :: stack) := by
          refine ⟨fun neighbor needed => .inl needed, ?_, below⟩
          intro neighbor needed
          rcases looked neighbor needed with left | old | same
          · rcases mem_cons.mp left with rfl | later
            · exact .inr (.inr rfl)
            · exact .inl later
          · exact .inr (.inl old)
          · cases same
        obtain ⟨more, later, empty, all⟩ := ih (explored.setMark (by decide)) kept.push pushed found
        refine ⟨more, later, empty, ?_⟩
        intro frame member
        rcases mem_cons.mp member with rfl | other
        · exact all (node, rest) (by simp)
        · exact all frame (by simp [other])
      | done =>
        simp only [visit, state] at found
        have skipped : Pending graph finished none ((node, rest) :: stack) := by
          refine ⟨?_, below⟩
          intro neighbor needed
          rcases looked neighbor needed with left | old | same
          · rcases mem_cons.mp left with rfl | later
            · exact .inr (.inl (explored.done neighbor state))
            · exact .inl later
          · exact .inr (.inl old)
          · cases same
        obtain ⟨more, later, empty, all⟩ := @ih ⟨marked, (node, rest) :: stack⟩ finished explored kept skipped found
        refine ⟨more, later, empty, ?_⟩
        intro frame member
        rcases mem_cons.mp member with rfl | other
        · exact all (node, rest) (by simp)
        · exact all frame (by simp [other])

variable {keys : List String}

theorem searchFrom_finishes {finished : List String} (explored : Explored graph mark finished) (held : Held mark [])
    (found : searchFrom graph rounds keys mark = some false) :
    ∃ more, Ordered (Needs graph) (finished ++ more) ∧ ∀ key ∈ keys, key ∈ finished ++ more := by
  induction keys generalizing mark finished with
  | nil => exact ⟨[], by simpa using explored.ordered, by simp⟩
  | cons start rest ih =>
    rw [searchFrom] at found
    split at found
    · next visited =>
        obtain ⟨more, ordered, all⟩ := ih explored held found
        refine ⟨more, ordered, ?_⟩
        intro key member
        rcases mem_cons.mp member with rfl | other
        · cases state : mark key with
          | unvisited => exact absurd state visited
          | inProgress => cases held key state
          | done => exact mem_append_left _ (explored.done key state)
        · exact all key other
    · split at found
      · cases found
      · cases found
      · next marked ended =>
          have pending : Pending graph finished none [(start, Graph.neighbors graph start)] :=
            ⟨fun neighbor needed => .inl needed, trivial⟩
          obtain ⟨more, later, empty, all⟩ := visit_finishes (explored.setMark (by decide)) held.push pending ended
          obtain ⟨further, ordered, others⟩ := ih later empty found
          rw [append_assoc] at ordered others
          refine ⟨more ++ further, ordered, ?_⟩
          intro key member
          rcases mem_cons.mp member with rfl | other
          · rw [← append_assoc]
            exact mem_append_left _ (all (key, Graph.neighbors graph key) (by simp))
          · exact others key other

theorem ordered_of_acyclic (acyclic : hasCycle graph = false) :
    ∃ listed, Ordered (Needs graph) listed ∧ ∀ key ∈ graph.map Prod.fst, key ∈ listed := by
  have found : searchFrom graph (searchRounds graph) (graph.map Prod.fst) (fun _ => .unvisited) = some false := by
    unfold hasCycle at acyclic
    cases ended : searchFrom graph (searchRounds graph) (graph.map Prod.fst) fun _ => .unvisited with
    | none => simp [ended] at acyclic
    | some cycle => simp_all
  have fresh : Explored graph (fun _ => .unvisited) [] := ⟨by simp, ordered_nil _⟩
  obtain ⟨listed, ordered, all⟩ := searchFrom_finishes fresh (by simp [Held]) found
  exact ⟨listed, by simpa using ordered, by simpa using all⟩

def stackRounds (stack : List (String × List String)) : Nat :=
  (stack.map fun frame => 2 * frame.2.length + 1).sum

def unvisitedRounds (graph : Graph) (mark : String → Mark) (keys : List String) : Nat :=
  ((keys.filter fun key => mark key == .unvisited).map (nodeRounds graph)).sum

theorem unvisitedRounds_le (graph : Graph) (mark : String → Mark) (key : String) (visited : new ≠ .unvisited)
    (keys : List String) : unvisitedRounds graph (setMark mark key new) keys ≤ unvisitedRounds graph mark keys := by
  induction keys with
  | nil => exact Nat.le_refl _
  | cons other keys ih =>
    unfold unvisitedRounds at ih ⊢
    by_cases same : other = key
    · have left : (setMark mark key new other == .unvisited) = false := by
        simp [setMark, same, visited]
      rw [filter_cons, left]
      refine ih.trans ?_
      rw [filter_cons]
      split <;> simp
    · have left : setMark mark key new other = mark other := by simp [setMark, same]
      rw [filter_cons, filter_cons, left]
      split
      · simpa using ih
      · exact ih

theorem unvisitedRounds_lt (graph : Graph) (visited : new ≠ .unvisited) (unvisited : mark key = .unvisited)
    (member : key ∈ keys) :
    unvisitedRounds graph (setMark mark key new) keys + nodeRounds graph key ≤ unvisitedRounds graph mark keys := by
  induction keys with
  | nil => cases member
  | cons other keys ih =>
    by_cases same : other = key
    · subst same
      have rest := unvisitedRounds_le graph mark other visited keys
      unfold unvisitedRounds at rest ⊢
      simp [setMark, visited, unvisited] at rest ⊢
      omega
    · have rest := ih ((mem_cons.mp member).resolve_left (Ne.symm same))
      have left : setMark mark key new other = mark other := by simp [setMark, same]
      unfold unvisitedRounds at rest ⊢
      rw [filter_cons, filter_cons, left]
      split
      · simp only [map_cons, sum_cons]
        omega
      · exact rest

theorem neighbors_of_not_mem (unknown : key ∉ graph.map Prod.fst) : Graph.neighbors graph key = [] := by
  have missing : graph.lookup key = none := by
    rw [lookup_eq_none_iff]
    intro entry member
    rw [bne_iff_ne]
    exact fun same => unknown (mem_map.mpr ⟨entry, member, same.symm⟩)
  rw [Graph.neighbors, missing]
  rfl

theorem visit_ends {rounds : Nat} {search : Search}
    (enough : stackRounds search.stack + unvisitedRounds graph search.mark (graph.map Prod.fst) < rounds) :
    ∃ cycle mark, visit graph rounds search = some (cycle, mark) ∧ unvisitedRounds graph mark (graph.map Prod.fst) ≤
        unvisitedRounds graph search.mark (graph.map Prod.fst) := by
  induction rounds generalizing search with
  | zero => omega
  | succ rounds ih =>
    obtain ⟨marked, stack⟩ := search
    match stack with
    | [] => exact ⟨false, marked, rfl, Nat.le_refl _⟩
    | (node, []) :: stack =>
      have fewer := unvisitedRounds_le graph marked node (by decide : Mark.done ≠ .unvisited) (graph.map Prod.fst)
      obtain ⟨cycle, mark, ended, left⟩ := @ih ⟨setMark marked node .done, stack⟩ (by
        simp only [stackRounds, map_cons, sum_cons, length_nil] at enough ⊢
        omega)
      exact ⟨cycle, mark, ended, left.trans fewer⟩
    | (node, next :: rest) :: stack =>
      simp only [stackRounds, map_cons, sum_cons, length_cons] at enough
      cases state : marked next with
      | inProgress => exact ⟨true, marked, by simp [visit, state], Nat.le_refl _⟩
      | unvisited =>
        have fewer := unvisitedRounds_le graph marked next
          (by decide : Mark.inProgress ≠ .unvisited) (graph.map Prod.fst)
        have pays : nodeRounds graph next +
            unvisitedRounds graph (setMark marked next .inProgress) (graph.map Prod.fst) ≤
              unvisitedRounds graph marked (graph.map Prod.fst) + 1 := by
          by_cases known : next ∈ graph.map Prod.fst
          · have less := unvisitedRounds_lt graph (by decide : Mark.inProgress ≠ .unvisited) state known
            omega
          · simp only [nodeRounds, neighbors_of_not_mem known, length_nil]
            omega
        obtain ⟨cycle, mark, ended, left⟩ := @ih ⟨setMark marked next .inProgress,
          (next, Graph.neighbors graph next) :: (node, rest) :: stack⟩ (by
            simp only [stackRounds, nodeRounds, map_cons, sum_cons] at pays ⊢
            omega)
        exact ⟨cycle, mark, by simpa only [visit, state] using ended, left.trans fewer⟩
      | done =>
        obtain ⟨cycle, mark, ended, left⟩ := @ih ⟨marked, (node, rest) :: stack⟩ (by
          simp only [stackRounds, map_cons, sum_cons] at enough ⊢
          omega)
        exact ⟨cycle, mark, by simpa only [visit, state] using ended, left⟩

theorem searchFrom_ends (known : keys ⊆ graph.map Prod.fst)
    (enough : unvisitedRounds graph mark (graph.map Prod.fst) < rounds) :
    ∃ cycle, searchFrom graph rounds keys mark = some cycle := by
  induction keys generalizing mark with
  | nil => exact ⟨false, rfl⟩
  | cons start rest ih =>
    obtain ⟨listed, others⟩ := cons_subset.mp known
    rw [searchFrom]
    split
    · exact ih others enough
    · next unvisited =>
        have less := unvisitedRounds_lt graph (by decide : Mark.inProgress ≠ .unvisited) (not_not.mp unvisited) listed
        obtain ⟨cycle, marked, ended, left⟩ := @visit_ends graph rounds
          ⟨setMark mark start .inProgress, [(start, Graph.neighbors graph start)]⟩ (by
            simp only [stackRounds, nodeRounds, map_cons, map_nil, sum_cons, sum_nil] at less ⊢
            omega)
        rw [ended]
        cases cycle with
        | true => exact ⟨true, rfl⟩
        | false =>
          apply ih others
          simp only at left
          omega

theorem search_ends (graph : Graph) :
    ∃ cycle, searchFrom graph (searchRounds graph) (graph.map Prod.fst) (fun _ => .unvisited) = some cycle := by
  apply searchFrom_ends (List.Subset.refl _)
  have all : (graph.map Prod.fst).filter (fun _ => Mark.unvisited == Mark.unvisited) =
      graph.map Prod.fst := filter_eq_self.mpr fun _ _ => rfl
  rw [unvisitedRounds, all, searchRounds]
  exact Nat.lt_succ_self _

end

/-! ## What the sort lists -/

section

variable {order : List (String × String)} {keys : List String}

variable (order)

def Precedes (other key : String) : Prop := (other, key) ∈ order

def openEdges (sorted : List String) (key : String) : Nat :=
  order.countP fun edge => edge.2 == key && !sorted.contains edge.1

variable {order}

structure Sorted (order : List (String × String)) (keys : List String) (state : Sorting) : Prop where
  degree : ∀ key, state.inDegree key = openEdges order state.sorted key
  listed : ∀ key, key ∈ state.sorted ++ state.queue ↔ key ∈ keys ∧ state.inDegree key = 0
  distinct : (state.sorted ++ state.queue).Nodup
  ordered : Ordered (Precedes order) state.sorted

variable {sorted : List String}

theorem openEdges_eq_zero : openEdges order sorted key = 0 ↔ ∀ other, Precedes order other key → other ∈ sorted := by
  rw [openEdges, countP_eq_zero]
  constructor
  · intro none other precedes
    simpa using none (other, key) precedes
  · rintro all ⟨other, target⟩ member
    simp only [Bool.and_eq_true, beq_iff_eq, Bool.not_eq_true', not_and, Bool.not_eq_false]
    rintro rfl
    exact contains_iff_mem.mpr (all other member)

theorem count_dependents (node key : String) :
    (dependents order node).count key = order.countP fun edge => edge.1 == node && edge.2 == key := by
  rw [dependents, List.count, countP_map, countP_filter]
  apply countP_congr
  simp [and_comm]

theorem openEdges_append (unsorted : node ∉ sorted) (key : String) :
    openEdges order sorted key = openEdges order (sorted ++ [node]) key + (dependents order node).count key := by
  rw [count_dependents]
  unfold openEdges
  induction order with
  | nil => rfl
  | cons edge order ih =>
    obtain ⟨source, target⟩ := edge
    simp only [countP_cons, ih]
    by_cases same : source = node
    · subst same
      by_cases hit : target = key
      · simp [hit, unsorted]
        omega
      · simp [hit]
    · by_cases hit : target = key
      · simp [hit, same]
        omega
      · simp [hit]

theorem foldl_relax (neighbors : List String) (inDegree : String → Int) (queue : List String) :
    ∃ added, neighbors.foldl relax (inDegree, queue) =
        (fun key => inDegree key - neighbors.count key, queue ++ added) ∧ added.Nodup ∧
      ∀ key, key ∈ added ↔ 0 < inDegree key ∧ inDegree key ≤ neighbors.count key := by
  induction neighbors generalizing inDegree queue with
  | nil =>
    refine ⟨[], by simp, nodup_nil, ?_⟩
    intro key
    simp
  | cons neighbor neighbors ih =>
    rw [foldl_cons, relax]
    obtain ⟨added, folded, distinct, hit⟩ := ih
      (fun key => if key = neighbor then inDegree neighbor - 1 else inDegree key)
      (if inDegree neighbor - 1 = 0 then queue ++ [neighbor] else queue)
    have degrees : (fun key => (if key = neighbor then inDegree neighbor - 1 else inDegree key) -
          (neighbors.count key : Int)) = fun key => inDegree key - ((neighbor :: neighbors).count key : Int) := by
      funext key
      by_cases same : key = neighbor
      · subst same
        simp
        omega
      · simp [same, Ne.symm same]
    rw [degrees] at folded
    by_cases zero : inDegree neighbor - 1 = 0
    · rw [if_pos zero] at folded
      refine ⟨neighbor :: added, ?_, ?_, ?_⟩
      · simpa [zero] using folded
      · refine nodup_cons.mpr ⟨?_, distinct⟩
        rw [hit]
        simp [zero]
      · intro key
        rw [mem_cons, hit]
        by_cases same : key = neighbor
        · subst same
          simp
          omega
        · simp [same, Ne.symm same]
    · rw [if_neg zero] at folded
      refine ⟨added, ?_, distinct, ?_⟩
      · simpa [zero] using folded
      · intro key
        rw [hit]
        by_cases same : key = neighbor
        · subst same
          simp
          omega
        · simp [same, Ne.symm same]

theorem Sorted.pop {inDegree : String → Int} {queue : List String}
    (state : Sorted order keys ⟨inDegree, node :: queue, sorted⟩) (closed : ∀ edge ∈ order, edge.2 ∈ keys) :
    Sorted order keys ⟨((dependents order node).foldl relax (inDegree, queue)).1,
        ((dependents order node).foldl relax (inDegree, queue)).2, sorted ++ [node]⟩ := by
  obtain ⟨degree, listed, distinct, ordered⟩ := state
  simp only at degree listed distinct ordered
  have unsorted : node ∉ sorted := by
    intro member
    exact (disjoint_of_nodup_append distinct) member mem_cons_self
  have isZero : inDegree node = 0 := ((listed node).mp (mem_append_right _ mem_cons_self)).2
  obtain ⟨added, folded, addedDistinct, hit⟩ := foldl_relax (dependents order node) inDegree queue
  rw [folded]
  have step : ∀ key, inDegree key - ((dependents order node).count key : Int) =
      openEdges order (sorted ++ [node]) key := by
    intro key
    rw [degree, openEdges_append unsorted key]
    omega
  have addedKeys : ∀ key ∈ added, key ∈ keys ∧ 0 < inDegree key := by
    intro key member
    obtain ⟨positive, bounded⟩ := (hit key).mp member
    have some : 0 < (dependents order node).count key := by omega
    obtain ⟨edge, inOrder, rfl⟩ := mem_map.mp (count_pos_iff.mp some)
    exact ⟨closed edge (mem_of_mem_filter inOrder), positive⟩
  constructor
  · intro key
    exact step key
  · intro key
    have known := listed key
    simp only [mem_append, mem_cons, not_mem_nil, or_false] at known ⊢
    have count := step key
    constructor
    · rintro ((old | rfl) | queued | new)
      · obtain ⟨inKeys, zero⟩ := known.mp (.inl old)
        exact ⟨inKeys, by omega⟩
      · exact ⟨(known.mp (.inr (.inl rfl))).1, by omega⟩
      · obtain ⟨inKeys, zero⟩ := known.mp (.inr (.inr queued))
        exact ⟨inKeys, by omega⟩
      · obtain ⟨positive, bounded⟩ := (hit key).mp new
        exact ⟨(addedKeys key new).1, by omega⟩
    · rintro ⟨inKeys, zero⟩
      by_cases positive : 0 < inDegree key
      · exact .inr (.inr ((hit key).mpr ⟨positive, by omega⟩))
      · have wasZero : inDegree key = 0 := by
          have nonnegative := degree key
          omega
        rcases known.mpr ⟨inKeys, wasZero⟩ with old | same | queued
        · exact .inl (.inl old)
        · exact .inl (.inr same)
        · exact .inr (.inl queued)
  · have apart : ∀ key ∈ sorted ++ node :: queue, key ∉ added := by
      intro key member new
      have zero := ((listed key).mp member).2
      have positive := (addedKeys key new).2
      omega
    rw [← append_assoc, append_assoc sorted, singleton_append]
    exact distinct.append addedDistinct apart
  · apply ordered.append
    intro other precedes
    have none : openEdges order sorted node = 0 := by
      have zero := degree node
      omega
    exact openEdges_eq_zero.mp none other precedes

/-- A sort lists distinct keys, each after those that precede it; it lists all of them
unless some precede each other. -/
structure SortedKeys (order : List (String × String)) (keys sorted : List String) : Prop where
  within : sorted ⊆ keys
  distinct : sorted.Nodup
  ordered : Ordered (Precedes order) sorted
  complete : (∀ chosen : String → Prop, (∃ key ∈ keys, chosen key) →
    ∃ key ∈ keys, chosen key ∧ ∀ other, Precedes order other key → ¬ chosen other) → keys ⊆ sorted

theorem drain_sorts (closed : ∀ edge ∈ order, edge.1 ∈ keys ∧ edge.2 ∈ keys) {state : Sorting}
    (sorted : Sorted order keys state) (enough : keys.length ≤ state.sorted.length + rounds) :
    SortedKeys order keys (drain order rounds state) := by
  induction rounds generalizing state with
  | zero =>
    have within : state.sorted ⊆ keys := fun key member =>
      ((sorted.listed key).mp (mem_append_left _ member)).1
    have distinct := (nodup_append.mp sorted.distinct).1
    refine ⟨within, distinct, sorted.ordered, fun _ => ?_⟩
    have same := (subperm_of_subset distinct within).perm_of_length_le enough
    exact same.symm.subset
  | succ rounds ih =>
    obtain ⟨inDegree, queue, listed⟩ := state
    cases queue with
    | nil =>
      have within : listed ⊆ keys := fun key member =>
        ((sorted.listed key).mp (mem_append_left _ member)).1
      refine ⟨within, (nodup_append.mp sorted.distinct).1, sorted.ordered, ?_⟩
      intro acyclic key member
      by_contra unlisted
      obtain ⟨first, inKeys, missing, alone⟩ := acyclic (· ∉ listed) ⟨key, member, unlisted⟩
      have preceded : ∀ other, Precedes order other first → other ∈ listed := by
        intro other precedes
        exact not_not.mp (alone other precedes)
      have zero := sorted.degree first
      rw [openEdges_eq_zero.mpr preceded] at zero
      have found := (sorted.listed first).mpr ⟨inKeys, zero⟩
      rw [append_nil] at found
      exact missing found
    | cons node queue =>
      apply ih (sorted.pop fun edge member => (closed edge member).2)
      simp only [length_append, length_singleton] at enough ⊢
      omega

end

/-! ## The order of a request -/

/-- No key is listed twice, and every key that is mentioned is listed. -/
structure Closed (request : CreateBatchRequest) : Prop where
  distinct : request.keys.Nodup
  parents : ∀ node ∈ request.nodes, ∀ parent ∈ node.parentKey, parent ∈ request.keys
  jobs : ∀ dependency ∈ request.dependencies, dependency.job ∈ request.keys
  dependsOn : ∀ dependency ∈ request.dependencies, ∀ key ∈ dependency.dependsOn, key ∈ request.keys

def batchGraph (request : CreateBatchRequest) : Graph :=
  request.keys.map fun key =>
    (key, (request.dependencies.filter (·.job == key)).flatMap (·.dependsOn) ++
      (request.nodes.filter (·.key == key)).filterMap (·.parentKey))

variable {request : CreateBatchRequest}

theorem Closed.edges (closed : Closed request) :
    ∀ edge ∈ edges request, edge.1 ∈ request.keys ∧ edge.2 ∈ request.keys := by
  rintro ⟨other, key⟩ member
  rcases mem_append.mp member with parental | dependency
  · obtain ⟨node, listed, found⟩ := mem_filterMap.mp parental
    obtain ⟨parent, given, same⟩ := Option.map_eq_some_iff.mp found
    cases same
    exact ⟨closed.parents node listed _ given, mem_map_of_mem listed⟩
  · obtain ⟨entry, listed, found⟩ := mem_flatMap.mp dependency
    obtain ⟨dependsOn, given, same⟩ := mem_map.mp found
    cases same
    exact ⟨closed.dependsOn entry listed _ given, closed.jobs entry listed⟩

theorem keys_batchGraph : (batchGraph request).map Prod.fst = request.keys := by
  rw [batchGraph, map_map]
  exact map_id _

theorem needs_of_precedes (closed : Closed request) {other : String} (precedes : Precedes (edges request) other key) :
    Needs (batchGraph request) other key := by
  have known := (closed.edges _ precedes).2
  have found : (batchGraph request).lookup key =
      some ((request.dependencies.filter (·.job == key)).flatMap (·.dependsOn) ++
        (request.nodes.filter (·.key == key)).filterMap (·.parentKey)) := by
    unfold batchGraph
    generalize request.keys = keys at known
    induction keys with
    | nil => cases known
    | cons first keys ih =>
      rw [map_cons, lookup_cons]
      by_cases same : key = first
      · subst same
        simp
      · rw [beq_eq_false_iff_ne.mpr same]
        exact ih ((mem_cons.mp known).resolve_left same)
  rw [Needs, Graph.neighbors, found, Option.getD_some]
  rcases mem_append.mp precedes with parental | dependency
  · obtain ⟨node, listed, child⟩ := mem_filterMap.mp parental
    obtain ⟨parent, given, same⟩ := Option.map_eq_some_iff.mp child
    cases same
    apply mem_append_right
    exact mem_filterMap.mpr ⟨node, mem_filter.mpr ⟨listed, beq_self_eq_true _⟩, given⟩
  · obtain ⟨entry, listed, depends⟩ := mem_flatMap.mp dependency
    obtain ⟨dependsOn, given, same⟩ := mem_map.mp depends
    cases same
    apply mem_append_left
    exact mem_flatMap.mpr ⟨entry, mem_filter.mpr ⟨listed, beq_self_eq_true _⟩, given⟩

/-- The nodes of a request without a cycle are all sorted, each after its parent and its
dependencies. -/
structure CreationOrder (request : CreateBatchRequest) (sorted : List String) : Prop where
  distinct : sorted.Nodup
  same : ∀ key, key ∈ sorted ↔ key ∈ request.keys
  ordered : Ordered (Precedes (edges request)) sorted

theorem topologicalSort_order (closed : Closed request) (acyclic : hasCycle (batchGraph request) = false) :
    CreationOrder request (topologicalSort request) := by
  have start : Sorted (edges request) request.keys
      { inDegree := initialDegree (edges request)
        queue := request.keys.filter fun key => initialDegree (edges request) key == 0
        sorted := [] } := by
    constructor
    · intro key
      simp [initialDegree, openEdges]
    · intro key
      simp
    · exact closed.distinct.filter _
    · exact ordered_nil _
  obtain ⟨within, distinct, ordered, complete⟩ :=
    drain_sorts closed.edges start (by simp : request.keys.length ≤ 0 + request.keys.length)
  refine ⟨distinct, fun key => ⟨fun member => within member, fun member => ?_⟩, ordered⟩
  refine complete ?_ member
  intro chosen some
  obtain ⟨listed, inOrder, all⟩ := ordered_of_acyclic acyclic
  rw [keys_batchGraph] at all
  obtain ⟨first, inKeys, isChosen⟩ := some
  obtain ⟨key, _, ⟨isKey, found⟩, alone⟩ := @Ordered.first _ _ _ inOrder (fun key =>
    key ∈ request.keys ∧ chosen key) ⟨first, all first inKeys, inKeys, isChosen⟩
  refine ⟨key, isKey, found, ?_⟩
  intro other precedes isOther
  exact alone other (needs_of_precedes closed precedes) ⟨(closed.edges _ precedes).1, isOther⟩

end EveHorizon.Batches
