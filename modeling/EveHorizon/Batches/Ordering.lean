import EveHorizon.Batches.Creation

/-!
# Cycles and the order of creation

The search reports a cycle exactly where the parents and the dependencies of a request have one,
and a request that is valid is sorted whole.
-/

namespace EveHorizon.Batches

open List
open Precedence (Ordered Acyclic)

section

variable {graph : Graph} {mark : String → Mark} {stack : List (String × List String)} {rounds : Nat}

def DependsOn (graph : Graph) (key other : String) : Prop := Needs graph other key

def Leading (graph : Graph) : List (String × List String) → Prop
  | [] => True
  | (node, rest) :: stack =>
    (∀ neighbor ∈ rest, DependsOn graph node neighbor) ∧
      (∀ frame ∈ stack, Relation.TransGen (DependsOn graph) frame.1 node) ∧ Leading graph stack

variable {rest : List String} {node next : String}

theorem Leading.push (needed : DependsOn graph node next) (leading : Leading graph ((node, rest) :: stack)) :
    Leading graph ((next, Graph.neighbors graph next) :: (node, rest) :: stack) := by
  refine ⟨fun neighbor member => member, fun frame member => ?_, leading⟩
  cases mem_cons.mp member with
  | inl same => exact same ▸ .single needed
  | inr below => exact (leading.2.1 frame below).tail needed

theorem Leading.cycle (needed : DependsOn graph node next) (leading : Leading graph ((node, rest) :: stack))
    (held : Held mark ((node, rest) :: stack)) (open_ : mark next = .inProgress) :
    ∃ key, Relation.TransGen (DependsOn graph) key key := by
  obtain ⟨frame, member, isNext⟩ := mem_map.mp (held next open_)
  cases mem_cons.mp member with
  | inl same =>
    subst same
    have same : node = next := isNext
    exact ⟨node, .single (same ▸ needed)⟩
  | inr below =>
    have back := leading.2.1 frame below
    rw [isNext] at back
    exact ⟨next, back.tail needed⟩

theorem visit_cycle {search : Search} (held : Held search.mark search.stack)
    (leading : Leading graph search.stack) (found : visit graph rounds search = some (true, mark)) :
    ∃ key, Relation.TransGen (DependsOn graph) key key := by
  induction rounds generalizing search with
  | zero => cases found
  | succ rounds ih =>
    obtain ⟨marked, stack⟩ := search
    match stack with
    | [] => cases found
    | (node, []) :: stack => exact ih held.pop leading.2.2 found
    | (node, next :: rest) :: stack =>
      have needed : DependsOn graph node next := leading.1 next mem_cons_self
      have skipped : Leading graph ((node, rest) :: stack) :=
        ⟨fun neighbor member => leading.1 neighbor (mem_cons_of_mem _ member), leading.2⟩
      have kept : Held marked ((node, rest) :: stack) := held
      cases state : marked next with
      | inProgress => exact skipped.cycle needed kept state
      | unvisited =>
        simp only [visit, state] at found
        exact ih kept.push (skipped.push needed) found
      | done =>
        simp only [visit, state] at found
        exact @ih ⟨marked, (node, rest) :: stack⟩ kept skipped found

theorem searchFrom_cycle {keys finished : List String} (explored : Explored graph mark finished)
    (held : Held mark []) (found : searchFrom graph rounds keys mark = some true) :
    ∃ key, Relation.TransGen (DependsOn graph) key key := by
  induction keys generalizing mark finished with
  | nil => cases found
  | cons start rest ih =>
    have alone : Leading graph [(start, Graph.neighbors graph start)] := ⟨fun neighbor member => member, nofun, trivial⟩
    have pending : Pending graph finished none [(start, Graph.neighbors graph start)] :=
      ⟨fun neighbor needed => .inl needed, trivial⟩
    rw [searchFrom] at found
    split at found
    · exact ih explored held found
    · split at found
      · cases found
      · next marked ended => exact visit_cycle held.push alone ended
      · next marked ended =>
          obtain ⟨more, later, empty, -⟩ := visit_finishes (explored.setMark (by decide)) held.push pending ended
          exact ih later empty found

theorem cycle_of_hasCycle (cyclic : hasCycle graph = true) : ∃ key, Relation.TransGen (DependsOn graph) key key := by
  obtain ⟨cycle, ended⟩ := search_ends graph
  have isTrue : cycle = true := by rwa [hasCycle, ended, Option.getD_some] at cyclic
  have fresh : Explored graph (fun _ => .unvisited) [] := ⟨by simp, Precedence.ordered_nil _⟩
  exact searchFrom_cycle fresh (by simp [Held]) (isTrue ▸ ended)

end

variable {request : CreateBatchRequest}

theorem precedes_of_needs {other key : String} (needs : Needs (batchGraph request) other key) :
    Precedes (edges request) other key := by
  rw [Needs, Graph.neighbors] at needs
  cases found : (batchGraph request).lookup key with
  | none =>
    rw [found] at needs
    cases needs
  | some neighbors =>
    rw [found] at needs
    obtain ⟨_, _, same⟩ := mem_map.mp (Table.mem_of_lookup found)
    cases same
    cases mem_append.mp needs with
    | inl dependency =>
      obtain ⟨entry, chosen, depends⟩ := mem_flatMap.mp dependency
      obtain ⟨present, isJob⟩ := mem_filter.mp chosen
      refine mem_append_right _ (mem_flatMap.mpr ⟨entry, present, ?_⟩)
      exact mem_map.mpr ⟨other, depends, by rw [beq_iff_eq.mp isJob]⟩
    | inr parental =>
      obtain ⟨node, chosen, isParent⟩ := mem_filterMap.mp parental
      obtain ⟨present, isKey⟩ := mem_filter.mp chosen
      refine mem_append_left _ (mem_filterMap.mpr ⟨node, present, ?_⟩)
      rw [isParent, Option.map_some, beq_iff_eq.mp isKey]

def Cyclic (request : CreateBatchRequest) : Prop :=
  ∃ key, Relation.TransGen (Precedes (edges request)) key key

theorem hasCycle_iff (closed : Closed request) : hasCycle (batchGraph request) = true ↔ Cyclic request := by
  constructor
  · intro cyclic
    obtain ⟨key, cycle⟩ := cycle_of_hasCycle cyclic
    have within : ∀ node other, DependsOn (batchGraph request) node other → Precedes (edges request) other node :=
      fun _ _ needs => precedes_of_needs needs
    have back := Relation.TransGen.mono within key key cycle
    exact ⟨key, back.swap⟩
  · intro cyclic
    obtain ⟨key, cycle⟩ := cyclic
    by_contra notFound
    obtain ⟨listed, ordered, all⟩ := ordered_of_acyclic (Bool.eq_false_iff.mpr notFound)
    rw [keys_batchGraph] at all
    have inOrder : Ordered (Precedes (edges request)) listed := fun earlier item later split other precedes =>
      ordered earlier item later split other (needs_of_precedes closed precedes)
    have known : ∀ item other, Precedes (edges request) other item → item ∈ listed := by
      intro item other precedes
      exact all item (closed.edges _ precedes).2
    exact Precedence.acyclic_of_ordered inOrder known key cycle

def reportsCycle (request : CreateBatchRequest) : Prop :=
  ∃ error ∈ (validateBatch request).errors, error.code = "batch_graph_cycle"

theorem reportsCycle_iff (closed : Closed request) : reportsCycle request ↔ hasCycle (batchGraph request) = true := by
  have none : referenceErrors request = [] := referenceErrors_eq_nil.mpr closed
  rw [reportsCycle, validateBatch, none]
  cases cyclic : hasCycle (batchGraph request) with
  | true => simp [cycleErrors, cyclic]
  | false =>
    simp [cycleErrors, cyclic, depthErrors]

/-- Cycles are found and reported exactly, and a valid batch is sorted. -/
structure OrderedExactly (request : CreateBatchRequest) : Prop where
  found : Closed request → (hasCycle (batchGraph request) = true ↔ Cyclic request)
  reported : Closed request → (reportsCycle request ↔ Cyclic request)
  sorted : (validateBatch request).valid = true → (topologicalSort request).Perm request.keys ∧
      Ordered (Precedes (edges request)) (topologicalSort request)

theorem batch_ordered_exactly (request : CreateBatchRequest) : OrderedExactly request where
  found closed := hasCycle_iff closed
  reported closed := (reportsCycle_iff closed).trans (hasCycle_iff closed)
  sorted valid := by
    obtain ⟨closed, acyclic⟩ := validateBatch_valid valid
    have order := topologicalSort_order closed acyclic
    exact ⟨(perm_ext_iff_of_nodup order.distinct closed.distinct).mpr order.same, order.ordered⟩

end EveHorizon.Batches
