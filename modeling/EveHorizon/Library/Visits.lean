/-!
# Visited states

The steps of a run, each with the state in which it is taken.
-/

namespace EveHorizon

section

variable {State Step : Type} (next : State → Step → State)

def visits : State → List Step → List (State × Step)
  | _, [] => []
  | state, step :: rest => (state, step) :: visits (next state step) rest

variable {next} {Holds : State → Prop} {Allowed : Step → Prop}
  {First Second : State → Step → Prop}

theorem visits_forall_iff (kept : ∀ state step, Holds state → Holds (next state step))
    (agree : ∀ state step, Holds state → Allowed step → (First state step ↔ Second state step))
    {state : State} (start : Holds state) (steps : List Step) (allowed : ∀ step ∈ steps, Allowed step) :
    (∀ visit ∈ visits next state steps, First visit.1 visit.2) ↔
      ∀ visit ∈ visits next state steps, Second visit.1 visit.2 := by
  induction steps generalizing state with
  | nil => simp [visits]
  | cons step rest ih =>
    have first := agree state step start (allowed step List.mem_cons_self)
    have later := ih (kept state step start) fun other member =>
      allowed other (List.mem_cons_of_mem _ member)
    rw [visits, List.forall_mem_cons, List.forall_mem_cons, first, later]

theorem visits_kept_iff {Kept : State → Prop} (holds : ∀ state step, Holds state → Kept state → Holds (next state step))
    (agree : ∀ state step, Holds state → Kept state → (Kept (next state step) ↔ First state step))
    {state : State} (start : Holds state) (kept : Kept state) (steps : List Step) :
    (∀ visit ∈ visits next state steps, Kept (next visit.1 visit.2)) ↔
      ∀ visit ∈ visits next state steps, First visit.1 visit.2 := by
  induction steps generalizing state with
  | nil => simp [visits]
  | cons step rest ih =>
    have first := agree state step start kept
    rw [visits, List.forall_mem_cons, List.forall_mem_cons, first]
    refine and_congr_right fun isFirst => ?_
    exact ih (holds state step start kept) (first.mpr isFirst)

end

end EveHorizon
