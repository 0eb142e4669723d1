import EveHorizon.Library.Histories
import EveHorizon.Library.Machine

/-!
# Traces

The statements of a run, in the order in which they were executed, are a run of the machine
that executes statements.
-/

namespace EveHorizon.Interleaving

open List Statement

variable {ι σ ε α ω : Type} [Statement ι σ]

def executed (statements : List ι) (store : σ) : σ := Machine.final effect statements store

@[simp] theorem executed_nil (store : σ) : executed ([] : List ι) store = store := rfl

@[simp] theorem executed_cons (statement : ι) (rest : List ι) (store : σ) :
    executed (statement :: rest) store = executed rest (effect statement store) := rfl

theorem executed_append (first second : List ι) (store : σ) :
    executed (first ++ second) store = executed second (executed first store) :=
  foldl_append

variable {invariant : σ → Prop}

theorem executed_keeps {statements : List ι}
    (kept : ∀ statement ∈ statements, ∀ store, invariant store → invariant (effect statement store)) {store : σ}
    (start : invariant store) : invariant (executed statements store) := by
  induction statements generalizing store with
  | nil => exact start
  | cons statement rest ih =>
    have first := kept statement mem_cons_self store start
    exact ih (fun other member => kept other (mem_cons_of_mem _ member)) first

theorem executed_filter {relation : σ → σ → Prop} (shown : ι → Bool)
    (together : ∀ statement, shown statement = true → ∀ left right, relation left right →
      relation (effect statement left) (effect statement right))
    (hidden : ∀ statement, shown statement = false → ∀ left right, relation left right →
      relation left (effect statement right)) (statements : List ι) {left right : σ} (start : relation left right) :
    relation (executed (statements.filter shown) left) (executed statements right) := by
  induction statements generalizing left right with
  | nil => exact start
  | cons statement rest ih =>
    cases isShown : shown statement with
    | true =>
      rw [filter_cons_of_pos isShown]
      exact ih (together statement isShown left right start)
    | false =>
      rw [filter_cons_of_neg (by simp [isShown])]
      exact ih (hidden statement isShown left right start)

variable (program : Nat → ω → Call ι σ ε α) {earlier later : List (Execution ι σ)}

theorem System.run_before (store : σ) (schedule : List (Choice ω)) {execution : Execution ι σ}
    (split : (run program store schedule).trace = earlier ++ execution :: later) :
    execution.before = executed (earlier.map (·.statement)) store := by
  have history := run_history program (fun history final => final = executed (history.map (·.statement)) store ∧
      ∀ earlier execution later, history = earlier ++ execution :: later →
        execution.before = executed (earlier.map (·.statement)) store)
    ⟨rfl, by simp⟩ ?_ schedule
  · exact history.2 earlier execution later split
  · intro history session statement before soFar _
    obtain ⟨reached, found⟩ := soFar
    constructor
    · rw [map_append, executed_append, ← reached]
      rfl
    · intro earlier execution later split
      rcases eq_nil_or_concat' later with nothing | ⟨others, last, more⟩
      · rw [nothing] at split
        obtain ⟨same, single⟩ := append_inj' split rfl
        cases single
        rw [← same, ← reached]
      · rw [more, ← cons_append, ← append_assoc] at split
        exact found earlier execution others (append_inj' split rfl).1

theorem System.run_stretch (store : σ) (schedule : List (Choice ω)) {middle : List (Execution ι σ)}
    {first second : Execution ι σ}
    (split : (run program store schedule).trace = earlier ++ first :: middle ++ second :: later)
    (start : invariant (effect first.statement first.before))
    (kept : ∀ execution ∈ middle, invariant execution.before →
      invariant (effect execution.statement execution.before)) :
    invariant second.before := by
  have next : ∀ {front rest : List (Execution ι σ)} {left right : Execution ι σ},
      (run program store schedule).trace = front ++ left :: right :: rest →
      right.before = effect left.statement left.before := by
    intro front rest left right split
    have foundLeft := run_before program store schedule split
    rw [← singleton_append, ← append_assoc] at split
    rw [run_before program store schedule split, foundLeft, map_append, executed_append]
    rfl
  induction middle using List.reverseRecOn generalizing second later with
  | nil =>
    rw [append_assoc] at split
    rw [next split]
    exact start
  | append_singleton others last ih =>
    rw [← cons_append, ← append_assoc, append_assoc, singleton_append] at split
    rw [next split]
    have reached := ih split fun execution member => kept execution (mem_append_left _ member)
    exact kept last (mem_append_right _ (mem_singleton_self last)) reached

end EveHorizon.Interleaving
