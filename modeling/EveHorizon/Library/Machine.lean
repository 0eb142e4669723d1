import Mathlib.Data.List.Basic

/-!
# Event machines

A machine answers every event in every state; an event it has no use for leaves the state
alone.
-/

namespace EveHorizon.Machine

variable {ω σ : Type}

structure Move (ω σ : Type) where
  event : ω
  before : σ
  after : σ

def moves (step : ω → σ → σ) : List ω → σ → List (Move ω σ)
  | [], _ => []
  | event :: rest, state => ⟨event, state, step event state⟩ :: moves step rest (step event state)

def final (step : ω → σ → σ) (events : List ω) (state : σ) : σ :=
  events.foldl (fun reached event => step event reached) state

variable {step : ω → σ → σ} {invariant : σ → Prop} {state : σ}

/-- What every event keeps that meets a condition holds before and after every move of a
run whose moves meet it, and at its end. -/
theorem moves_invariant {condition : ω → σ → Prop}
    (kept : ∀ event before, invariant before → condition event before → invariant (step event before)) (events : List ω)
    (start : invariant state) (meets : ∀ move ∈ moves step events state, condition move.event move.before) :
    invariant (final step events state) ∧
      ∀ move ∈ moves step events state, invariant move.before ∧ invariant move.after := by
  induction events generalizing state with
  | nil => exact ⟨start, by simp [moves]⟩
  | cons event rest ih =>
    have first := kept event state start (meets _ List.mem_cons_self)
    obtain ⟨last, later⟩ := ih first fun move member => meets move (List.mem_cons_of_mem _ member)
    refine ⟨last, fun move member => ?_⟩
    cases member with
    | head => exact ⟨start, first⟩
    | tail _ member => exact later move member

theorem moves_throughout (kept : ∀ event before, invariant before → invariant (step event before)) (events : List ω)
    (start : invariant state) : invariant (final step events state) ∧
      ∀ move ∈ moves step events state, invariant move.before ∧ invariant move.after :=
  moves_invariant (fun event before holds (_ : True) => kept event before holds) events start
    fun _ _ => trivial

theorem after_eq {events : List ω} {move : Move ω σ} (member : move ∈ moves step events state) :
    move.after = step move.event move.before := by
  induction events generalizing state with
  | nil => cases member
  | cons event rest ih =>
    cases member with
    | head => rfl
    | tail _ member => exact ih member

end EveHorizon.Machine
