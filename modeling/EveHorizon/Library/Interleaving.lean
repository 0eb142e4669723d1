import Mathlib.Data.List.Induction
import Mathlib.Data.List.Perm.Basic
import Mathlib.Algebra.Order.Ring.Int

/-!
# Interleaved calls over a shared store

A call is a sequential client of a shared store. It issues statements one at a
time; each is atomic, and between two statements of one call any statements of
other calls may run. What a statement does depends on the statement and the store
alone. The rest of the call continues from the store the statement found.
-/

namespace EveHorizon.Interleaving

open List

/-- The statements of a store: when one can run, and what it does when it runs.
A statement that must wait (for a row lock, say) is not ready. -/
class Statement (ι : Type) (σ : outParam Type) where
  ready : ι → σ → Bool
  effect : ι → σ → σ

/-- A client that issues statements and ends with a value or an error. -/
inductive Call (ι σ ε α : Type) where
  | ret (value : α)
  | raise (error : ε)
  | stmt (statement : ι) (next : σ → Call ι σ ε α)

namespace Call

variable {ι κ σ τ ε α β : Type}

def bind : Call ι σ ε α → (α → Call ι σ ε β) → Call ι σ ε β
  | .ret value, cont => cont value
  | .raise error, _ => .raise error
  | .stmt statement next, cont =>
    .stmt statement fun store => (next store).bind cont

instance : Monad (Call ι σ ε) where
  pure := .ret
  bind := .bind

@[simp] theorem pure_eq (value : α) : (pure value : Call ι σ ε α) = .ret value := rfl

@[simp] theorem bind_eq (call : Call ι σ ε α) (cont : α → Call ι σ ε β) :
    call.bind cont = (call >>= cont) := rfl

@[simp] theorem ret_bind (value : α) (cont : α → Call ι σ ε β) :
    (Call.ret value >>= cont) = cont value := rfl

@[simp] theorem raise_bind (error : ε) (cont : α → Call ι σ ε β) :
    (Call.raise error >>= cont) = .raise error := rfl

@[simp] theorem stmt_bind (statement : ι) (next : σ → Call ι σ ε α)
    (cont : α → Call ι σ ε β) :
    (Call.stmt statement next >>= cont) = .stmt statement fun store => next store >>= cont := rfl

def perform (statement : ι) (query : σ → α) : Call ι σ ε α := .stmt statement fun store => .ret (query store)

def ofExcept : Except ε α → Call ι σ ε α
  | .ok value => .ret value
  | .error error => .raise error

def forEach : List β → (β → Call ι σ ε Unit) → Call ι σ ε Unit
  | [], _ => .ret ()
  | item :: rest, body => (body item).bind fun _ => forEach rest body

def handle : Call ι σ ε α → (ε → Call ι σ ε α) → Call ι σ ε α
  | .ret value, _ => .ret value
  | .raise error, handler => handler error
  | .stmt statement next, handler => .stmt statement fun store => (next store).handle handler

def mapError {δ : Type} (report : ε → δ) : Call ι σ ε α → Call ι σ δ α
  | .ret value => .ret value
  | .raise error => .raise (report error)
  | .stmt statement next => .stmt statement fun store => (next store).mapError report

def lift (embed : ι → κ) (view : τ → σ) : Call ι σ ε α → Call κ τ ε α
  | .ret value => .ret value
  | .raise error => .raise error
  | .stmt statement next => .stmt (embed statement) fun store =>
    (next (view store)).lift embed view

end Call

structure Execution (ι σ : Type) where
  session : Nat
  statement : ι
  before : σ
  after : σ

structure Ending (σ ε α : Type) where
  session : Nat
  result : Except ε α
  store : σ

/-- Calls in flight over one store, with the history of executed statements and of
finished calls. Sessions are numbered in the order in which calls start. -/
structure System (ι σ ε α : Type) where
  store : σ
  running : List (Nat × Call ι σ ε α)
  started : Nat
  trace : List (Execution ι σ)
  ended : List (Ending σ ε α)

/-- A scheduler's choice: let a new call begin, or advance the call at a position of
the running list by one statement (a finished call leaves the list). A call that is
never advanced again has crashed. -/
inductive Choice (ω : Type) where
  | start (operation : ω)
  | advance (position : Nat)

namespace System

variable {ι σ ε α ω : Type}

def initial (store : σ) : System ι σ ε α :=
  { store, running := [], started := 0, trace := [], ended := [] }

variable [Statement ι σ] (system : System ι σ ε α)

def advance (position session : Nat) : Call ι σ ε α → System ι σ ε α
  | .ret value =>
    { system with
      running := system.running.eraseIdx position
      ended := system.ended ++ [⟨session, .ok value, system.store⟩] }
  | .raise error =>
    { system with
      running := system.running.eraseIdx position
      ended := system.ended ++ [⟨session, .error error, system.store⟩] }
  | .stmt statement next =>
    if Statement.ready statement system.store then
      let after := Statement.effect statement system.store
      { system with
        store := after
        running := system.running.set position (session, next system.store)
        trace := system.trace ++ [⟨session, statement, system.store, after⟩] }
    else system

variable (program : Nat → ω → Call ι σ ε α)

def move (system : System ι σ ε α) : Choice ω → System ι σ ε α
  | .start operation =>
    { system with
      running := system.running ++ [(system.started, program system.started operation)]
      started := system.started + 1 }
  | .advance position =>
    match system.running[position]? with
    | none => system
    | some (session, call) => system.advance position session call

def begin (call : Call ι σ ε α) : System ι σ ε α :=
  { system with
    running := system.running ++ [(system.started, call)]
    started := system.started + 1 }

def finish (position session : Nat) (result : Except ε α) : System ι σ ε α :=
  { system with
    running := system.running.eraseIdx position
    ended := system.ended ++ [⟨session, result, system.store⟩] }

def execute (position session : Nat) (statement : ι) (next : σ → Call ι σ ε α) : System ι σ ε α :=
  let after := Statement.effect statement system.store
  { system with
    store := after
    running := system.running.set position (session, next system.store)
    trace := system.trace ++ [⟨session, statement, system.store, after⟩] }

def play (schedule : List (Choice ω)) (system : System ι σ ε α) : System ι σ ε α :=
  schedule.foldl (move program) system

def run (store : σ) (schedule : List (Choice ω)) : System ι σ ε α :=
  (initial store).play program schedule

variable (program : Nat → ω → Call ι σ ε α) (property : System ι σ ε α → Prop)

/-- What a move keeps: it starts a call, ends one, executes one statement, or does nothing. -/
theorem move_induction {system : System ι σ ε α} (holds : property system) (choice : Choice ω)
    (starts : ∀ operation, choice = .start operation → property (system.begin (program system.started operation)))
    (ends : ∀ position session result,
      system.running[position]? = some (session, .ofExcept result) → property (system.finish position session result))
    (executes : ∀ position session statement next, system.running[position]? = some (session, .stmt statement next) →
        Statement.ready statement system.store = true → property (system.execute position session statement next)) :
    property (system.move program choice) := by
  cases choice with
  | start operation => exact starts operation rfl
  | advance position =>
    rw [move]
    cases selected : system.running[position]? with
    | none => exact holds
    | some entry =>
      obtain ⟨session, call⟩ := entry
      cases call with
      | ret value => exact ends position session (.ok value) selected
      | raise error => exact ends position session (.error error) selected
      | stmt statement next =>
        dsimp only [advance]
        split
        · next isReady => exact executes position session statement next selected isReady
        · exact holds

/-- A property of systems that every move keeps holds after every schedule. -/
theorem play_induction (kept : ∀ system choice, property system → property (system.move program choice))
    (schedule : List (Choice ω)) (system : System ι σ ε α) (start : property system) :
    property (system.play program schedule) := by
  induction schedule generalizing system with
  | nil => exact start
  | cons choice rest ih => exact ih _ (kept system choice start)

/-- A property that starting, ending and executing keep holds after every schedule. -/
theorem run_induction (store : σ) (start : property (initial store))
    (starts : ∀ system operation, property system → property (system.begin (program system.started operation)))
    (ends : ∀ system position session result, property system →
      system.running[position]? = some (session, .ofExcept result) → property (system.finish position session result))
    (executes : ∀ system position session statement next, property system →
      system.running[position]? = some (session, .stmt statement next) → Statement.ready statement system.store = true →
          property (system.execute position session statement next)) (schedule : List (Choice ω)) :
    property (run program store schedule) :=
  play_induction program property (fun system choice holds =>
    move_induction program property holds choice (fun operation _ => starts system operation holds)
      (fun position session result => ends system position session result holds)
      fun position session statement next => executes system position session statement next holds)
    schedule (initial store) start

variable {store : σ}

/-- Induction along the executed statements of a run: only they change the store. -/
theorem run_history (property : List (Execution ι σ) → σ → Prop) (start : property [] store)
    (step : ∀ history session statement before, property history before → Statement.ready statement before = true →
      property (history ++ [⟨session, statement, before, Statement.effect statement before⟩])
      (Statement.effect statement before))
    (schedule : List (Choice ω)) : property (run program store schedule).trace (run program store schedule).store := by
  refine run_induction program (fun system => property system.trace system.store) store start
    (fun _ _ soFar => soFar) (fun _ _ _ _ soFar _ => soFar) ?_ schedule
  intro system _ session statement _ soFar _ isReady
  exact step system.trace session statement system.store soFar isReady

theorem run_executes (store : σ) (schedule : List (Choice ω)) :
    ∀ execution ∈ (run program store schedule).trace, Statement.ready execution.statement execution.before = true ∧
      execution.after = Statement.effect execution.statement execution.before := by
  refine run_history program (fun history _ => ∀ execution ∈ history,
    Statement.ready execution.statement execution.before = true ∧
      execution.after = Statement.effect execution.statement execution.before)
    (by simp) ?_ schedule
  intro history session statement before executed isReady execution member
  rcases mem_append.mp member with old | new
  · exact executed execution old
  · rw [mem_singleton.mp new]
    exact ⟨isReady, rfl⟩

variable {invariant : σ → Prop}

/-- An invariant that every executed statement keeps holds before and after each of
them, and at the end of the run. -/
theorem run_invariant (start : invariant store) (schedule : List (Choice ω))
    (kept : ∀ execution ∈ (run program store schedule).trace, invariant execution.before → invariant execution.after) :
    invariant (run program store schedule).store ∧ ∀ execution ∈ (run program store schedule).trace,
        invariant execution.before ∧ invariant execution.after := by
  refine run_history program (fun history final =>
    (∀ execution ∈ history, invariant execution.before → invariant execution.after) → invariant final ∧
        ∀ execution ∈ history, invariant execution.before ∧ invariant execution.after)
    (fun _ => ⟨start, by simp⟩) ?_ schedule kept
  intro history session statement before soFar _ kept
  obtain ⟨reached, earlier⟩ := soFar fun execution member =>
    kept execution (mem_append_left _ member)
  have last := kept ⟨session, statement, before, Statement.effect statement before⟩ (by simp) reached
  refine ⟨last, ?_⟩
  intro execution member
  rcases mem_append.mp member with old | new
  · exact earlier execution old
  · rw [mem_singleton.mp new]
    exact ⟨reached, last⟩

/-- If an executed statement keeps the invariant exactly under a condition, the whole
run keeps it exactly when every execution meets the condition. -/
theorem run_invariant_iff (start : invariant store) (condition : Execution ι σ → Prop) (schedule : List (Choice ω))
    (step : ∀ execution ∈ (run program store schedule).trace, invariant execution.before →
      (invariant execution.after ↔ condition execution)) :
    (∀ execution ∈ (run program store schedule).trace, invariant execution.after) ↔
      ∀ execution ∈ (run program store schedule).trace, condition execution := by
  constructor
  · intro after execution member
    obtain ⟨_, throughout⟩ := run_invariant program start schedule fun execution member _ => after execution member
    obtain ⟨before, _⟩ := throughout execution member
    exact (step execution member before).mp (after execution member)
  · intro meets execution member
    obtain ⟨_, throughout⟩ := run_invariant program start schedule
      fun execution member before => (step execution member before).mpr (meets execution member)
    exact (throughout execution member).2

/-- If a counted quantity grows with every `up` execution and shrinks by at most one
with a `down` execution, the run's `up` executions are covered by its final value and
its `down` executions. -/
theorem run_measure (measure : σ → Nat) (up down : Execution ι σ → Bool) (store : σ) (schedule : List (Choice ω))
    (balanced : ∀ execution ∈ (run program store schedule).trace,
      measure execution.before + (if up execution then 1 else 0) ≤
        measure execution.after + if down execution then 1 else 0) :
    measure store + (run program store schedule).trace.countP up ≤ measure (run program store schedule).store +
        (run program store schedule).trace.countP down := by
  refine run_history program (fun history final =>
    (∀ execution ∈ history, measure execution.before + (if up execution then 1 else 0) ≤
        measure execution.after + if down execution then 1 else 0) →
      measure store + history.countP up ≤ measure final + history.countP down)
    (by simp) ?_ schedule balanced
  intro history session statement before soFar _ balanced
  have earlier := soFar fun execution member =>
    balanced execution (mem_append_left _ member)
  have last := balanced ⟨session, statement, before, Statement.effect statement before⟩ (by simp)
  simp only [countP_append, countP_singleton]
  simp only at last
  omega

end System

theorem countP_of_getElem? {β : Type} (test : β → Bool) {entries : List β} {position : Nat}
    {entry : β} (selected : entries[position]? = some entry) :
    entries.countP test = (entries.eraseIdx position).countP test + if test entry then 1 else 0 := by
  obtain ⟨inRange, rfl⟩ := List.getElem?_eq_some_iff.mp selected
  rw [← (getElem_cons_eraseIdx_perm inRange).countP_eq test, countP_cons]

theorem countP_set_of_getElem? {β : Type} (test : β → Bool) {entries : List β} {position : Nat}
    {entry : β} (selected : entries[position]? = some entry) (new : β) :
    (entries.set position new).countP test = (entries.eraseIdx position).countP test + if test new then 1 else 0 := by
  obtain ⟨inRange, _⟩ := List.getElem?_eq_some_iff.mp selected
  rw [(set_perm_cons_eraseIdx inRange new).countP_eq test, countP_cons]

variable {ι σ ε α β ω : Type}

def Call.EndsUnmarked (marked : ι → σ → Bool) : Call ι σ ε α → α → Prop
  | .ret value, ending => value = ending
  | .raise _, _ => False
  | .stmt statement next, ending =>
    ∃ store, marked statement store = false ∧ (next store).EndsUnmarked marked ending

@[simp] theorem Call.endsUnmarked_ret (marked : ι → σ → Bool) (value ending : α) :
    (Call.ret value : Call ι σ ε α).EndsUnmarked marked ending ↔ value = ending := .rfl

@[simp] theorem Call.endsUnmarked_raise (marked : ι → σ → Bool) (error : ε) (ending : α) :
    ¬ (Call.raise error : Call ι σ ε α).EndsUnmarked marked ending := id

@[simp] theorem Call.endsUnmarked_perform (marked : ι → σ → Bool) (statement : ι)
    (query : σ → α) (ending : α) :
    (Call.perform statement query : Call ι σ ε α).EndsUnmarked marked ending ↔
      ∃ store, marked statement store = false ∧ query store = ending := .rfl

@[simp] theorem Call.endsUnmarked_bind (marked : ι → σ → Bool) (call : Call ι σ ε β)
    (cont : β → Call ι σ ε α) (ending : α) :
    (call >>= cont).EndsUnmarked marked ending ↔ ∃ value, call.EndsUnmarked marked value ∧
        (cont value).EndsUnmarked marked ending := by
  induction call with
  | ret value | raise error => simp
  | stmt statement next ih =>
    simp only [stmt_bind, EndsUnmarked, ih]
    constructor
    · rintro ⟨store, unmarked, value, first, rest⟩
      exact ⟨value, ⟨store, unmarked, first⟩, rest⟩
    · rintro ⟨value, ⟨store, unmarked, first⟩, rest⟩
      exact ⟨store, unmarked, value, first, rest⟩

def Ending.won (won : α → Bool) (ending : Ending σ ε α) : Bool :=
  match ending.result with
  | .ok value => won value
  | .error _ => false

def Execution.marked (marked : ι → σ → Bool) (execution : Execution ι σ) : Bool :=
  marked execution.statement execution.before

open Classical in
/-- If no call wins without executing a marked statement, the won results of a run
are at most its marked executions: each win was paid for by one of them. -/
theorem System.wins_le_marked [Statement ι σ] (program : Nat → ω → Call ι σ ε α)
    (won : α → Bool) (marked : ι → σ → Bool) (paid : ∀ session operation value,
      (program session operation).EndsUnmarked marked value → won value = false)
    (store : σ) (schedule : List (Choice ω)) : (run program store schedule).ended.countP (Ending.won won) ≤
      (run program store schedule).trace.countP (Execution.marked marked) := by
  -- A running call that can still win unmarked has already executed a marked statement.
  let owed := fun entry : Nat × Call ι σ ε α =>
    decide (∃ value, entry.2.EndsUnmarked marked value ∧ won value = true)
  have potential := run_induction program (fun system : System ι σ ε α =>
      system.ended.countP (Ending.won won) + system.running.countP owed ≤ system.trace.countP (Execution.marked marked))
    store (by simp [initial]) ?_ ?_ ?_ schedule
  · exact Nat.le_trans (Nat.le_add_right _ _) potential
  · intro system operation bound
    have fresh : owed (system.started, program system.started operation) = false := by
      simp only [owed, decide_eq_false_iff_not, not_exists, not_and, Bool.not_eq_true]
      exact paid system.started operation
    simpa [begin, countP_append, fresh] using bound
  · intro system position session result bound selected
    have counted := countP_of_getElem? owed selected
    simp only [finish, countP_append, countP_singleton]
    cases isWon : Ending.won won ⟨session, result, system.store⟩ with
    | false =>
      simp only [Bool.false_eq_true, ↓reduceIte]
      omega
    | true =>
      cases result with
      | error error => cases isWon
      | ok value =>
        have isOwed : owed (session, .ret value) = true := decide_eq_true ⟨value, rfl, isWon⟩
        simp only [Call.ofExcept, isOwed, ↓reduceIte] at counted
        simp only [↓reduceIte]
        omega
  · intro system position session statement next bound selected _
    have counted := countP_of_getElem? owed selected
    have replaced := countP_set_of_getElem? owed selected (session, next system.store)
    simp only [execute, countP_append, countP_singleton, replaced]
    cases isMarked : Execution.marked marked
        ⟨session, statement, system.store, Statement.effect statement system.store⟩ with
    | true =>
      simp only [↓reduceIte]
      split <;> omega
    | false =>
      cases later : owed (session, next system.store) with
      | false =>
        simp only [Bool.false_eq_true, ↓reduceIte]
        omega
      | true =>
        obtain ⟨value, ends, isWon⟩ := of_decide_eq_true later
        have isOwed : owed (session, .stmt statement next) = true :=
          decide_eq_true ⟨value, ⟨system.store, isMarked, ends⟩, isWon⟩
        simp only [isOwed, ↓reduceIte] at counted
        simp only [Bool.false_eq_true, ↓reduceIte]
        omega

end EveHorizon.Interleaving
