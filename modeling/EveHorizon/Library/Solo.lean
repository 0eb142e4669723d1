import EveHorizon.Library.Histories

/-!
# Calls that run alone

A call nothing interleaves with is a function of the store: it ends with a result and
leaves a store.
-/

namespace EveHorizon.Interleaving

open List Statement

variable {ι σ ε α β ω : Type} [Statement ι σ] {invariant : σ → Prop} {call : Call ι σ ε α}

namespace Call

def alone : Call ι σ ε α → σ → Except ε α × σ
  | .ret value, store => (.ok value, store)
  | .raise error, store => (.error error, store)
  | .stmt statement next, store => (next store).alone (effect statement store)

@[simp] theorem alone_ret (value : α) (store : σ) :
    (Call.ret value : Call ι σ ε α).alone store = (.ok value, store) := rfl

@[simp] theorem alone_raise (error : ε) (store : σ) :
    (Call.raise error : Call ι σ ε α).alone store = (.error error, store) := rfl

variable (statement : ι)

@[simp] theorem alone_stmt (next : σ → Call ι σ ε α) (store : σ) :
    (Call.stmt statement next).alone store = (next store).alone (effect statement store) := rfl

@[simp] theorem alone_perform (query : σ → α) (store : σ) :
    (Call.perform statement query : Call ι σ ε α).alone store =
      (.ok (query store), effect statement store) := rfl

theorem alone_bind (call : Call ι σ ε β) (cont : β → Call ι σ ε α) (store : σ) :
    (call >>= cont).alone store =
      match call.alone store with
      | (.ok value, reached) => (cont value).alone reached
      | (.error error, reached) => (.error error, reached) := by
  induction call generalizing store with
  | ret value | raise error => rfl
  | stmt statement next ih => exact ih store (effect statement store)

variable {call : Call ι σ ε β} {store reached : σ}

theorem alone_bind_ok {value : β} (returned : call.alone store = (.ok value, reached))
    (cont : β → Call ι σ ε α) : (call >>= cont).alone store = (cont value).alone reached := by
  rw [alone_bind, returned]

variable {cont : β → Call ι σ ε α}

theorem alone_bind_eq_ok {value : α} (returned : (call >>= cont).alone store = (.ok value, reached)) :
    ∃ middle between, call.alone store = (.ok middle, between) ∧
      (cont middle).alone between = (.ok value, reached) := by
  rw [alone_bind] at returned
  rcases ended : call.alone store with ⟨result, between⟩
  rw [ended] at returned
  cases result with
  | ok middle => exact ⟨middle, between, rfl, returned⟩
  | error error => cases (Prod.mk.inj returned).1

theorem alone_bind_error {error : ε} (thrown : (call.alone store).1 = .error error)
    (cont : β → Call ι σ ε α) : ((call >>= cont).alone store).1 = .error error := by
  rw [alone_bind]
  rcases ended : call.alone store with ⟨result, reached⟩
  rw [ended] at thrown
  cases thrown
  rfl

@[simp] theorem alone_perform_bind (query : σ → β) (cont : β → Call ι σ ε α) (store : σ) :
    ((Call.perform statement query : Call ι σ ε β) >>= cont).alone store =
      (cont (query store)).alone (effect statement store) := rfl

omit [Statement ι σ] in
theorem bind_assoc {γ : Type} (call : Call ι σ ε γ) (first : γ → Call ι σ ε β) (second : β → Call ι σ ε α) :
    ((call >>= first) >>= second) = call >>= fun value => first value >>= second := by
  induction call with
  | ret value | raise error => rfl
  | stmt statement next ih => exact congrArg (Call.stmt statement) (funext ih)

theorem alone_bind_ret (call : Call ι σ ε β) (function : β → α) (store : σ) :
    ((call >>= fun value => (.ret (function value) : Call ι σ ε α)).alone store).2 = (call.alone store).2 := by
  rw [alone_bind]
  rcases call.alone store with ⟨result, reached⟩
  cases result with
  | ok value | error error => rfl

variable {κ τ : Type}

theorem alone_lift [Statement κ τ] {embed : ι → κ} {view : τ → σ}
    (agrees : ∀ statement store, view (effect (embed statement) store) = effect statement (view store))
    (call : Call ι σ ε α) (store : τ) : ((call.lift embed view).alone store).1 = (call.alone (view store)).1 ∧
      view ((call.lift embed view).alone store).2 = (call.alone (view store)).2 := by
  induction call generalizing store with
  | ret value | raise error => exact ⟨rfl, rfl⟩
  | stmt statement next ih =>
    have later := ih (view store) (effect (embed statement) store)
    rw [agrees] at later
    exact later

theorem alone_lift_part [Statement κ τ] (embed : ι → κ) (view : τ → σ) (put : τ → σ → τ)
    (view_put : ∀ store part, view (put store part) = part)
    (put_put : ∀ store first second, put (put store first) second = put store second)
    (put_view : ∀ store, put store (view store) = store)
    (effect : ∀ statement store, effect (embed statement) store = put store (effect statement (view store)))
    (call : Call ι σ ε α) (store : τ) :
    (call.lift embed view).alone store = ((call.alone (view store)).1, put store (call.alone (view store)).2) := by
  induction call generalizing store with
  | ret value | raise error => simp [lift, put_view]
  | stmt statement next ih =>
    have later := ih (view store) (Statement.effect (embed statement) store)
    rw [effect, view_put, put_put] at later
    rw [lift, alone_stmt, effect, later, alone_stmt]

theorem alone_mapError {δ : Type} (report : ε → δ) (call : Call ι σ ε α) (store : σ) :
    (call.mapError report).alone store = ((call.alone store).1.mapError report, (call.alone store).2) := by
  induction call generalizing store with
  | ret value | raise error => rfl
  | stmt statement next ih => exact ih store (effect statement store)

@[simp] theorem alone_ofExcept (result : Except ε α) (store : σ) :
    (ofExcept result : Call ι σ ε α).alone store = (result, store) := by
  cases result <;> rfl

theorem alone_handle (call : Call ι σ ε α) (handler : ε → Call ι σ ε α) (store : σ) :
    (call.handle handler).alone store =
      match call.alone store with
      | (.ok value, reached) => (.ok value, reached)
      | (.error error, reached) => (handler error).alone reached := by
  induction call generalizing store with
  | ret value | raise error => rfl
  | stmt statement next ih => exact ih store (effect statement store)

theorem alone_handle_ret (call : Call ι σ ε α) (value : ε → α) (store : σ) :
    ((call.handle fun error => .ret (value error)).alone store).2 = (call.alone store).2 := by
  rw [alone_handle]
  rcases call.alone store with ⟨result, reached⟩
  cases result with
  | ok value | error error => rfl

theorem alone_forEach_nil (body : β → Call ι σ ε Unit) (store : σ) :
    (Call.forEach [] body).alone store = (.ok (), store) := rfl

theorem alone_forEach_ok {items : List β} {body : β → Call ι σ ε Unit}
    (returned : (Call.forEach items body).alone store = (.ok (), reached)) :
    ∀ item ∈ items, ∃ before after, (body item).alone before = (.ok (), after) := by
  induction items generalizing store with
  | nil => exact nofun
  | cons first rest ih =>
    obtain ⟨_, between, isFirst, later⟩ := alone_bind_eq_ok returned
    intro item member
    rcases mem_cons.mp member with rfl | inRest
    · exact ⟨store, between, isFirst⟩
    · exact ih later item inRest

def Ends (post : Except ε α → σ → Prop) (call : Call ι σ ε α) (store : σ) : Prop :=
  post (call.alone store).1 (call.alone store).2

theorem Ends.bind {middle : Except ε β → σ → Prop} {post : Except ε α → σ → Prop} (first : call.Ends middle store)
    (rest : ∀ value reached, middle (.ok value) reached → (cont value).Ends post reached)
    (failed : ∀ error reached, middle (.error error) reached → post (.error error) reached) :
    (call >>= cont).Ends post store := by
  rw [Ends] at first
  rw [Ends, alone_bind]
  rcases ended : call.alone store with ⟨result, reached⟩
  rw [ended] at first
  cases result with
  | ok value => exact rest value reached first
  | error error => exact failed error reached first

theorem Issues.alone_keeps {issued : ι → Prop} (issues : call.Issues issued)
    (kept : ∀ statement, issued statement → ∀ found, invariant found → invariant (effect statement found))
    (holds : invariant store) : invariant (call.alone store).2 := by
  induction call generalizing store with
  | ret value | raise error => exact holds
  | stmt statement next ih =>
    exact ih store (issues.2 store) (kept statement issues.1 store holds)

def Raises (allowed : ε → Prop) : Call ι σ ε α → Prop
  | .ret _ => True
  | .raise error => allowed error
  | .stmt _ next => ∀ store, (next store).Raises allowed

section

variable {allowed : ε → Prop}

omit [Statement ι σ] in
theorem Raises.bind {call : Call ι σ ε β} (first : call.Raises allowed)
    (rest : ∀ value, (cont value).Raises allowed) : (call >>= cont).Raises allowed := by
  induction call with
  | ret value => exact rest value
  | raise error => exact first
  | stmt statement next ih => exact fun store => ih store (first store)

omit [Statement ι σ] in
theorem Raises.forEach {items : List β} {body : β → Call ι σ ε Unit}
    (each : ∀ item ∈ items, (body item).Raises allowed) : (Call.forEach items body).Raises allowed := by
  induction items with
  | nil => trivial
  | cons item rest ih =>
    have first := each item mem_cons_self
    have later := ih fun other member => each other (mem_cons_of_mem item member)
    exact first.bind fun _ => later

omit [Statement ι σ] in
theorem raises_mapError {δ : Type} {report : δ → ε} (always : ∀ error, allowed (report error))
    (call : Call ι σ δ α) : (call.mapError report).Raises allowed := by
  induction call with
  | ret value => trivial
  | raise error => exact always error
  | stmt statement next ih => exact fun store => ih store

theorem Raises.error (raises : call.Raises allowed) {store reached : σ} {error : ε}
    (ended : call.alone store = (.error error, reached)) : allowed error := by
  induction call generalizing store with
  | ret value => cases ended
  | raise raised =>
    cases ended
    exact raises
  | stmt statement next ih => exact ih store (raises store) ended

end

end Call

def afterAll (program : ω → Call ι σ ε α) (operations : List ω) (store : σ) : σ :=
  operations.foldl (fun reached operation => ((program operation).alone reached).2) store

variable {program : ω → Call ι σ ε α}

theorem afterAll_invariant
    (kept : ∀ operation before, invariant before → invariant ((program operation).alone before).2) (operations : List ω)
    {store : σ} (start : invariant store) : invariant (afterAll program operations store) := by
  induction operations generalizing store with
  | nil => exact start
  | cons operation rest ih => exact ih (kept operation store start)

structure Stage (ω σ : Type) where
  operation : ω
  before : σ
  after : σ

def stages (program : ω → Call ι σ ε α) : List ω → σ → List (Stage ω σ)
  | [], _ => []
  | operation :: rest, store =>
    let reached := ((program operation).alone store).2
    ⟨operation, store, reached⟩ :: stages program rest reached

/-- If an operation keeps the invariant exactly under a condition, a sequential run keeps
it after every operation exactly when each operation meets the condition. -/
theorem stages_invariant_iff {condition : ω → σ → Prop}
    (step : ∀ operation before, invariant before → (invariant ((program operation).alone before).2 ↔
      condition operation before))
    (operations : List ω) {store : σ} (start : invariant store) :
    (∀ stage ∈ stages program operations store, invariant stage.after) ↔
      ∀ stage ∈ stages program operations store, condition stage.operation stage.before := by
  induction operations generalizing store with
  | nil => simp [stages]
  | cons operation rest ih =>
    simp only [stages, forall_mem_cons]
    constructor
    · rintro ⟨kept, later⟩
      exact ⟨(step operation store start).mp kept, (ih kept).mp later⟩
    · rintro ⟨meets, later⟩
      have kept := (step operation store start).mpr meets
      exact ⟨kept, (ih kept).mpr later⟩

namespace System

theorem play_append (program : Nat → ω → Call ι σ ε α) (first second : List (Choice ω)) (system : System ι σ ε α) :
    system.play program (first ++ second) = (system.play program first).play program second :=
  foldl_append

theorem advances_alone (program : Nat → ω → Call ι σ ε α)
    (prompt : call.Issues fun statement => ∀ store : σ, ready statement store = true) (system : System ι σ ε α)
    {session : Nat} (only : system.running = [(session, call)]) :
    ∃ count, (system.play program (List.replicate count (.advance 0))).running = [] ∧
      (system.play program (List.replicate count (.advance 0))).store = (call.alone system.store).2 := by
  induction call generalizing system with
  | ret value | raise error =>
    refine ⟨1, ?_⟩
    simp [play, move, advance, only]
  | stmt statement next ih =>
    have moved : (system.move program (.advance 0)).running = [(session, next system.store)] ∧
        (system.move program (.advance 0)).store = effect statement system.store := by
      simp [move, advance, only, prompt.1]
    obtain ⟨count, idle, reached⟩ := ih system.store (prompt.2 system.store) _ moved.1
    refine ⟨count + 1, idle, ?_⟩
    rw [moved.2] at reached
    exact reached

end System

theorem exists_afterAll (program : Nat → ω → Call ι σ ε α) (calls : ω → Call ι σ ε α) (operations : List ω)
    (same : ∀ operation ∈ operations, ∀ session, program session operation = calls operation)
    (prompt : ∀ operation ∈ operations,
      (calls operation).Issues fun statement => ∀ store : σ, ready statement store = true) (store : σ) :
    ∃ schedule : List (Choice ω), (∀ operation, .start operation ∈ schedule → operation ∈ operations) ∧
      (System.run program store schedule).store = afterAll calls operations store := by
  suffices plays : ∀ system : System ι σ ε α, system.running = [] →
      ∃ schedule : List (Choice ω), (∀ operation, .start operation ∈ schedule → operation ∈ operations) ∧
        (system.play program schedule).store = afterAll calls operations system.store from
    plays (System.initial store) rfl
  induction operations with
  | nil => exact fun system _ => ⟨[], nofun, rfl⟩
  | cons operation rest ih =>
    intro system idle
    let begun := system.move program (.start operation)
    have only : begun.running = [(system.started, calls operation)] := by
      simp [begun, System.move, idle, same operation mem_cons_self]
    obtain ⟨count, ended, reached⟩ := System.advances_alone program (prompt operation mem_cons_self) begun only
    obtain ⟨schedule, starts, final⟩ := ih (fun other member => same other (mem_cons_of_mem _ member))
      (fun other member => prompt other (mem_cons_of_mem _ member)) _ ended
    refine ⟨.start operation :: (List.replicate count (.advance 0) ++ schedule), ?_, ?_⟩
    · intro other started
      rcases mem_cons.mp started with first | later
      · cases first
        exact mem_cons_self
      · rcases mem_append.mp later with advances | later
        · cases eq_of_mem_replicate advances
        · exact mem_cons_of_mem _ (starts other later)
    · change (begun.play program (_ ++ schedule)).store = _
      rw [System.play_append, final, reached]
      rfl

end EveHorizon.Interleaving
