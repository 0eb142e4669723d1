import EveHorizon.Library.Solo

/-!
# Failing statements

A call that runs alone until one of its statements fails.
-/

namespace EveHorizon.Interleaving.Call

open List Statement

variable {ι σ ε α β : Type} [Statement ι σ]

def statements : Call ι σ ε α → σ → Nat
  | .ret _, _ => 0
  | .raise _, _ => 0
  | .stmt statement next, store => (next store).statements (effect statement store) + 1

def interrupted (error : ε) : Call ι σ ε α → Nat → σ → Except ε α × σ
  | .ret value, _, store => (.ok value, store)
  | .raise thrown, _, store => (.error thrown, store)
  | .stmt _ _, 0, store => (.error error, store)
  | .stmt statement next, number + 1, store =>
    (next store).interrupted error number (effect statement store)

variable {number : Nat} {store : σ} {call : Call ι σ ε α}

theorem interrupted_of_le (error : ε) (beyond : call.statements store ≤ number) :
    call.interrupted error number store = call.alone store := by
  induction call generalizing number store with
  | ret value | raise thrown => rfl
  | stmt statement next ih =>
    cases number with
    | zero => cases beyond
    | succ number => exact ih store (Nat.le_of_succ_le_succ beyond)

theorem interrupted_of_lt (error : ε) (within : number < call.statements store) :
    (call.interrupted error number store).1 = .error error := by
  induction call generalizing number store with
  | ret value | raise thrown => cases within
  | stmt statement next ih =>
    cases number with
    | zero => rfl
    | succ number => exact ih store (Nat.lt_of_succ_lt_succ within)

variable {call : Call ι σ ε β} {value : β} {reached : σ}

theorem statements_bind (ended : call.alone store = (.ok value, reached)) (cont : β → Call ι σ ε α) :
    (call >>= cont).statements store = call.statements store + (cont value).statements reached := by
  induction call generalizing store with
  | ret result =>
    cases ended
    exact (Nat.zero_add _).symm
  | raise thrown => cases ended
  | stmt statement next ih =>
    rw [stmt_bind, statements, statements, ih store ended]
    omega

theorem interrupted_bind (error : ε) (call : Call ι σ ε β) (cont : β → Call ι σ ε α)
    (number : Nat) (store : σ) :
    (call >>= cont).interrupted error number store =
      match call.interrupted error number store with
      | (.ok value, reached) =>
        (cont value).interrupted error (number - call.statements store) reached
      | (.error thrown, reached) => (.error thrown, reached) := by
  induction call generalizing number store with
  | ret value | raise thrown => rfl
  | stmt statement next ih =>
    cases number with
    | zero => rfl
    | succ number =>
      rw [stmt_bind, interrupted, ih, statements, Nat.add_sub_add_right]
      rfl

variable {issued : ι → Prop} {invariant : σ → Prop}

theorem Issues.interrupted_keeps {call : Call ι σ ε α} (error : ε) (issues : call.Issues issued)
    (kept : ∀ statement, issued statement → ∀ found, invariant found →
      invariant (effect statement found)) (holds : invariant store) :
    invariant (call.interrupted error number store).2 := by
  induction call generalizing number store with
  | ret value | raise thrown => exact holds
  | stmt statement next ih =>
    cases number with
    | zero => exact holds
    | succ number => exact ih store (issues.2 store) (kept statement issues.1 store holds)

variable {cont : β → Call ι σ ε α}

theorem interrupted_bind_keeps (error : ε) (rest : ∀ value, (cont value).Issues issued)
    (kept : ∀ statement, issued statement → ∀ found, invariant found → invariant (effect statement found))
    (holds : invariant (call.interrupted error number store).2) :
    invariant ((call >>= cont).interrupted error number store).2 := by
  rw [interrupted_bind]
  rcases ended : call.interrupted error number store with ⟨result, reached⟩
  rw [ended] at holds
  cases result with
  | ok value => exact (rest value).interrupted_keeps error kept holds
  | error thrown => exact holds

section

variable {γ : Type}

omit [Statement ι σ] in
theorem forEach_append (items more : List β) (body : β → Call ι σ ε Unit) :
    Call.forEach (items ++ more) body = Call.forEach items body >>= fun _ => Call.forEach more body := by
  induction items with
  | nil => rfl
  | cons item items ih =>
    change (body item >>= fun _ => Call.forEach (items ++ more) body) = _
    rw [ih]
    exact (bind_assoc (body item) _ _).symm

omit [Statement ι σ] in
theorem forEach_map (items : List γ) (change : γ → β) (body : β → Call ι σ ε Unit) :
    Call.forEach (items.map change) body = Call.forEach items fun item => body (change item) := by
  induction items with
  | nil => rfl
  | cons item items ih =>
    change (body (change item) >>= fun _ => Call.forEach (items.map _) body) = _
    rw [ih]
    rfl

omit [Statement ι σ] in
theorem forEach_flatMap (items : List γ) (expand : γ → List β) (body : β → Call ι σ ε Unit) :
    Call.forEach (items.flatMap expand) body = Call.forEach items fun item => Call.forEach (expand item) body := by
  induction items with
  | nil => rfl
  | cons item items ih =>
    rw [flatMap_cons, forEach_append, ih]
    rfl

end

structure Runs (call : Call ι σ ε α) (store : σ) (count : Nat) (value : α) (reached : σ) : Prop where
  ended : call.alone store = (.ok value, reached)
  counted : call.statements store = count

theorem Runs.ret (value : α) (store : σ) : (Call.ret value : Call ι σ ε α).Runs store 0 value store :=
  ⟨rfl, rfl⟩

theorem Runs.perform (statement : ι) (query : σ → α) (store : σ) :
    (Call.perform statement query : Call ι σ ε α).Runs store 1 (query store) (effect statement store) :=
  ⟨rfl, rfl⟩

variable {count : Nat}

theorem Runs.bind {final : σ} {more : Nat} {result : α} (first : call.Runs store count value reached)
    (rest : (cont value).Runs reached more result final) :
    (call >>= cont).Runs store (count + more) result final := by
  constructor
  · rw [alone_bind, first.ended]
    exact rest.ended
  · rw [statements_bind first.ended, first.counted, rest.counted]

theorem Runs.forEach {items : List β} {body : β → Call ι σ ε Unit} {count : β → Nat}
    {invariant : List β → σ → Prop} (start : invariant [] store)
    (each : ∀ earlier item later, items = earlier ++ item :: later → ∀ reached, invariant earlier reached →
        ∃ final, (body item).Runs reached (count item) () final ∧ invariant (earlier ++ [item]) final) :
    ∃ final, (Call.forEach items body).Runs store (items.map count).sum () final ∧ invariant items final := by
  have loop : ∀ later earlier reached, items = earlier ++ later → invariant earlier reached →
      ∃ final, (Call.forEach later body).Runs reached (later.map count).sum () final ∧ invariant items final := by
    intro later
    induction later with
    | nil =>
      intro earlier reached split holds
      rw [append_nil] at split
      exact ⟨reached, .ret () reached, split ▸ holds⟩
    | cons item later ih =>
      intro earlier reached split holds
      obtain ⟨middle, ran, kept⟩ := each earlier item later split reached holds
      have shifted : items = (earlier ++ [item]) ++ later := by simp [split]
      obtain ⟨final, rest, last⟩ := ih (earlier ++ [item]) middle shifted kept
      refine ⟨final, ?_, last⟩
      rw [map_cons, sum_cons]
      exact ran.bind rest
  exact loop items [] store rfl start

theorem Runs.interrupted_of_le {call : Call ι σ ε α} {value : α}
    (runs : call.Runs store count value reached) (error : ε) (beyond : count ≤ number) :
    call.interrupted error number store = (.ok value, reached) := by
  rw [Call.interrupted_of_le error (runs.counted.symm ▸ beyond), runs.ended]

section

variable (runs : call.Runs store 1 value reached)
include runs

theorem Runs.interrupted_zero (error : ε) (cont : β → Call ι σ ε α) :
    (call >>= cont).interrupted error 0 store = (.error error, store) := by
  cases call with
  | ret value | raise thrown => cases runs.counted
  | stmt statement next => rfl

theorem Runs.interrupted_succ (error : ε) (cont : β → Call ι σ ε α) (number : Nat) :
    (call >>= cont).interrupted error (number + 1) store =
      (cont value).interrupted error number reached := by
  rw [interrupted_bind, runs.interrupted_of_le error (Nat.le_add_left 1 number), runs.counted]
  rfl

def faulted (error : ε) (failing : Option Nat) (call : Call ι σ ε α) (store : σ) : Except ε α × σ :=
  match failing with
  | none => call.alone store
  | some number => call.interrupted error number store

omit runs in
theorem faulted_bind (error : ε) (failing : Option Nat) (call : Call ι σ ε β)
    (cont : β → Call ι σ ε α) (store : σ) :
    (call >>= cont).faulted error failing store =
      match call.faulted error failing store with
      | (.ok value, reached) =>
        (cont value).faulted error (failing.map (· - call.statements store)) reached
      | (.error thrown, reached) => (.error thrown, reached) := by
  cases failing with
  | none => exact alone_bind call cont store
  | some number => exact interrupted_bind error call cont number store

variable {error : ε} {failing : Option Nat}

omit runs in
theorem faulted_bind_error {thrown : ε} (ended : call.faulted error failing store = (.error thrown, reached))
    (cont : β → Call ι σ ε α) :
    (call >>= cont).faulted error failing store = (.error thrown, reached) := by
  rw [faulted_bind, ended]

omit runs in
theorem alone_of_faulted {call : Call ι σ ε α} {value : α}
    (ended : call.faulted error failing store = (.ok value, reached)) : call.alone store = (.ok value, reached) := by
  cases failing with
  | none => exact ended
  | some number =>
    rw [faulted] at ended
    by_cases within : number < call.statements store
    · cases (interrupted_of_lt error within).symm.trans (congrArg Prod.fst ended)
    · rw [interrupted_of_le error (Nat.not_lt.mp within)] at ended
      exact ended

theorem Runs.faulted_one (error : ε) (failing : Option Nat) (cont : β → Call ι σ ε α) :
    (call >>= cont).faulted error failing store = if failing = some 0 then (.error error, store)
      else (cont value).faulted error (failing.map (· - 1)) reached := by
  cases failing with
  | none =>
    rw [faulted, alone_bind, runs.ended]
    rfl
  | some number =>
    cases number with
    | zero => exact runs.interrupted_zero error cont
    | succ number => exact runs.interrupted_succ error cont number

theorem Runs.faulted_succ (error : ε) (later : Option Nat) (cont : β → Call ι σ ε α) :
    (call >>= cont).faulted error (later.map (· + 1)) store =
      (cont value).faulted error later reached := by
  rw [runs.faulted_one error]
  cases later <;> rfl

end

section

variable {call : Call ι σ ε α}

theorem Runs.faulted_of_le {value : α} (runs : call.Runs store count value reached) (error : ε)
    (beyond : ∀ number, failing = some number → count ≤ number) :
    call.faulted error failing store = (.ok value, reached) := by
  cases failing with
  | none => exact runs.ended
  | some number => exact runs.interrupted_of_le error (beyond number rfl)

theorem Runs.beyond_of_faulted {final : σ} {value result : α} (runs : call.Runs store count value reached)
    (ended : call.faulted error failing store = (.ok result, final)) :
    ∀ number, failing = some number → count ≤ number := by
  rintro number rfl
  by_contra short
  rw [Nat.not_le, ← runs.counted] at short
  cases (interrupted_of_lt error short).symm.trans (congrArg Prod.fst ended)

theorem Issues.faulted_keeps (error : ε) (failing : Option Nat) (issues : call.Issues issued)
    (kept : ∀ statement, issued statement → ∀ found, invariant found → invariant (effect statement found))
    (holds : invariant store) : invariant (call.faulted error failing store).2 := by
  cases failing with
  | none => exact issues.alone_keeps kept holds
  | some number => exact issues.interrupted_keeps error kept holds

omit [Statement ι σ] in
theorem Issues.mapError {δ : Type} (issues : call.Issues issued) (report : ε → δ) :
    (call.mapError report).Issues issued := by
  induction call with
  | ret value | raise error => trivial
  | stmt statement next ih => exact ⟨issues.1, fun store => ih store (issues.2 store)⟩

end

/-- A call keeps the invariant when it throws; it may break it as its last step. -/
def ThrowsWithin (error : ε) (invariant : σ → Prop) (call : Call ι σ ε α) : Prop :=
  ∀ failing store, invariant store → ∀ thrown reached,
    call.faulted error failing store = (.error thrown, reached) → invariant reached

theorem ThrowsWithin.perform (error : ε) (invariant : σ → Prop) (statement : ι) (query : σ → α) :
    (Call.perform statement query : Call ι σ ε α).ThrowsWithin error invariant := by
  intro failing store holds thrown reached ended
  match failing with
  | none => cases ended
  | some 0 =>
    cases ended
    exact holds
  | some (number + 1) => cases ended

theorem Issues.throwsWithin_bind (first : call.Issues issued)
    (kept : ∀ statement, issued statement → ∀ found, invariant found → invariant (effect statement found))
    (rest : ∀ value, (cont value).ThrowsWithin error invariant) :
    (call >>= cont).ThrowsWithin error invariant := by
  intro failing store holds thrown reached ended
  have middle := first.faulted_keeps error failing kept holds
  rw [faulted_bind] at ended
  rcases halfway : call.faulted error failing store with ⟨result, found⟩
  rw [halfway] at ended middle
  cases result with
  | ok value => exact rest value _ found middle thrown reached ended
  | error failed =>
    cases ended
    exact middle

/-- Bodies of so many statements, which do nothing before their last one: the fault hits one of
them, and leaves the others before it. -/
theorem interrupted_forEach {items : List β} {body : β → Call ι σ ε Unit}
    {invariant : List β → σ → Prop} (some : 0 < count) (start : invariant [] store)
    (each : ∀ earlier item later, items = earlier ++ item :: later → ∀ reached, invariant earlier reached →
        (∃ final, (body item).Runs reached count () final ∧ invariant (earlier ++ [item]) final) ∧
          ∀ number, number < count → (body item).interrupted error number reached = (.error error, reached))
    (within : number < count * items.length) :
    ∃ final, (Call.forEach items body).interrupted error number store = (.error error, final) ∧
      invariant (items.take (number / count)) final := by
  have loop : ∀ later earlier reached number, items = earlier ++ later → invariant earlier reached →
      number < count * later.length →
        ∃ final, (Call.forEach later body).interrupted error number reached = (.error error, final) ∧
          invariant (earlier ++ later.take (number / count)) final := by
    intro later
    induction later with
    | nil =>
      intro earlier reached number _ _ nowhere
      cases nowhere
    | cons item later ih =>
      intro earlier reached number split holds bound
      obtain ⟨⟨middle, ran, kept⟩, halts⟩ := each earlier item later split reached holds
      by_cases first : number < count
      · refine ⟨reached, ?_, ?_⟩
        · change ((body item) >>= fun _ => Call.forEach later body).interrupted error number reached = _
          rw [interrupted_bind, halts number first]
        · rw [Nat.div_eq_of_lt first, take_zero, append_nil]
          exact holds
      · have past := Nat.not_lt.mp first
        rw [length_cons, Nat.mul_succ] at bound
        obtain ⟨final, ended, last⟩ := ih (earlier ++ [item]) middle (number - count) (by simp [split]) kept (by omega)
        refine ⟨final, ?_, ?_⟩
        · change ((body item) >>= fun _ => Call.forEach later body).interrupted error number reached = _
          rw [interrupted_bind, ran.interrupted_of_le error past, ran.counted]
          exact ended
        · have shifted : number / count = (number - count) / count + 1 := by
            rw [← Nat.add_div_right _ some, Nat.sub_add_cancel past]
          rw [shifted, take_succ_cons, append_cons]
          exact last
  exact loop items [] store number rfl start within

section

variable {κ τ δ : Type} [Statement κ τ]

theorem statements_lift {embed : ι → κ} {view : τ → σ} (agrees : ∀ statement store,
      view (effect (embed statement) store) = effect statement (view store))
    (call : Call ι σ ε α) (store : τ) : (call.lift embed view).statements store = call.statements (view store) := by
  induction call generalizing store with
  | ret value | raise error => rfl
  | stmt statement next ih =>
    have later := ih (view store) (effect (embed statement) store)
    rw [agrees] at later
    exact congrArg (· + 1) later

theorem statements_mapError (report : ε → δ) (call : Call ι σ ε α) (store : σ) :
    (call.mapError report).statements store = call.statements store := by
  induction call generalizing store with
  | ret value | raise error => rfl
  | stmt statement next ih => exact congrArg (· + 1) (ih store (effect statement store))

end

end EveHorizon.Interleaving.Call
