import EveHorizon.Library.Recollection

/-!
# Rely and guarantee for interleaved calls

A discipline says which statements a session may execute in which store, what each
session relies on when the others execute theirs, and an invariant that all of them
keep. A promise is what is known of the executions of one run.
-/

namespace EveHorizon.Interleaving

open List Statement

variable {ι σ ε α β ω : Type}

structure Discipline (ι σ : Type) [Statement ι σ] where
  inv : σ → Prop
  allowed : Nat → ι → σ → Prop
  rely : Nat → σ → σ → Prop
  rely_refl : ∀ session store, rely session store store
  rely_trans : ∀ {session first second third}, rely session first second →
    rely session second third → rely session first third
  keeps : ∀ {session statement store}, inv store → ready statement store = true →
    allowed session statement store → inv (effect statement store)
  respects : ∀ {session other statement store}, session ≠ other → inv store →
    ready statement store = true → allowed session statement store →
    rely other store (effect statement store)

variable [Statement ι σ]

namespace Call

/-- From the store, with the other sessions interfering as the session relies on and its own
executions as promised, the call executes allowed statements only and ends as the postcondition
says. -/
def SafeWhile (discipline : Discipline ι σ) (promised : ι → σ → Prop) (session : Nat)
    (post : Except ε α → σ → Prop) : Call ι σ ε α → σ → Prop
  | .ret value, store => post (.ok value) store
  | .raise error, store => post (.error error) store
  | .stmt statement next, store =>
    ∀ found, discipline.rely session store found → discipline.inv found →
      Statement.ready statement found = true → promised statement found → discipline.allowed session statement found ∧
          (next found).SafeWhile discipline promised session post (Statement.effect statement found)

/-- The call is safe whatever its own executions are. -/
abbrev Safe (discipline : Discipline ι σ) (session : Nat) (post : Except ε α → σ → Prop) :
    Call ι σ ε α → σ → Prop :=
  SafeWhile discipline (fun _ _ => True) session post

variable {discipline : Discipline ι σ} {promised : ι → σ → Prop} {session : Nat} {post : Except ε α → σ → Prop}
  {store : σ}

theorem SafeWhile.bind {call : Call ι σ ε β} {cont : β → Call ι σ ε α} {middle : Except ε β → σ → Prop}
    (first : call.SafeWhile discipline promised session middle store)
    (rest : ∀ value reached, middle (.ok value) reached →
      (cont value).SafeWhile discipline promised session post reached)
    (failed : ∀ error reached, middle (.error error) reached → post (.error error) reached) :
    (call >>= cont).SafeWhile discipline promised session post store := by
  induction call generalizing store with
  | ret value => exact rest value store first
  | raise error => exact failed error store first
  | stmt statement next ih =>
    intro found relied holds isReady kept
    obtain ⟨isAllowed, safe⟩ := first found relied holds isReady kept
    exact ⟨isAllowed, ih found safe⟩

variable {call : Call ι σ ε α}

theorem SafeWhile.handle {handler : ε → Call ι σ ε α} {middle : Except ε α → σ → Prop}
    (first : call.SafeWhile discipline promised session middle store)
    (returned : ∀ value reached, middle (.ok value) reached → post (.ok value) reached)
    (handled : ∀ error reached, middle (.error error) reached →
      (handler error).SafeWhile discipline promised session post reached) :
    (call.handle handler).SafeWhile discipline promised session post store := by
  induction call generalizing store with
  | ret value => exact returned value store first
  | raise error => exact handled error store first
  | stmt statement next ih =>
    intro found relied holds isReady kept
    obtain ⟨isAllowed, safe⟩ := first found relied holds isReady kept
    exact ⟨isAllowed, ih found safe⟩

theorem SafeWhile.imp {weaker : Except ε α → σ → Prop} (safe : call.SafeWhile discipline promised session post store)
    (implies : ∀ result reached, post result reached → weaker result reached) :
    call.SafeWhile discipline promised session weaker store := by
  induction call generalizing store with
  | ret value | raise error => exact implies _ _ safe
  | stmt statement next ih =>
    intro found relied holds isReady kept
    obtain ⟨isAllowed, later⟩ := safe found relied holds isReady kept
    exact ⟨isAllowed, ih found later⟩

theorem SafeWhile.forEach {items : List β} {body : β → Call ι σ ε Unit} {invariant : σ → Prop}
    (start : invariant store) (each : ∀ item ∈ items, ∀ reached, invariant reached →
      (body item).SafeWhile discipline promised session (fun _ => invariant) reached) :
    (Call.forEach items body).SafeWhile discipline promised session (fun _ => invariant) store := by
  induction items generalizing store with
  | nil => exact start
  | cons item rest ih =>
    refine (each item mem_cons_self store start).bind ?_ fun _ _ holds => holds
    intro _ reached holds
    exact ih holds fun other member => each other (mem_cons_of_mem item member)

theorem Issues.safe_lift {κ τ : Type} {issued : κ → Prop} {embed : κ → ι} {view : σ → τ}
    {call : Call κ τ ε α} (issues : call.Issues issued)
    (allows : ∀ statement, issued statement → ∀ found, discipline.inv found →
      discipline.allowed session (embed statement) found) :
    (call.lift embed view).Safe discipline session (fun _ _ => True) store := by
  induction call generalizing store with
  | ret value | raise error => trivial
  | stmt statement next ih =>
    intro found _ holds _ _
    exact ⟨allows statement issues.1 found holds, ih (view found) (issues.2 (view found))⟩

theorem SafeWhile.promise {more : ι → σ → Prop} (safe : call.SafeWhile discipline promised session post store)
    (implies : ∀ statement found, more statement found → promised statement found) :
    call.SafeWhile discipline more session post store := by
  induction call generalizing store with
  | ret value | raise error => exact safe
  | stmt statement next ih =>
    intro found relied holds isReady kept
    obtain ⟨isAllowed, onward⟩ := safe found relied holds isReady (implies statement found kept)
    exact ⟨isAllowed, ih found onward⟩

omit [Statement ι σ] in
theorem after_concat {rest : Call ι σ ε α} {steps : List (ι × σ)} {statement : ι} {found : σ}
    (after : call.After (steps ++ [(statement, found)]) rest) :
    ∃ next, call.After steps (.stmt statement next) ∧ next found = rest := by
  induction steps generalizing call with
  | nil =>
    cases call with
    | ret value | raise error => cases after
    | stmt first next =>
      obtain ⟨same, onward⟩ := after
      cases same
      exact ⟨next, after_nil.mpr rfl, after_nil.mp onward⟩
  | cons step steps ih =>
    cases call with
    | ret value | raise error => cases after
    | stmt first next =>
      obtain ⟨last, reached, isRest⟩ := ih after.2
      exact ⟨last, ⟨after.1, reached⟩, isRest⟩

end Call

variable {discipline : Discipline ι σ}

namespace System

structure Kept (discipline : Discipline ι σ) (promised : Nat → ι → σ → Prop)
    (post : Nat → ω → Except ε α → σ → Prop) (program : Nat → ω → Call ι σ ε α) (operations : List ω)
    (trace : List (Execution ι σ)) (store : σ) : Prop where
  inv : discipline.inv store
  executed : ∀ execution ∈ trace, discipline.inv execution.before ∧
    discipline.allowed execution.session execution.statement execution.before
  safe : ∀ session operation, operations[session]? = some operation → ∀ rest,
    (program session operation).After (stepsIn trace session) rest → ∃ reached, discipline.rely session reached store ∧
        rest.SafeWhile discipline (promised session) session (post session operation) reached

variable {promised : Nat → ι → σ → Prop} {post : Nat → ω → Except ε α → σ → Prop}

omit [Statement ι σ] in
theorem stepsIn_concat (trace : List (Execution ι σ)) (execution : Execution ι σ) (session : Nat) :
    stepsIn (trace ++ [execution]) session = stepsIn trace session ++
        if execution.session = session then [(execution.statement, execution.before)] else [] := by
  rw [stepsIn, filter_append, map_append]
  by_cases own : execution.session = session
  · rw [if_pos own, filter_cons_of_pos (by simpa using own)]
    rfl
  · rw [if_neg own, filter_cons_of_neg (by simpa using own)]
    rfl

theorem run_executed (program : Nat → ω → Call ι σ ε α) (store : σ) (schedule : List (Choice ω)) :
    (run program store schedule).store = executed ((run program store schedule).trace.map (·.statement)) store := by
  refine run_history program (fun history final => final = executed (history.map (·.statement)) store)
    rfl ?_ schedule
  intro history session statement before reached _
  rw [map_append, executed_append, ← reached]
  rfl

variable {program : Nat → ω → Call ι σ ε α} {execution : Execution ι σ}

theorem Kept.execute {operations : List ω} {trace : List (Execution ι σ)}
    (kept : Kept discipline promised post program operations trace execution.before) {operation : ω}
    (named : operations[execution.session]? = some operation) {next : σ → Call ι σ ε α}
    (reached : (program execution.session operation).After (stepsIn trace execution.session)
      (.stmt execution.statement next))
    (isReady : Statement.ready execution.statement execution.before = true)
    (asPromised : promised execution.session execution.statement execution.before) :
    Kept discipline promised post program operations (trace ++ [execution])
      (Statement.effect execution.statement execution.before) := by
  obtain ⟨since, relied, safe⟩ := kept.safe execution.session operation named _ reached
  obtain ⟨isAllowed, onward⟩ := safe execution.before relied kept.inv isReady asPromised
  constructor
  · exact discipline.keeps kept.inv isReady isAllowed
  · intro other member
    rcases mem_append.mp member with old | new
    · exact kept.executed other old
    · rw [mem_singleton.mp new]
      exact ⟨kept.inv, isAllowed⟩
  · intro session other isOther rest after
    rw [stepsIn_concat] at after
    by_cases own : execution.session = session
    · rw [if_pos own] at after
      rw [← own] at isOther after ⊢
      rw [named] at isOther
      cases isOther
      obtain ⟨last, isLast, isRest⟩ := Call.after_concat after
      obtain ⟨sinceToo, reliedToo, safeToo⟩ := kept.safe execution.session operation named _ isLast
      have final := (safeToo execution.before reliedToo kept.inv isReady asPromised).2
      rw [isRest] at final
      exact ⟨_, discipline.rely_refl _ _, final⟩
    · rw [if_neg own, append_nil] at after
      obtain ⟨sinceToo, reliedToo, safeToo⟩ := kept.safe session other isOther rest after
      exact ⟨sinceToo, discipline.rely_trans reliedToo (discipline.respects own kept.inv isReady isAllowed), safeToo⟩

variable {store : σ}

theorem run_kept (program : Nat → ω → Call ι σ ε α) (schedule : List (Choice ω))
    (calls : ∀ session operation, (operations schedule)[session]? = some operation →
      (program session operation).SafeWhile discipline (promised session) session (post session operation) store)
    (holds : discipline.inv store)
    (asPromised : ∀ execution ∈ (run program store schedule).trace,
      promised execution.session execution.statement execution.before) :
    Kept discipline promised post program (operations schedule) (run program store schedule).trace
      (run program store schedule).store := by
  have throughout : ∀ earlier later, (run program store schedule).trace = earlier ++ later →
      Kept discipline promised post program (operations schedule) earlier
        (executed (earlier.map (·.statement)) store) := by
    intro earlier
    induction earlier using List.reverseRecOn with
    | nil =>
      intro later split
      constructor
      · exact holds
      · exact fun _ member => nomatch member
      · intro session operation named rest after
        rw [← Call.after_nil.mp after]
        exact ⟨store, discipline.rely_refl _ _, calls session operation named⟩
    | append_singleton earlier execution ih =>
      intro later split
      rw [append_assoc, singleton_append] at split
      have ran : execution ∈ (run program store schedule).trace := by
        rw [split]
        simp
      obtain ⟨operation, next, named, reached⟩ := run_reached program store schedule split
      have isBefore := run_before program store schedule split
      have kept := ih _ split
      rw [← isBefore] at kept
      rw [map_append, executed_append, ← isBefore]
      exact kept.execute named reached (run_executes program store schedule execution ran).1 (asPromised execution ran)
  have whole := throughout (run program store schedule).trace [] (by rw [append_nil])
  rw [← run_executed] at whole
  exact whole

variable {schedule : List (Choice ω)}

theorem Kept.after
    (kept : Kept discipline promised post program (operations schedule) (run program store schedule).trace
      (run program store schedule).store)
    (ran : execution ∈ (run program store schedule).trace) : discipline.inv execution.after := by
  obtain ⟨isReady, isAfter⟩ := run_executes program store schedule execution ran
  obtain ⟨holds, isAllowed⟩ := kept.executed execution ran
  rw [isAfter]
  exact discipline.keeps holds isReady isAllowed

theorem Kept.ended
    (kept : Kept discipline promised post program (operations schedule) (run program store schedule).trace
      (run program store schedule).store)
    {ending : Ending σ ε α} (ended : ending ∈ (run program store schedule).ended) :
    ∃ operation, (operations schedule)[ending.session]? = some operation ∧
      ∃ reached, post ending.session operation ending.result reached ∧
        discipline.rely ending.session reached (run program store schedule).store := by
  obtain ⟨_, _, operation, named, path⟩ := (run_traced program store schedule).finished ending ended
  obtain ⟨reached, relied, safe⟩ := kept.safe ending.session operation named _ path
  refine ⟨operation, named, reached, ?_, relied⟩
  cases result : ending.result with
  | ok value | error error =>
    rw [result] at safe
    exact safe

end System

end EveHorizon.Interleaving
