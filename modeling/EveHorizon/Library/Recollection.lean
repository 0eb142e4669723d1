import EveHorizon.Library.Traces

/-!
# Calls with a memory

What a call keeps in mind of its executions decides what it may issue. A call that recalls keeps
all of them in mind, with the stores they found.
-/

namespace EveHorizon.Interleaving

open List

variable {ι κ σ τ ε α β μ ω : Type}

namespace Call

/-- With the memory, the call issues only what it may issue then, and ends as the postcondition
says. -/
def Heeds (note : μ → ι → σ → μ) (may : μ → ι → Prop) (post : μ → Except ε α → Prop) : Call ι σ ε α → μ → Prop
  | .ret value, memory => post memory (.ok value)
  | .raise error, memory => post memory (.error error)
  | .stmt statement next, memory =>
    may memory statement ∧ ∀ found, (next found).Heeds note may post (note memory statement found)

variable {note : μ → ι → σ → μ} {may : μ → ι → Prop} {post : μ → Except ε α → Prop} {memory : μ} {call : Call ι σ ε α}

theorem Heeds.imp {weaker : μ → Except ε α → Prop} (heeds : call.Heeds note may post memory)
    (weaken : ∀ reached result, post reached result → weaker reached result) : call.Heeds note may weaker memory := by
  induction call generalizing memory with
  | ret value | raise error => exact weaken memory _ heeds
  | stmt statement next ih => exact ⟨heeds.1, fun found => ih found (heeds.2 found)⟩

theorem Heeds.bind {call : Call ι σ ε β} {cont : β → Call ι σ ε α}
    {middle : μ → Except ε β → Prop} (first : call.Heeds note may middle memory)
    (rest : ∀ value reached, middle reached (.ok value) → (cont value).Heeds note may post reached)
    (failed : ∀ error reached, middle reached (.error error) → post reached (.error error)) :
    (call >>= cont).Heeds note may post memory := by
  induction call generalizing memory with
  | ret value => exact rest value memory first
  | raise error => exact failed error memory first
  | stmt statement next ih => exact ⟨first.1, fun found => ih found (first.2 found)⟩

theorem Heeds.handle {handler : ε → Call ι σ ε α} {middle : μ → Except ε α → Prop}
    (first : call.Heeds note may middle memory)
    (returned : ∀ value reached, middle reached (.ok value) → post reached (.ok value))
    (handled : ∀ error reached, middle reached (.error error) → (handler error).Heeds note may post reached) :
    (call.handle handler).Heeds note may post memory := by
  induction call generalizing memory with
  | ret value => exact returned value memory first
  | raise error => exact handled error memory first
  | stmt statement next ih => exact ⟨first.1, fun found => ih found (first.2 found)⟩

theorem Heeds.lift {inner : μ → κ → τ → μ} {embed : κ → ι} {view : σ → τ} {call : Call κ τ ε α}
    (heeds : call.Heeds inner (fun memory statement => may memory (embed statement)) post memory)
    (same : ∀ memory statement found, note memory (embed statement) found = inner memory statement (view found)) :
    (call.lift embed view).Heeds note may post memory := by
  induction call generalizing memory with
  | ret value | raise error => exact heeds
  | stmt statement next ih =>
    refine ⟨heeds.1, fun found => ?_⟩
    rw [same]
    exact ih (view found) (heeds.2 (view found))

theorem Issues.heeds {issued : ι → Prop} {kind : μ → Prop} (issues : call.Issues issued) (start : kind memory)
    (free : ∀ statement memory, issued statement → kind memory → may memory statement)
    (stays : ∀ statement memory found, issued statement → kind memory → kind (note memory statement found)) :
    call.Heeds note may (fun reached _ => kind reached) memory := by
  induction call generalizing memory with
  | ret value | raise error => exact start
  | stmt statement next ih =>
    refine ⟨free statement memory issues.1 start, fun found => ih found (issues.2 found) ?_⟩
    exact stays statement memory found issues.1 start

theorem NoRaise.heeds (safe : call.NoRaise fun _ _ => True) (heeds : call.Heeds note may post memory) :
    call.Heeds note may (fun reached result => post reached result ∧ result.isOk = true) memory := by
  induction call generalizing memory with
  | ret value => exact ⟨heeds, rfl⟩
  | raise error => exact safe.elim
  | stmt statement next ih =>
    exact ⟨heeds.1, fun found => ih found (safe found trivial) (heeds.2 found)⟩

theorem Heeds.forEach {items : List β} {body : β → Call ι σ ε Unit} {invariant : μ → Prop}
    (start : invariant memory) (each : ∀ item ∈ items, ∀ reached, invariant reached →
      (body item).Heeds note may (fun later _ => invariant later) reached) :
    (Call.forEach items body).Heeds note may (fun later _ => invariant later) memory := by
  induction items generalizing memory with
  | nil => exact start
  | cons item rest ih =>
    have first := each item mem_cons_self memory start
    refine first.bind (fun _ reached holds => ?_) fun _ _ holds => holds
    exact ih holds fun other member => each other (mem_cons_of_mem item member)

theorem Heeds.after {rest : Call ι σ ε α} {steps : List (ι × σ)}
    (heeds : call.Heeds note may post memory) (after : call.After steps rest) :
    rest.Heeds note may post (steps.foldl (fun memory step => note memory step.1 step.2) memory) := by
  induction steps generalizing call memory with
  | nil =>
    rw [← Call.after_nil.mp after]
    exact heeds
  | cons step steps ih =>
    cases call with
    | ret value | raise error => cases after
    | stmt statement next =>
      obtain ⟨same, onward⟩ := after
      have later := ih (heeds.2 step.2) onward
      rw [← same] at later
      exact later

/-- After the steps, the call issues only what it may issue after the steps before it, and ends
as the postcondition says. -/
abbrev Recalls (may : List (ι × σ) → ι → Prop) (post : List (ι × σ) → Except ε α → Prop) :
    Call ι σ ε α → List (ι × σ) → Prop :=
  Heeds (fun steps statement found => steps ++ [(statement, found)]) may post

section

variable {may : List (ι × σ) → ι → Prop} {steps : List (ι × σ)}

section

variable {cont : β → Call ι σ ε α} {post : List (ι × σ) → Except ε α → Prop}

theorem recalls_perform_bind {statement : ι} {query : σ → β} (allowed : may steps statement)
    (rest : ∀ found, (cont (query found)).Recalls may post (steps ++ [(statement, found)])) :
    ((Call.perform statement query : Call ι σ ε β) >>= cont).Recalls may post steps :=
  ⟨allowed, rest⟩

theorem Heeds.free_bind {call : Call ι σ ε β} (first : call.Recalls may (fun _ _ => True) steps)
    (rest : ∀ value reached, (cont value).Recalls may (fun _ _ => True) reached) :
    (call >>= cont).Recalls may (fun _ _ => True) steps :=
  first.bind (fun value reached _ => rest value reached) fun _ _ _ => trivial

theorem Heeds.free_handle {handler : ε → Call ι σ ε α} (first : call.Recalls may (fun _ _ => True) steps)
    (handled : ∀ error reached, (handler error).Recalls may (fun _ _ => True) reached) :
    (call.handle handler).Recalls may (fun _ _ => True) steps :=
  first.handle (fun _ _ _ => trivial) fun error reached _ => handled error reached

theorem Issues.recalls {issued : ι → Prop} (issues : call.Issues issued)
    (free : ∀ statement, issued statement → ∀ steps, may steps statement) :
    call.Recalls may (fun _ _ => True) steps :=
  issues.heeds trivial (fun statement steps isIssued _ => free statement isIssued steps) fun _ _ _ _ _ => trivial

theorem Heeds.recalled {rest : Call ι σ ε α} {more : List (ι × σ)} (recalls : call.Recalls may post steps)
    (after : call.After more rest) : rest.Recalls may post (steps ++ more) := by
  have reached : more.foldl (fun steps step => steps ++ [step]) steps = steps ++ more :=
    foldl_append_eq_append.trans (congrArg _ (flatMap_singleton' more))
  exact reached ▸ recalls.after after

end

end

end Call

def stepsIn (trace : List (Execution ι σ)) (session : Nat) : List (ι × σ) :=
  (trace.filter (·.session == session)).map fun execution =>
    (execution.statement, execution.before)

variable [Statement ι σ] (program : Nat → ω → Call ι σ ε α) {earlier later : List (Execution ι σ)}
  {execution : Execution ι σ}

theorem System.run_reached (store : σ) (schedule : List (Choice ω))
    (split : (run program store schedule).trace = earlier ++ execution :: later) :
    ∃ operation next, (operations schedule)[execution.session]? = some operation ∧
      (program execution.session operation).After (stepsIn earlier execution.session)
        (.stmt execution.statement next) := by
  induction schedule using List.reverseRecOn generalizing later with
  | nil => simp [run, play, initial] at split
  | append_singleton before choice ih =>
    have stays : ∀ {operation : ω}, (operations before)[execution.session]? = some operation →
        (operations (before ++ [choice]))[execution.session]? = some operation := by
      intro operation named
      have inside := (List.getElem?_eq_some_iff.mp named).1
      rw [operations, filterMap_append]
      exact (getElem?_append_left inside).trans named
    have moved : run program store (before ++ [choice]) = (run program store before).move program choice := by
      simp [run, play, foldl_append]
    have traced := run_traced program store before
    let executes := fun system : System ι σ ε α => ∀ others : List (Execution ι σ),
      system.trace = earlier ++ execution :: others →
        ∃ operation next, (operations (before ++ [choice]))[execution.session]? = some operation ∧
          (program execution.session operation).After (stepsIn earlier execution.session)
            (.stmt execution.statement next)
    suffices executes ((run program store before).move program choice) from this later (moved ▸ split)
    have unmoved : executes (run program store before) := by
      intro others same
      obtain ⟨operation, next, named, reached⟩ := ih same
      exact ⟨operation, next, stays named, reached⟩
    refine move_induction program executes unmoved choice (fun _ _ => unmoved)
      (fun _ _ _ _ => unmoved) ?_
    intro position session statement next selected _ later split
    rcases eq_nil_or_concat' later with rfl | ⟨others, last, rfl⟩
    · obtain ⟨sameTrace, single⟩ := append_inj' split rfl
      cases single
      obtain ⟨operation, named, reached⟩ := traced.reached _ (mem_of_getElem? selected)
      rw [stepsOf, sameTrace] at reached
      exact ⟨operation, next, stays named, reached⟩
    · rw [execute, ← cons_append, ← append_assoc] at split
      exact unmoved _ (append_inj' split rfl).1

theorem System.run_attributed {issued : ω → ι → Prop}
    (issues : ∀ session operation, (program session operation).Issues (issued operation)) (store : σ)
    (schedule : List (Choice ω)) : ∀ execution ∈ (run program store schedule).trace, ∃ operation,
      (operations schedule)[execution.session]? = some operation ∧ issued operation execution.statement := by
  intro execution member
  obtain ⟨earlier, later, split⟩ := append_of_mem member
  obtain ⟨operation, next, named, reached⟩ := run_reached program store schedule split
  have recalls : (program execution.session operation).Recalls (fun _ => issued operation) (fun _ _ => True) [] :=
    (issues _ operation).recalls fun _ isIssued _ => isIssued
  exact ⟨operation, named, (recalls.after reached).1⟩

theorem System.run_issued {issued : ι → Prop}
    (issues : ∀ session operation, (program session operation).Issues issued) (store : σ)
    (schedule : List (Choice ω)) : ∀ execution ∈ (run program store schedule).trace, issued execution.statement := by
  intro execution member
  obtain ⟨_, _, isIssued⟩ := run_attributed program issues store schedule execution member
  exact isIssued

theorem System.run_heeds {note : μ → ι → σ → μ} {may : μ → ι → Prop} {post : μ → Except ε α → Prop} {start : μ}
    (store : σ) (schedule : List (Choice ω))
    (heeds : ∀ operation, (operations schedule)[execution.session]? = some operation →
      (program execution.session operation).Heeds note may post start)
    (split : (run program store schedule).trace = earlier ++ execution :: later) :
    may ((stepsIn earlier execution.session).foldl
      (fun memory step => note memory step.1 step.2) start) execution.statement := by
  obtain ⟨operation, next, named, reached⟩ := run_reached program store schedule split
  exact ((heeds operation named).after reached).1

variable {store : σ}

/-- What each statement keeps, given that the statements before it found it, holds throughout. -/
theorem System.run_history_invariant {invariant : σ → Prop} (start : invariant store) (schedule : List (Choice ω))
    (kept : ∀ earlier execution later, (run program store schedule).trace = earlier ++ execution :: later →
      (∀ older ∈ earlier, invariant older.before) → invariant execution.before →
      invariant (Statement.effect execution.statement execution.before)) :
    ∀ execution ∈ (run program store schedule).trace, invariant execution.before ∧
        invariant (Statement.effect execution.statement execution.before) := by
  have found : ∀ earlier later, (run program store schedule).trace = earlier ++ later →
      (∀ execution ∈ earlier, invariant execution.before) ∧ invariant (executed (earlier.map (·.statement)) store) := by
    intro earlier
    induction earlier using List.reverseRecOn with
    | nil => exact fun _ _ => ⟨by simp, start⟩
    | append_singleton earlier execution ih =>
      intro later split
      rw [append_assoc, singleton_append] at split
      obtain ⟨older, reached⟩ := ih _ split
      have isBefore := run_before program store schedule split
      rw [← isBefore] at reached
      constructor
      · intro other member
        rcases mem_append.mp member with old | new
        · exact older other old
        · rw [mem_singleton.mp new]
          exact reached
      · rw [map_append, executed_append, ← isBefore]
        exact kept earlier execution later split older reached
  intro execution member
  obtain ⟨earlier, later, split⟩ := append_of_mem member
  obtain ⟨older, _⟩ := found earlier _ split
  have before := (found _ [] (by rw [append_nil])).1 execution member
  exact ⟨before, kept earlier execution later split older before⟩

theorem System.run_recalls {may : List (ι × σ) → ι → Prop} {post : ω → List (ι × σ) → Except ε α → Prop}
    (calls : ∀ session operation, (program session operation).Recalls may (post operation) []) (store : σ)
    (schedule : List (Choice ω)) :
    (∀ earlier execution later, (run program store schedule).trace = earlier ++ execution :: later →
        may (stepsIn earlier execution.session) execution.statement) ∧
    ∀ ending ∈ (run program store schedule).ended, ∃ operation,
      (operations schedule)[ending.session]? = some operation ∧
        post operation ((run program store schedule).stepsOf ending.session) ending.result := by
  constructor
  · intro earlier execution later split
    obtain ⟨operation, next, _, reached⟩ := run_reached program store schedule split
    exact ((calls execution.session operation).recalled reached).1
  · intro ending ended
    obtain ⟨_, _, operation, named, path⟩ := (run_traced program store schedule).finished ending ended
    refine ⟨operation, named, ?_⟩
    have final := (calls ending.session operation).recalled path
    cases result : ending.result with
    | ok value | error error =>
      rw [result] at final
      exact final

structure Window (marked : ι → Prop) (trace : List (Execution ι σ)) (mark : Execution ι σ)
    (middle : List (Execution ι σ)) (last : Execution ι σ) : Prop where
  split : ∃ earlier later, trace = earlier ++ mark :: middle ++ last :: later
  same : mark.session = last.session
  opens : marked mark.statement
  unmarked : ∀ execution ∈ middle, execution.session = last.session → ¬ marked execution.statement

theorem order_of_splits {front back earlier later : List β} {first second : β}
    (same : front ++ first :: back = earlier ++ second :: later) :
    (∃ middle, earlier = front ++ first :: middle ∧ back = middle ++ second :: later) ∨
      (front = earlier ∧ first = second) ∨
      ∃ middle, front = earlier ++ second :: middle ∧ later = middle ++ first :: back := by
  rcases append_eq_append_iff.mp same with ⟨part, isEarlier, rest⟩ | ⟨part, isFront, rest⟩
  · cases part with
    | nil =>
      rw [append_nil] at isEarlier
      cases rest
      exact .inr (.inl ⟨isEarlier.symm, rfl⟩)
    | cons head middle =>
      cases rest
      exact .inl ⟨middle, isEarlier, rfl⟩
  · cases part with
    | nil =>
      rw [append_nil] at isFront
      cases rest
      exact .inr (.inl ⟨isFront, rfl⟩)
    | cons head middle =>
      cases rest
      exact .inr (.inr ⟨middle, isFront, rfl⟩)

theorem pairwise_of_splits {relation : β → β → Prop} {items : List β}
    (related : ∀ earlier last later, items = earlier ++ last :: later →
      ∀ first ∈ earlier, relation first last) : items.Pairwise relation := by
  induction items using List.reverseRecOn with
  | nil => exact .nil
  | append_singleton earlier last ih =>
    rw [pairwise_append]
    refine ⟨ih ?_, pairwise_singleton _ _, ?_⟩
    · intro front middle others split
      exact related front middle (others ++ [last]) (by rw [split]; simp)
    · intro first member other single
      rw [mem_singleton.mp single]
      exact related earlier last [] rfl first member

variable {last : Execution ι σ}

omit [Statement ι σ] in
theorem window_of_steps (marked : ι → Prop) {trace earlier later : List (Execution ι σ)}
    (split : trace = earlier ++ last :: later) {front rest : List (ι × σ)} {statement : ι} {found : σ}
    (steps : stepsIn earlier last.session = front ++ (statement, found) :: rest) (isMarked : marked statement)
    (unmarked : ∀ step ∈ rest, ¬ marked step.1) :
    ∃ start mark middle, earlier = start ++ mark :: middle ∧ Window marked trace mark middle last ∧
      mark.statement = statement ∧ mark.before = found := by
  obtain ⟨before, after, isSplit, _, isAfter⟩ := map_eq_append_iff.mp steps
  obtain ⟨mark, others, isCons, isMark, isOthers⟩ := map_eq_cons_iff.mp isAfter
  rw [isCons] at isSplit
  obtain ⟨start, tail, whole, _, isTail⟩ := filter_eq_append_iff.mp isSplit
  obtain ⟨skipped, middle, isWhole, _, isSession, isMiddle⟩ := filter_eq_cons_iff.mp isTail
  have placed : earlier = start ++ skipped ++ mark :: middle := by rw [whole, isWhole, append_assoc]
  refine ⟨start ++ skipped, mark, middle, placed, ⟨⟨start ++ skipped, later, ?_⟩, ?_, ?_, ?_⟩, ?_, ?_⟩
  · rw [split, placed]
  · simpa using isSession
  · rw [(Prod.mk.inj isMark).1]
    exact isMarked
  · intro execution member sameSession isOther
    have kept : execution ∈ others := by
      rw [← isMiddle]
      exact mem_filter.mpr ⟨member, by simpa using sameSession⟩
    have step : (execution.statement, execution.before) ∈ rest := by
      rw [← isOthers]
      exact mem_map_of_mem kept
    exact unmarked _ step isOther
  · exact (Prod.mk.inj isMark).1
  · exact (Prod.mk.inj isMark).2

theorem Window.stands {program : Nat → ω → Call ι σ ε α} {schedule : List (Choice ω)} {marked : ι → Prop}
    {mark : Execution ι σ} {middle : List (Execution ι σ)}
    (window : Window marked (System.run program store schedule).trace mark middle last) (fact : σ → Prop)
    (start : fact (Statement.effect mark.statement mark.before))
    (kept : ∀ execution ∈ middle, fact execution.before → fact
      (Statement.effect execution.statement execution.before)) :
    fact last.before := by
  obtain ⟨earlier, later, split⟩ := window.split
  exact System.run_stretch program store schedule split start kept

end EveHorizon.Interleaving
