import EveHorizon.Library.Recollection
import EveHorizon.Library.Solo

/-!
# Calls under assumptions

What a call can issue as long as the stores its statements find are as assumed.
-/

namespace EveHorizon.Interleaving

open List

variable {ι κ σ τ ε α β ω : Type} {statement : ι}

namespace Call

def IssuesWhile (assumed : σ → Prop) (issued : ι → Prop) : Call ι σ ε α → Prop
  | .ret _ => True
  | .raise _ => True
  | .stmt statement next =>
    issued statement ∧ ∀ store, assumed store → (next store).IssuesWhile assumed issued

variable {assumed : σ → Prop} {issued : ι → Prop} {call : Call ι σ ε α}

theorem Issues.issuesWhile (issues : call.Issues issued) (assumed : σ → Prop) : call.IssuesWhile assumed issued := by
  induction call with
  | ret value | raise error => trivial
  | stmt statement next ih => exact ⟨issues.1, fun store _ => ih store (issues.2 store)⟩

theorem IssuesWhile.issues (issues : call.IssuesWhile assumed issued)
    (always : ∀ store, assumed store) : call.Issues issued := by
  induction call with
  | ret value | raise error => trivial
  | stmt statement next ih => exact ⟨issues.1, fun store => ih store (issues.2 store (always store))⟩

theorem IssuesWhile.imp {wider : ι → Prop} (issues : call.IssuesWhile assumed issued)
    (implies : ∀ statement, issued statement → wider statement) : call.IssuesWhile assumed wider := by
  induction call with
  | ret value | raise error => trivial
  | stmt statement next ih =>
    exact ⟨implies statement issues.1, fun store holds => ih store (issues.2 store holds)⟩

theorem issuesWhile_perform {query : σ → α} (holds : issued statement) :
    (Call.perform statement query : Call ι σ ε α).IssuesWhile assumed issued :=
  ⟨holds, fun _ _ => trivial⟩

theorem IssuesWhile.found {query : σ → Option β} {cont : Option β → Call ι σ ε α} (holds : issued statement)
    (missing : (cont none).IssuesWhile assumed issued)
    (found : ∀ row, (cont (some row)).IssuesWhile assumed issued) :
    (Call.perform statement query >>= cont).IssuesWhile assumed issued := by
  refine ⟨holds, fun store _ => ?_⟩
  change (cont (query store)).IssuesWhile assumed issued
  cases query store with
  | none => exact missing
  | some row => exact found row

variable {cont : β → Call ι σ ε α}

theorem issuesWhile_perform_bind {query : σ → β} (holds : issued statement)
    (rest : ∀ store, assumed store → (cont (query store)).IssuesWhile assumed issued) :
    ((Call.perform statement query : Call ι σ ε β) >>= cont).IssuesWhile assumed issued :=
  ⟨holds, rest⟩

theorem IssuesWhile.bind {call : Call ι σ ε β} (first : call.IssuesWhile assumed issued)
    (rest : ∀ value, (cont value).IssuesWhile assumed issued) :
    (call >>= cont).IssuesWhile assumed issued := by
  induction call with
  | ret value => exact rest value
  | raise error => trivial
  | stmt statement next ih =>
    exact ⟨first.1, fun store holds => ih store (first.2 store holds)⟩

theorem IssuesWhile.handle {handler : ε → Call ι σ ε α} (first : call.IssuesWhile assumed issued)
    (rest : ∀ error, (handler error).IssuesWhile assumed issued) :
    (call.handle handler).IssuesWhile assumed issued := by
  induction call with
  | ret value => trivial
  | raise error => exact rest error
  | stmt statement next ih =>
    exact ⟨first.1, fun store holds => ih store (first.2 store holds)⟩

theorem IssuesWhile.forEach {items : List β} {body : β → Call ι σ ε Unit}
    (each : ∀ item ∈ items, (body item).IssuesWhile assumed issued) :
    (Call.forEach items body).IssuesWhile assumed issued := by
  induction items with
  | nil => trivial
  | cons item rest ih =>
    have first := each item mem_cons_self
    have later := ih fun other member => each other (mem_cons_of_mem item member)
    exact first.bind fun _ => later

theorem IssuesWhile.lift {part : τ → Prop} {call : Call κ τ ε α} (embed : κ → ι) (view : σ → τ)
    (issues : call.IssuesWhile part fun statement => issued (embed statement))
    (seen : ∀ store, assumed store → part (view store)) : (call.lift embed view).IssuesWhile assumed issued := by
  induction call with
  | ret value | raise error => trivial
  | stmt statement next ih =>
    exact ⟨issues.1, fun store holds => ih (view store) (issues.2 (view store) (seen store holds))⟩

theorem IssuesWhile.after {rest : Call ι σ ε α} {steps : List (ι × σ)} (issues : call.IssuesWhile assumed issued)
    (after : call.After steps rest) (holds : ∀ step ∈ steps, assumed step.2) : rest.IssuesWhile assumed issued := by
  induction steps generalizing call with
  | nil =>
    rw [← after_nil.mp after]
    exact issues
  | cons step steps ih =>
    cases call with
    | ret value | raise error => cases after
    | stmt statement next =>
      exact ih (issues.2 step.2 (holds step mem_cons_self)) after.2 fun other member =>
        holds other (mem_cons_of_mem step member)

theorem IssuesWhile.alone_keeps [Statement ι σ] {call : Call ι σ ε α} (issues : call.IssuesWhile assumed issued)
    (kept : ∀ statement, issued statement → ∀ store, assumed store →
      assumed (Statement.effect statement store)) {store : σ} (holds : assumed store) :
    assumed (call.alone store).2 := by
  induction call generalizing store with
  | ret value | raise error => exact holds
  | stmt statement next ih =>
    exact ih store (issues.2 store holds) (kept statement issues.1 store holds)

end Call

/-- An invariant under which the calls issue only certain statements holds throughout a run, if
those statements keep it in the executions of the run. -/
theorem System.run_watched [Statement ι σ] (program : Nat → ω → Call ι σ ε α) (condition : ι → Prop)
    {invariant : σ → Prop} {issued : ι → Prop} {store : σ} {schedule : List (Choice ω)}
    (calls : ∀ session operation, .start operation ∈ schedule →
      (program session operation).IssuesWhile invariant issued)
    (kept : ∀ statement before, invariant before → issued statement → condition statement →
      invariant (Statement.effect statement before)) (start : invariant store)
    (meets : ∀ execution ∈ (run program store schedule).trace, condition execution.statement) :
    invariant (run program store schedule).store ∧ ∀ execution ∈ (run program store schedule).trace,
      issued execution.statement ∧ invariant execution.before := by
  have isIssued : ∀ earlier execution later, (run program store schedule).trace = earlier ++ execution :: later →
      (∀ older ∈ earlier, invariant older.before) → issued execution.statement := by
    intro earlier execution later split older
    obtain ⟨operation, next, named, reached⟩ := run_reached program store schedule split
    have started : .start operation ∈ schedule := by
      obtain ⟨choice, member, isStart⟩ := mem_filterMap.mp (mem_of_getElem? named)
      cases choice with
      | start other =>
        cases isStart
        exact member
      | advance position => cases isStart
    refine ((calls _ operation started).after reached fun step member => ?_).1
    obtain ⟨other, isOther, rfl⟩ := mem_map.mp member
    exact older other (mem_filter.mp isOther).1
  have throughout := run_history_invariant program start schedule fun earlier execution later split older before =>
    kept _ _ before (isIssued earlier execution later split older)
      (meets execution (split ▸ mem_append_right _ mem_cons_self))
  constructor
  · refine (run_invariant program start schedule fun execution member _ => ?_).1
    rw [(run_executes program store schedule execution member).2]
    exact (throughout execution member).2
  · intro execution member
    obtain ⟨earlier, later, split⟩ := append_of_mem member
    refine ⟨isIssued earlier execution later split fun older isOlder => ?_, (throughout execution member).1⟩
    exact (throughout older (split ▸ mem_append_left _ isOlder)).1

end EveHorizon.Interleaving
