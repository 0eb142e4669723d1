import EveHorizon.Library.RelyGuarantee

/-!
# Calls that fail

A call of which one statement fails.
-/

namespace EveHorizon.Interleaving.Call

variable {ι σ ε α : Type}

def failingAt (error : ε) : Nat → Call ι σ ε α → Call ι σ ε α
  | _, .ret value => .ret value
  | _, .raise thrown => .raise thrown
  | 0, .stmt _ _ => .raise error
  | number + 1, .stmt statement next =>
    .stmt statement fun store => (next store).failingAt error number

theorem SafeWhile.failingAt [Statement ι σ] {discipline : Discipline ι σ} {promised : ι → σ → Prop}
    {session : Nat} {result : Except ε α → σ → Prop} {call : Call ι σ ε α} {error : ε} {store : σ}
    (safe : call.SafeWhile discipline promised session result store)
    (fails : ∀ reached, result (.error error) reached) (number : Nat) :
    (call.failingAt error number).SafeWhile discipline promised session result store := by
  induction call generalizing number store with
  | ret value | raise thrown =>
    rw [Call.failingAt]
    exact safe
  | stmt statement next ih =>
    cases number with
    | zero => exact fails store
    | succ number =>
      intro found relied holds isReady kept
      obtain ⟨isAllowed, onward⟩ := safe found relied holds isReady kept
      exact ⟨isAllowed, ih found onward number⟩

end EveHorizon.Interleaving.Call
