import EveHorizon.Library.Precedence
import Mathlib.Data.Set.Finite.Lattice

/-!
# Cascades

Things that give rise to finitely many things each.
-/

namespace EveHorizon.Precedence

variable {α κ : Type}

theorem Acyclic.exists_rank {follows : κ → κ → Prop} (acyclic : Acyclic follows)
    (kinds : Finset κ) (known : ∀ kind next, follows kind next → next ∈ kinds) :
    ∃ rank : κ → Nat, ∀ kind next, follows kind next → rank next < rank kind := by
  classical
  refine ⟨fun kind => (kinds.filter (Relation.TransGen follows kind)).card, ?_⟩
  intro kind next step
  apply Finset.card_lt_card
  constructor
  · intro below member
    obtain ⟨isKind, path⟩ := Finset.mem_filter.mp member
    exact Finset.mem_filter.mpr ⟨isKind, path.head step⟩
  · intro contained
    have itself := contained (Finset.mem_filter.mpr ⟨known kind next step, .single step⟩)
    exact acyclic next (Finset.mem_filter.mp itself).2

def Cascade (children : α → List α) (first : α) : Set α :=
  {reached | Relation.ReflTransGen (fun thing child => child ∈ children thing) first reached}

theorem cascade_subset (children : α → List α) (first : α) :
    Cascade children first ⊆ {first} ∪ ⋃ child ∈ {child | child ∈ children first}, Cascade children child := by
  intro reached path
  cases Relation.ReflTransGen.cases_head path with
  | inl same => exact .inl same.symm
  | inr step =>
    obtain ⟨child, isChild, later⟩ := step
    exact .inr (Set.mem_biUnion isChild later)

section

variable {children : α → List α} {possible : α → Prop}
  (preserves : ∀ thing, possible thing → ∀ child ∈ children thing, possible child)

include preserves

variable {first : α}

theorem cascade_finite_of_rank (rank : α → Nat)
    (descends : ∀ thing, possible thing → ∀ child ∈ children thing, rank child < rank thing)
    (isPossible : possible first) : (Cascade children first).Finite := by
  induction bound : rank first using Nat.strong_induction_on generalizing first with
  | _ height ih =>
    refine Set.Finite.subset ?_ (cascade_subset children first)
    refine (Set.finite_singleton first).union ?_
    refine Set.Finite.biUnion (List.finite_toSet (children first)) fun child isChild => ?_
    exact ih (rank child) (bound ▸ descends first isPossible child isChild)
      (preserves first isPossible child isChild) rfl

theorem cascade_finite {kind : α → κ} {follows : κ → κ → Prop}
    (steps : ∀ thing, possible thing → ∀ child ∈ children thing, follows (kind thing) (kind child))
    (acyclic : Acyclic follows) (kinds : Finset κ) (known : ∀ kind next, follows kind next → next ∈ kinds)
    (isPossible : possible first) : (Cascade children first).Finite := by
  obtain ⟨rank, descends⟩ := acyclic.exists_rank kinds known
  exact cascade_finite_of_rank preserves (fun thing => rank (kind thing))
    (fun thing isThing child isChild => descends _ _ (steps thing isThing child isChild)) isPossible

end

theorem cascade_infinite {children : α → List α} (depth : α → Nat) {endless : α → Prop}
    (continues : ∀ thing, endless thing → ∃ child ∈ children thing, endless child ∧ depth thing < depth child)
    {first : α} (isEndless : endless first) : ¬ (Cascade children first).Finite := by
  intro finite
  have deep (level : Nat) : ∃ reached ∈ Cascade children first, endless reached ∧ level ≤ depth reached := by
    induction level with
    | zero => exact ⟨first, .refl, isEndless, Nat.zero_le _⟩
    | succ level ih =>
      obtain ⟨reached, member, further, reaches⟩ := ih
      obtain ⟨child, isChild, endlessChild, deeper⟩ := continues reached further
      exact ⟨child, member.tail isChild, endlessChild, Nat.succ_le_of_lt (reaches.trans_lt deeper)⟩
  obtain ⟨bound, isBound⟩ := (finite.image depth).bddAbove
  obtain ⟨reached, member, _, above⟩ := deep (bound + 1)
  exact absurd (isBound (Set.mem_image_of_mem depth member)) (by omega)

end EveHorizon.Precedence
