import Mathlib.Data.Finset.Card

/-!
# Closures by iteration

A step that adds to what is known, within a bound, is closed after as many rounds as the
bound has entries.
-/

namespace EveHorizon.Closure

open List

variable {α : Type}

section

variable {step : List α → List α} {bound : List α}
variable (grows : ∀ {known more : List α}, known ⊆ more → step known ⊆ step more)

include grows

theorem round_subset_next (round : Nat) : step^[round] [] ⊆ step^[round + 1] [] := by
  induction round with
  | zero => exact nil_subset _
  | succ round ih =>
    rw [Function.iterate_succ_apply', Function.iterate_succ_apply' step (round + 1)]
    exact grows ih

variable {round : Nat}

theorem round_closed (closed : step^[round + 1] [] ⊆ step^[round] []) : step^[round + 2] [] ⊆ step^[round + 1] [] := by
  rw [Function.iterate_succ_apply' step (round + 1), Function.iterate_succ_apply' step round]
  rw [Function.iterate_succ_apply' step round] at closed
  exact grows closed

theorem round_card [DecidableEq α] (adds : ¬ step^[round + 1] [] ⊆ step^[round] []) :
    round + 1 ≤ (step^[round + 1] []).toFinset.card := by
  induction round with
  | zero =>
    obtain ⟨entry, added⟩ := exists_mem_of_ne_nil (step^[1] []) (by
      intro empty
      rw [Nat.zero_add, empty] at adds
      exact adds (nil_subset _))
    exact Finset.card_pos.mpr ⟨entry, mem_toFinset.mpr added⟩
  | succ round ih =>
    have earlier := ih fun closed => adds (round_closed grows closed)
    have larger : (step^[round + 1] []).toFinset ⊂ (step^[round + 2] []).toFinset := by
      constructor
      · intro entry member
        rw [mem_toFinset] at member ⊢
        exact round_subset_next grows (round + 1) member
      · intro smaller
        apply adds
        intro entry member
        exact mem_toFinset.mp (smaller (mem_toFinset.mpr member))
    exact Nat.succ_le_of_lt (Nat.lt_of_le_of_lt earlier (Finset.card_lt_card larger))

theorem closed_after_bound [DecidableEq α] (within : ∀ known, step known ⊆ bound) :
    step (step^[bound.length] []) ⊆ step^[bound.length] [] := by
  rw [← Function.iterate_succ_apply' step]
  by_contra adds
  have known := round_card grows adds
  have most : (step^[bound.length + 1] []).toFinset.card ≤ bound.length := by
    refine (Finset.card_le_card ?_).trans (toFinset_card_le bound)
    intro entry member
    rw [mem_toFinset, Function.iterate_succ_apply'] at member
    exact mem_toFinset.mpr (within _ member)
  omega

end

end EveHorizon.Closure
