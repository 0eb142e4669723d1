import Mathlib.Data.Set.Image

/-!
# Entries that admit resources

Two sets of entries admit the same resources exactly when what only one of them holds
admits nothing that the other does not.
-/

namespace EveHorizon.Coverage

variable {α ρ : Type} {admits : α → ρ → Prop}

def Admitted (admits : α → ρ → Prop) (entries : Set α) (resource : ρ) : Prop :=
  ∃ entry ∈ entries, admits entry resource

variable {entries : Set α} {resource : ρ} {more : Set α}

theorem Admitted.mono (subset : entries ⊆ more) (admitted : Admitted admits entries resource) :
    Admitted admits more resource := by
  obtain ⟨entry, member, admitting⟩ := admitted
  exact ⟨entry, subset member, admitting⟩

variable {left right : Set α}

theorem admitted_union :
    Admitted admits (left ∪ right) resource ↔ Admitted admits left resource ∨ Admitted admits right resource := by
  constructor
  · rintro ⟨entry, member | member, admitting⟩
    · exact .inl ⟨entry, member, admitting⟩
    · exact .inr ⟨entry, member, admitting⟩
  · rintro (admitted | admitted)
    · exact admitted.mono Set.subset_union_left
    · exact admitted.mono Set.subset_union_right

def AddsNothing (admits : α → ρ → Prop) (extra entries : Set α) : Prop :=
  ∀ entry ∈ extra, ∀ resource, admits entry resource → Admitted admits entries resource

variable {extra : Set α}

theorem AddsNothing.mono (adds : AddsNothing admits extra entries) (subset : entries ⊆ more) :
    AddsNothing admits extra more :=
  fun entry member resource admitting => (adds entry member resource admitting).mono subset

theorem AddsNothing.admitted {whole : Set α} (adds : AddsNothing admits extra entries)
    (within : whole ⊆ entries ∪ extra) (admitted : Admitted admits whole resource) :
    Admitted admits entries resource := by
  obtain ⟨entry, member, admitting⟩ := admitted
  rcases within member with kept | added
  · exact ⟨entry, kept, admitting⟩
  · exact adds entry added resource admitting

/-- The sets agree but for some entries that only the left one may hold, and some that only
the right one may hold. -/
structure Differ (left right onlyLeft onlyRight : Set α) : Prop where
  left_subset : left ⊆ right ∪ onlyLeft
  right_subset : right ⊆ left ∪ onlyRight
  onlyLeft_subset : onlyLeft ⊆ left
  onlyRight_subset : onlyRight ⊆ right

variable {onlyLeft onlyRight : Set α}

theorem Differ.union {left' right' onlyLeft' onlyRight' : Set α}
    (first : Differ left right onlyLeft onlyRight)
    (second : Differ left' right' onlyLeft' onlyRight') :
    Differ (left ∪ left') (right ∪ right') (onlyLeft ∪ onlyLeft') (onlyRight ∪ onlyRight') where
  left_subset := by
    rw [Set.union_union_union_comm]
    exact Set.union_subset_union first.left_subset second.left_subset
  right_subset := by
    rw [Set.union_union_union_comm]
    exact Set.union_subset_union first.right_subset second.right_subset
  onlyLeft_subset := Set.union_subset_union first.onlyLeft_subset second.onlyLeft_subset
  onlyRight_subset := Set.union_subset_union first.onlyRight_subset second.onlyRight_subset

theorem Differ.image {β : Type} (differ : Differ left right onlyLeft onlyRight) (entry : α → β) :
    Differ (entry '' left) (entry '' right) (entry '' onlyLeft) (entry '' onlyRight) where
  left_subset := by
    rw [← Set.image_union]
    exact Set.image_mono differ.left_subset
  right_subset := by
    rw [← Set.image_union]
    exact Set.image_mono differ.right_subset
  onlyLeft_subset := Set.image_mono differ.onlyLeft_subset
  onlyRight_subset := Set.image_mono differ.onlyRight_subset

theorem Differ.same_iff (admits : α → ρ → Prop) (differ : Differ left right onlyLeft onlyRight) :
    (∀ resource, Admitted admits left resource ↔ Admitted admits right resource) ↔
      AddsNothing admits onlyLeft right ∧ AddsNothing admits onlyRight left := by
  constructor
  · intro same
    constructor
    · intro entry member resource admitting
      exact (same resource).mp ⟨entry, differ.onlyLeft_subset member, admitting⟩
    · intro entry member resource admitting
      exact (same resource).mpr ⟨entry, differ.onlyRight_subset member, admitting⟩
  · rintro ⟨leftAdds, rightAdds⟩ resource
    constructor
    · exact leftAdds.admitted differ.left_subset
    · exact rightAdds.admitted differ.right_subset

theorem addsNothing_union {extra' : Set α} : AddsNothing admits (extra ∪ extra') entries ↔
      AddsNothing admits extra entries ∧ AddsNothing admits extra' entries := by
  constructor
  · intro adds
    exact ⟨fun entry member => adds entry (.inl member), fun entry member => adds entry (.inr member)⟩
  · rintro ⟨first, second⟩ entry (member | member)
    · exact first entry member
    · exact second entry member

end EveHorizon.Coverage
