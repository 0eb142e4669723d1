import Mathlib.Data.List.Forall2

/-!
# Chains of checks

When a chain of checks that may fail passes, and which of them it fails with.
-/

namespace EveHorizon.Checks

open List

variable {ε δ α β : Type} {check : Except ε α} {next : α → Except ε β}

theorem bind_eq_ok {result : β} :
    (check >>= next) = .ok result ↔ ∃ value, check = .ok value ∧ next value = .ok result := by
  cases check with
  | error error | ok value => simp [bind, Except.bind]

theorem bind_eq_error {error : ε} : (check >>= next) = .error error ↔
      check = .error error ∨ ∃ value, check = .ok value ∧ next value = .error error := by
  cases check with
  | error error | ok value => simp [bind, Except.bind]

variable {report : ε → δ}

@[simp] theorem mapError_eq_ok {value : α} : check.mapError report = .ok value ↔ check = .ok value := by
  cases check <;> simp [Except.mapError]

@[simp] theorem mapError_eq_error {error : δ} :
    check.mapError report = .error error ↔ ∃ cause, check = .error cause ∧ report cause = error := by
  cases check <;> simp [Except.mapError]

theorem not_ok_iff : (¬ ∃ value, check = .ok value) ↔ ∃ error, check = .error error := by
  cases check <;> simp

section

variable {γ : Type} {related : α → β → Prop} {items : List α} {results : List β}

theorem related_of_mem (all : List.Forall₂ related items results) {item : α} (member : item ∈ items) :
    ∃ result ∈ results, related item result := by
  induction all with
  | nil => cases member
  | cons isRelated _ ih =>
    rcases mem_cons.mp member with rfl | later
    · exact ⟨_, mem_cons_self, isRelated⟩
    · obtain ⟨result, present, others⟩ := ih later
      exact ⟨result, mem_cons_of_mem _ present, others⟩

theorem related_both {other : α → γ → Prop} {others : List γ} (first : List.Forall₂ related items results)
    (second : List.Forall₂ other items others) :
    List.Forall₂ (fun result outcome => ∃ item ∈ items, related item result ∧ other item outcome) results others := by
  induction first generalizing others with
  | nil =>
    cases second
    exact .nil
  | cons isRelated _ ih =>
    cases second with
    | cons isOther rest =>
      refine .cons ⟨_, mem_cons_self, isRelated, isOther⟩ ((ih rest).imp ?_)
      intro result outcome ⟨item, member, both⟩
      exact ⟨item, mem_cons_of_mem _ member, both⟩

end

variable {items : List α} {check : α → Except ε β}

theorem mapM_eq_ok {results : List β} :
    items.mapM check = .ok results ↔ List.Forall₂ (fun item result => check item = .ok result) items results := by
  induction items generalizing results with
  | nil => cases results <;> simp [pure, Except.pure]
  | cons item rest ih =>
    rw [mapM_cons, bind_eq_ok, forall₂_cons_left_iff]
    constructor
    · rintro ⟨result, passed, onward⟩
      obtain ⟨later, others, same⟩ := bind_eq_ok.mp onward
      cases same
      exact ⟨result, later, passed, ih.mp others, rfl⟩
    · rintro ⟨result, later, passed, others, rfl⟩
      exact ⟨result, passed, bind_eq_ok.mpr ⟨later, ih.mpr others, rfl⟩⟩

theorem exists_mapM_eq_ok :
    (∃ results, items.mapM check = .ok results) ↔ ∀ item ∈ items, ∃ result, check item = .ok result := by
  simp only [mapM_eq_ok]
  constructor
  · intro ⟨results, passed⟩ item member
    obtain ⟨result, _, isResult⟩ := related_of_mem passed member
    exact ⟨result, isResult⟩
  · intro each
    induction items with
    | nil => exact ⟨[], .nil⟩
    | cons item rest ih =>
      obtain ⟨result, isResult⟩ := each item mem_cons_self
      obtain ⟨results, others⟩ := ih fun other member => each other (mem_cons_of_mem item member)
      exact ⟨result :: results, .cons isResult others⟩

theorem mapM_eq_error {error : ε} :
    items.mapM check = .error error ↔ ∃ earlier item later, items = earlier ++ item :: later ∧
        (∀ other ∈ earlier, ∃ result, check other = .ok result) ∧ check item = .error error := by
  induction items with
  | nil => simp [pure, Except.pure]
  | cons item rest ih =>
    rw [mapM_cons, bind_eq_error]
    constructor
    · rintro (failed | ⟨result, passed, onward⟩)
      · exact ⟨[], item, rest, rfl, by simp, failed⟩
      · rcases bind_eq_error.mp onward with failed | ⟨_, _, same⟩
        · obtain ⟨earlier, first, later, rfl, passing, failed⟩ := ih.mp failed
          exact ⟨item :: earlier, first, later, rfl, forall_mem_cons.mpr ⟨⟨result, passed⟩, passing⟩, failed⟩
        · cases same
    · rintro ⟨earlier, first, later, split, passing, failed⟩
      cases earlier with
      | nil =>
        cases split
        exact .inl failed
      | cons other earlier =>
        cases split
        obtain ⟨⟨result, passed⟩, others⟩ := forall_mem_cons.mp passing
        exact .inr ⟨result, passed, bind_eq_error.mpr (.inl (ih.mpr ⟨earlier, first, later, rfl, others, failed⟩))⟩

theorem forM_eq_ok {check : α → Except ε Unit} : items.forM check = .ok () ↔ ∀ item ∈ items, check item = .ok () := by
  induction items with
  | nil => simp [pure, Except.pure]
  | cons item rest ih =>
    change (check item >>= fun _ => rest.forM check) = _ ↔ _
    rw [bind_eq_ok, forall_mem_cons]
    constructor
    · rintro ⟨_, passed, others⟩
      exact ⟨passed, ih.mp others⟩
    · rintro ⟨passed, others⟩
      exact ⟨(), passed, ih.mpr others⟩

end EveHorizon.Checks
