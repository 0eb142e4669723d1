import Mathlib.Data.List.Basic

/-!
# Rows of a table

A table is the list of its rows.
-/

namespace EveHorizon.Table

open List

variable {ρ κ : Type}

def updateWhere (selected : ρ → Bool) (change : ρ → ρ) (rows : List ρ) : List ρ :=
  rows.map fun row => if selected row then change row else row

def returning (selected : ρ → Bool) (change : ρ → ρ) (rows : List ρ) : Option ρ :=
  (rows.find? selected).map change

/-- `ORDER BY number DESC LIMIT 1`. -/
def latest (number : ρ → Nat) : List ρ → Option ρ
  | [] => none
  | row :: rest =>
    match latest number rest with
    | none => some row
    | some best => if number best ≤ number row then some row else some best

variable {rows : List ρ} (number : ρ → Nat)

theorem latest_mem {best : ρ} (isLatest : latest number rows = some best) : best ∈ rows := by
  induction rows generalizing best with
  | nil => cases isLatest
  | cons row rest ih =>
    rw [latest] at isLatest
    cases later : latest number rest with
    | none =>
      rw [later] at isLatest
      cases isLatest
      exact mem_cons_self
    | some other =>
      rw [later] at isLatest
      simp only at isLatest
      split at isLatest
      · cases isLatest
        exact mem_cons_self
      · cases isLatest
        exact mem_cons_of_mem row (ih later)

variable {row : ρ}

theorem latest_isSome (member : row ∈ rows) : (latest number rows).isSome = true := by
  cases rows with
  | nil => cases member
  | cons first rest =>
    simp only [latest]
    split
    · rfl
    · split <;> rfl

theorem latest_concat {last : ρ} (greatest : ∀ row ∈ rows, number row < number last) :
    latest number (rows ++ [last]) = some last := by
  induction rows with
  | nil => rfl
  | cons row rest ih =>
    have later := ih fun other member => greatest other (mem_cons_of_mem row member)
    have below := greatest row mem_cons_self
    rw [cons_append, latest, later]
    exact if_neg (Nat.not_le.mpr below)

theorem keyed_comp [DecidableEq κ] (key : ρ → κ) {selected : ρ → Bool} {change : ρ → ρ}
    (keeps : ∀ row, selected row = true → key (change row) = key row) {wanted : κ} :
    ((fun row => key row == wanted) ∘ fun row => if selected row then change row else row) =
      fun row => key row == wanted := by
  funext row
  cases chosen : selected row with
  | true => simp [chosen, keeps row chosen]
  | false => simp [chosen]

theorem find?_updateWhere [DecidableEq κ] (key : ρ → κ) (selected : ρ → Bool) (change : ρ → ρ)
    (keeps : ∀ row, selected row = true → key (change row) = key row) (rows : List ρ) (wanted : κ) :
    (updateWhere selected change rows).find? (fun row => key row == wanted) =
      (rows.find? fun row => key row == wanted).map fun row => if selected row then change row else row := by
  rw [updateWhere, find?_map, keyed_comp key keeps]

variable {selected : ρ → Bool} {change : ρ → ρ}

theorem mem_updateWhere (member : row ∈ updateWhere selected change rows) :
    ∃ old ∈ rows, (selected old = true ∧ row = change old) ∨ (selected old = false ∧ row = old) := by
  obtain ⟨old, present, rfl⟩ := mem_map.mp member
  refine ⟨old, present, ?_⟩
  cases chosen : selected old with
  | true => exact .inl ⟨rfl, rfl⟩
  | false => exact .inr ⟨rfl, rfl⟩

theorem mem_updateWhere_of_mem (present : row ∈ rows) :
    (if selected row then change row else row) ∈ updateWhere selected change rows :=
  mem_map_of_mem present

theorem filter_updateWhere [DecidableEq κ] (key : ρ → κ) (selected : ρ → Bool) (change : ρ → ρ)
    (keeps : ∀ row, key (change row) = key row) (rows : List ρ) (wanted : κ) :
    (updateWhere selected change rows).filter (fun row => key row == wanted) =
      updateWhere selected change (rows.filter fun row => key row == wanted) := by
  rw [updateWhere, filter_map, keyed_comp key fun row _ => keeps row]
  rfl

variable {shown : ρ → Bool}

theorem filter_updateWhere_hidden (before : ∀ row ∈ rows, selected row = true → shown row = false)
    (after : ∀ row ∈ rows, selected row = true → shown (change row) = false) :
    (updateWhere selected change rows).filter shown = rows.filter shown := by
  induction rows with
  | nil => rfl
  | cons row rest ih =>
    have later := ih (fun other member => before other (mem_cons_of_mem _ member))
      (fun other member => after other (mem_cons_of_mem _ member))
    change ((if selected row then change row else row) :: updateWhere selected change rest).filter shown = _
    cases chosen : selected row with
    | true =>
      rw [if_pos rfl, filter_cons_of_neg (by simp [after row mem_cons_self chosen]),
        filter_cons_of_neg (by simp [before row mem_cons_self chosen]), later]
    | false =>
      rw [if_neg Bool.false_ne_true, filter_cons, filter_cons, later]

theorem take_filter_updateWhere (good : ρ → Bool) {count : Nat}
    (before : ∀ row ∈ rows, selected row = true → shown row = false)
    (after : ∀ row ∈ rows, selected row = true → shown (change row) = true ∧ good (change row) = false)
    (first : ∀ row ∈ ((updateWhere selected change rows).filter shown).take count, good row = true) :
    ((updateWhere selected change rows).filter shown).take count = (rows.filter shown).take count := by
  induction rows generalizing count with
  | nil => rfl
  | cons row rest ih =>
    have earlier : ∀ other ∈ rest, selected other = true → shown other = false :=
      fun other member => before other (mem_cons_of_mem _ member)
    have later : ∀ other ∈ rest, selected other = true → shown (change other) = true ∧ good (change other) = false :=
      fun other member => after other (mem_cons_of_mem _ member)
    change ∀ other ∈ (((if selected row then change row else row) ::
      updateWhere selected change rest).filter shown).take count, good other = true at first
    change (((if selected row then change row else row) ::
      updateWhere selected change rest).filter shown).take count = _
    cases count with
    | zero => rfl
    | succ count =>
      cases chosen : selected row with
      | true =>
        obtain ⟨isShown, bad⟩ := after row mem_cons_self chosen
        rw [chosen, if_pos rfl, filter_cons_of_pos isShown] at first
        rw [first (change row) mem_cons_self] at bad
        cases bad
      | false =>
        rw [chosen, if_neg Bool.false_ne_true] at first
        rw [if_neg Bool.false_ne_true]
        cases isShown : shown row with
        | true =>
          rw [filter_cons_of_pos isShown, take_succ_cons] at first
          rw [filter_cons_of_pos isShown, filter_cons_of_pos isShown,
            take_succ_cons, take_succ_cons, ih earlier later fun other member =>
              first other (mem_cons_of_mem _ member)]
        | false =>
          rw [filter_cons_of_neg (by simp [isShown])] at first
          rw [filter_cons_of_neg (by simp [isShown]), filter_cons_of_neg (by simp [isShown]), ih earlier later first]

variable {counted : ρ → Bool}

theorem countP_updateWhere_le
    (fewer : ∀ row ∈ rows, selected row = true → counted (change row) = true → counted row = true) :
    (updateWhere selected change rows).countP counted ≤ rows.countP counted := by
  rw [updateWhere, countP_map]
  refine countP_mono_left fun row present isCounted => ?_
  simp only [Function.comp_apply] at isCounted
  split at isCounted
  · next chosen => exact fewer row present chosen isCounted
  · exact isCounted

theorem countP_lt_updateWhere (stays : ∀ old, counted old = true → selected old = false) (member : row ∈ rows)
    (chosen : selected row = true) (gained : counted (change row) = true) :
    rows.countP counted < (updateWhere selected change rows).countP counted := by
  have kept : ∀ old, counted old = true → counted (if selected old then change old else old) = true := by
    intro old isCounted
    rw [stays old isCounted]
    exact isCounted
  have fresh : counted row = false := by
    cases isCounted : counted row with
    | false => rfl
    | true => rw [stays row isCounted] at chosen; cases chosen
  obtain ⟨earlier, later, rfl⟩ := append_of_mem member
  have before := countP_mono_left fun old (_ : old ∈ earlier) => kept old
  have after := countP_mono_left fun old (_ : old ∈ later) => kept old
  simp only [updateWhere, map_append, map_cons, countP_append, countP_cons,
    countP_map, Function.comp_def, fresh, chosen, gained, ↓reduceIte, Bool.false_eq_true]
  omega

section

variable {κ β : Type} [BEq κ] [LawfulBEq κ] {entries : List (κ × β)} {key : κ} {value : β}

theorem mem_of_lookup (found : entries.lookup key = some value) : (key, value) ∈ entries := by
  obtain ⟨earlier, later, rfl, _⟩ := lookup_eq_some_iff.mp found
  exact mem_append_right _ mem_cons_self

theorem lookup_of_mem (distinct : (entries.map Prod.fst).Nodup) (member : (key, value) ∈ entries) :
    entries.lookup key = some value := by
  obtain ⟨earlier, later, rfl⟩ := append_of_mem member
  rw [map_append, map_cons, nodup_append] at distinct
  refine lookup_eq_some_iff.mpr ⟨earlier, later, rfl, fun other isEarlier => ?_⟩
  have apart := distinct.2.2 other.1 (mem_map_of_mem isEarlier) key mem_cons_self
  exact bne_iff_ne.mpr apart.symm

end

end EveHorizon.Table
