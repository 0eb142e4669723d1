import EveHorizon.Library.Keyed
import Mathlib.Algebra.Order.BigOperators.Group.List

/-!
# Upserts

Rows that replace the row with their key, or are added.
-/

namespace EveHorizon.Table.Keyed

open List

variable {ρ κ : Type} [DecidableEq κ] {key : ρ → κ}

def upsert (table : Keyed key) (row : ρ) : Keyed key :=
  if table.free (key row) then table.insert row
  else
    { rows := table.rows.map fun old => if key old = key row then row else old
      distinct := by
        have same : (key ∘ fun old => if key old = key row then row else old) = key := by
          funext old
          by_cases replaced : key old = key row
          · simp [replaced]
          · simp [replaced]
        rw [map_map, same]
        exact table.distinct }

variable {table : Keyed key} {new row : ρ}

theorem mem_upsert (member : row ∈ (table.upsert new).rows) : row = new ∨ row ∈ table.rows := by
  unfold upsert at member
  split at member
  · exact (mem_insert member).symm.imp_left And.right
  · obtain ⟨old, present, rfl⟩ := mem_map.mp member
    split
    · exact .inl rfl
    · exact .inr present

theorem mem_keys_upsert {wanted : κ} :
    wanted ∈ (table.upsert new).rows.map key ↔ wanted = key new ∨ wanted ∈ table.rows.map key := by
  unfold upsert
  by_cases isFree : table.free (key new) = true
  · rw [if_pos isFree, rows_insert, if_pos isFree, map_append, mem_append, or_comm]
    simp
  · have taken : key new ∈ table.rows.map key := by
      by_contra absent
      exact isFree (free_iff.mpr fun old member same => absent (same ▸ mem_map_of_mem member))
    have same : (key ∘ fun old => if key old = key new then new else old) = key := by
      funext old
      by_cases replaced : key old = key new
      · simp [replaced]
      · simp [replaced]
    rw [if_neg isFree, map_map, same]
    constructor
    · exact Or.inr
    · intro wantedKey
      cases wantedKey with
      | inl isNew => exact isNew ▸ taken
      | inr isOld => exact isOld

theorem upsert_mem (table : Keyed key) (new : ρ) : new ∈ (table.upsert new).rows := by
  unfold upsert
  split
  · next isFree =>
      rw [rows_insert, if_pos isFree]
      exact mem_append_right _ (mem_singleton_self new)
  · next taken =>
      rw [free_iff] at taken
      push Not at taken
      obtain ⟨old, member, same⟩ := taken
      exact mem_map.mpr ⟨old, member, if_pos same⟩

theorem mem_upsert_of_ne (different : key row ≠ key new) : row ∈ (table.upsert new).rows ↔ row ∈ table.rows := by
  constructor
  · intro member
    cases mem_upsert member with
    | inl same => exact absurd (congrArg key same) different
    | inr old => exact old
  · intro member
    unfold upsert
    split
    · exact mem_insert_of_mem member
    · exact mem_map.mpr ⟨row, member, if_neg different⟩

theorem find_upsert (table : Keyed key) (new : ρ) (wanted : κ) :
    (table.upsert new).find wanted = if key new = wanted then some new else table.find wanted := by
  split
  · next same =>
      rw [← same]
      exact find_of_mem (upsert_mem table new)
  · next different =>
      cases search : table.find wanted with
      | some row =>
        obtain ⟨member, isKey⟩ := find_eq_some search
        have apart : key row ≠ key new := fun same => different (same.symm.trans isKey)
        rw [← isKey]
        exact find_of_mem ((mem_upsert_of_ne apart).mpr member)
      | none =>
        cases later : (table.upsert new).find wanted with
        | none => rfl
        | some row =>
          obtain ⟨member, isKey⟩ := find_eq_some later
          have apart : key row ≠ key new := fun same => different (same.symm.trans isKey)
          have found := find_of_mem ((mem_upsert_of_ne apart).mp member)
          rw [isKey, search] at found
          cases found

section

variable {M : Type} [AddCommMonoid M] (weight : ρ → M) {rows : List ρ}

theorem sum_replaced (row : ρ) (distinct : (rows.map key).Nodup) (present : key row ∈ rows.map key) :
    ((rows.map fun old => if key old = key row then row else old).map weight).sum =
      (rows.map fun old => if key old = key row then 0 else weight old).sum + weight row := by
  induction rows with
  | nil => cases present
  | cons first rest ih =>
    obtain ⟨absent, others⟩ := nodup_cons.mp distinct
    rw [map_cons, map_cons, map_cons, sum_cons, sum_cons]
    by_cases replaced : key first = key row
    · have unchanged : ((rest.map fun old => if key old = key row then row else old).map weight) =
          rest.map fun old => if key old = key row then 0 else weight old := by
        rw [map_map]
        apply map_congr_left
        intro old member
        have differs : key old ≠ key row := fun same =>
          absent (replaced.trans same.symm ▸ mem_map_of_mem member)
        simp [differs]
      rw [unchanged, if_pos replaced, if_pos replaced, zero_add, add_comm]
    · have later : key row ∈ rest.map key := (mem_cons.mp present).resolve_left fun same => replaced same.symm
      rw [ih others later, if_neg replaced, if_neg replaced, add_assoc]

theorem sum_upsert (table : Keyed key) (row : ρ) : ((table.upsert row).rows.map weight).sum =
      (table.rows.map fun old => if key old = key row then 0 else weight old).sum + weight row := by
  unfold upsert
  by_cases isFree : table.free (key row) = true
  · have kept : (table.rows.map fun old => if key old = key row then 0 else weight old) = table.rows.map weight := by
      apply map_congr_left
      intro old member
      rw [if_neg (free_iff.mp isFree old member)]
    rw [if_pos isFree, rows_insert, if_pos isFree, kept, map_append, sum_append]
    simp
  · rw [if_neg isFree]
    apply sum_replaced weight row table.distinct
    by_contra absent
    exact isFree (free_iff.mpr fun old member same => absent (same ▸ mem_map_of_mem member))

theorem sum_find (table : Keyed key) (wanted : κ) :
    (table.rows.map weight).sum = (table.rows.map fun row => if key row = wanted then 0 else weight row).sum +
        ((table.find wanted).map weight).getD 0 := by
  have kept (absent : table.find wanted = none) (row : ρ) (member : row ∈ table.rows) : key row ≠ wanted := by
    intro same
    have found := find_of_mem member
    rw [same, absent] at found
    cases found
  cases search : table.find wanted with
  | none =>
    rw [Option.map_none, Option.getD_none, add_zero]
    apply congrArg List.sum
    apply map_congr_left
    intro row member
    rw [if_neg (kept search row member)]
  | some found =>
    obtain ⟨isFound, named⟩ := find_eq_some search
    have replaced := sum_replaced weight found table.distinct (mem_map_of_mem isFound)
    have itself : (table.rows.map fun old => if key old = key found then found else old) =
        table.rows := by
      conv => rhs; rw [← map_id table.rows]
      apply map_congr_left
      intro old member
      by_cases same : key old = key found
      · rw [if_pos same]
        exact (eq_of_key member isFound same).symm
      · rw [if_neg same]
        rfl
    rw [itself, named] at replaced
    exact replaced

def sumExcept (weight : ρ → M) (table : Keyed key) (keys : List κ) : M :=
  (table.rows.map fun old => if key old ∈ keys then 0 else weight old).sum

theorem sum_upserts (table : Keyed key) (distinct : (rows.map key).Nodup) :
    ((rows.foldl upsert table).rows.map weight).sum =
      sumExcept weight table (rows.map key) + (rows.map weight).sum := by
  unfold sumExcept
  induction rows generalizing table with
  | nil => simp
  | cons first rest ih =>
    obtain ⟨absent, others⟩ := nodup_cons.mp distinct
    rw [foldl_cons, ih (table.upsert first) others, sum_upsert, if_neg absent, map_cons,
      map_cons, sum_cons, ← add_assoc]
    congr 2
    apply congrArg List.sum
    apply map_congr_left
    intro old _
    by_cases isFirst : key old = key first
    · simp [isFirst]
    · simp [isFirst]

theorem sumExcept_eq_zero_iff [PartialOrder M] [IsOrderedAddMonoid M] {weight : ρ → M}
    (nonneg : ∀ row ∈ table.rows, 0 ≤ weight row) (keys : List κ) :
    sumExcept weight table keys = 0 ↔ ∀ row ∈ table.rows, key row ∉ keys → weight row = 0 := by
  unfold sumExcept
  generalize table.rows = rows at nonneg ⊢
  induction rows with
  | nil => simp
  | cons first rest ih =>
    have firstNonneg : 0 ≤ if key first ∈ keys then 0 else weight first := by
      split
      · exact le_rfl
      · exact nonneg first mem_cons_self
    have restNonneg : 0 ≤ (rest.map fun old => if key old ∈ keys then 0 else weight old).sum := by
      apply sum_nonneg
      intro value member
      obtain ⟨row, isRow, rfl⟩ := mem_map.mp member
      split
      · exact le_rfl
      · exact nonneg row (mem_cons_of_mem _ isRow)
    rw [map_cons, sum_cons, add_eq_zero_iff_of_nonneg firstNonneg restNonneg,
      ih fun row member => nonneg row (mem_cons_of_mem _ member), forall_mem_cons]
    simp

end

end EveHorizon.Table.Keyed
