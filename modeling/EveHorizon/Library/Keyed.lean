import EveHorizon.Library.Table
import Mathlib.Data.List.Nodup

/-!
# Tables with a primary key

The rows of a table whose keys are distinct.
-/

namespace EveHorizon.Table

open List

variable {ρ κ : Type}

structure Keyed (key : ρ → κ) where
  rows : List ρ
  distinct : (rows.map key).Nodup

namespace Keyed

variable {key : ρ → κ}

def empty : Keyed key := ⟨[], nodup_nil⟩

variable {table : Keyed key}

theorem eq_of_key {left right : ρ} (isLeft : left ∈ table.rows) (isRight : right ∈ table.rows)
    (same : key left = key right) : left = right :=
  inj_on_of_nodup_map table.distinct isLeft isRight same

def update (table : Keyed key) (selected : ρ → Bool) (change : ρ → ρ)
    (keeps : ∀ row, key (change row) = key row) : Keyed key where
  rows := updateWhere selected change table.rows
  distinct := by
    have same : (key ∘ fun row => if selected row then change row else row) = key := by
      funext row
      cases chosen : selected row with
      | true => simp [chosen, keeps row]
      | false => simp [chosen]
    rw [updateWhere, map_map, same]
    exact table.distinct

def delete (table : Keyed key) (selected : ρ → Bool) : Keyed key where
  rows := table.rows.filter fun row => !selected row
  distinct := table.distinct.sublist (filter_sublist.map _)

theorem filterMap_nodup {β : Type} (table : Keyed key) {yields : ρ → Option β} (source : β → Option κ)
    (named : ∀ row item, yields row = some item → source item = some (key row)) :
    (table.rows.filterMap yields).Nodup := by
  apply pairwise_filterMap.mpr
  have apart := pairwise_map.mp table.distinct
  refine apart.imp fun {left right} differ item yielded other yieldedToo same => differ ?_
  have left := named _ _ yielded
  rw [same, named _ _ yieldedToo] at left
  exact (Option.some.inj left).symm

variable {row : ρ}

theorem mem_delete {selected : ρ → Bool} :
    row ∈ (table.delete selected).rows ↔ row ∈ table.rows ∧ selected row = false := by
  simp [delete, mem_filter]

variable [DecidableEq κ]

def find (table : Keyed key) (wanted : κ) : Option ρ := table.rows.find? fun row => key row == wanted

theorem find_of_mem (member : row ∈ table.rows) : table.find (key row) = some row := by
  cases search : table.find (key row) with
  | none =>
    have unnamed := find?_eq_none.mp search row member
    exact absurd BEq.rfl unnamed
  | some found =>
    have holds := find?_some search
    have named : (key found == key row) = true := holds
    rw [eq_of_key (mem_of_find?_eq_some search) member (beq_iff_eq.mp named)]

variable {wanted : κ}

theorem find_eq_some (search : table.find wanted = some row) : row ∈ table.rows ∧ key row = wanted := by
  have holds := find?_some search
  exact ⟨mem_of_find?_eq_some search, beq_iff_eq.mp holds⟩

def free (table : Keyed key) (wanted : κ) : Bool := table.rows.all fun row => key row != wanted

theorem free_iff : table.free wanted = true ↔ ∀ row ∈ table.rows, key row ≠ wanted := by
  simp [free]

def insert (table : Keyed key) (row : ρ) : Keyed key :=
  if accepted : table.free (key row) = true then
    { rows := table.rows ++ [row]
      distinct := by
        have unused := free_iff.mp accepted
        rw [map_append, nodup_append]
        refine ⟨table.distinct, by simp, ?_⟩
        intro older member newer single
        obtain ⟨old, present, rfl⟩ := mem_map.mp member
        rw [mem_singleton.mp single]
        exact unused old present }
  else table

theorem rows_insert (table : Keyed key) (row : ρ) :
    (table.insert row).rows = if table.free (key row) then table.rows ++ [row] else table.rows := by
  rw [insert]
  split
  · rfl
  · rfl

variable {new : ρ}

theorem mem_insert (member : row ∈ (table.insert new).rows) :
    row ∈ table.rows ∨ (table.free (key new) = true ∧ row = new) := by
  rw [rows_insert] at member
  split at member
  · next accepted =>
      rcases mem_append.mp member with old | added
      · exact .inl old
      · exact .inr ⟨accepted, mem_singleton.mp added⟩
  · exact .inl member

theorem mem_insert_of_mem (present : row ∈ table.rows) : row ∈ (table.insert new).rows := by
  rw [rows_insert]
  split
  · exact mem_append_left _ present
  · exact present

end Keyed

end EveHorizon.Table
