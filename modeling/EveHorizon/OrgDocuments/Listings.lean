import EveHorizon.OrgFs.Reads

/-!
# Listings by prefix

The queries on documents and files that splice a prefix into a pattern of `LIKE`.
-/

namespace EveHorizon.OrgDocuments

open List
open Like (like)
open OrgFs (OrgFsObject)
open OrgFs.Content (ListObjects)

/-- A row of `org_documents`; the timestamp counts microseconds. -/
structure StoredDocument where
  id : Nat
  orgId : Text
  path : Text
  content : Option Text
  metadata : Json
  updatedAt : Int

structure OrgDocumentQueryFilter where
  /-- What `exists`, `eq`, `in`, `gte` and `lte` ask of the metadata. -/
  others : Json → Bool
  leading : Option Text := none

structure DocumentCursor where
  updatedAt : Int
  id : Nat
  deriving DecidableEq

structure OrgDocumentQueryOptions where
  pathPrefix : Text
  conditions : List (Text × OrgDocumentQueryFilter)
  cursor : Option DocumentCursor := none

def hasPrefix (pathPrefix text : Text) : Bool := like (pathPrefix ++ ['%']) text

def selectRows {ρ : Type} (keep : ρ → Bool) (precedes : ρ → ρ → Bool) (limit : Nat) (rows : List ρ) : List ρ :=
  ((rows.filter keep).insertionSort fun left right => precedes left right = true).take limit

section

variable (precedes : Text → Text → Bool) (render : Json → Text) (rows : List StoredDocument) (orgId : Text)

def listByOrgAndPrefixWithContent (pathPrefix : Text) (limit : Nat) : List StoredDocument :=
  selectRows (fun row => row.orgId == orgId && hasPrefix pathPrefix row.path)
    (fun left right => precedes left.path right.path) limit rows

def listByOrgAndPrefix (pathPrefix : Text) (limit : Nat) : List StoredDocument :=
  (listByOrgAndPrefixWithContent precedes rows orgId pathPrefix limit).map fun row => { row with content := none }

/-- `matched` and `ranks` are what the full text search finds and in which order. -/
def searchWithFilters (matched : StoredDocument → Bool) (ranks : StoredDocument → StoredDocument → Bool)
    (pathPrefix : Option Text) (limit : Nat) : List StoredDocument :=
  match pathPrefix.filter (!·.isEmpty) with
  | some pathPrefix =>
    selectRows (fun row => row.orgId == orgId && hasPrefix pathPrefix row.path && matched row) ranks limit rows
  | none => selectRows (fun row => row.orgId == orgId && matched row) ranks limit rows

/-- `metadata ->> key` -/
def metadataText (metadata : Json) (key : Text) : Option Text :=
  match metadata with
  | .object members =>
    match members.lookup key with
    | none | some .null => none
    | some (.string text) => some text
    | some value => some (render value)
  | _ => none

def metadataField : Text := "metadata.".toList

def DocumentCursor.follows (cursor : DocumentCursor) (row : StoredDocument) : Bool :=
  row.updatedAt < cursor.updatedAt || row.updatedAt == cursor.updatedAt && row.id < cursor.id

/-- What the conditions of the query ask of a row, by a comparison of texts with prefixes. -/
def OrgDocumentQueryOptions.selects (options : OrgDocumentQueryOptions) (begins : Text → Text → Bool)
    (row : StoredDocument) : Bool :=
  row.orgId == orgId && (options.pathPrefix.isEmpty || begins options.pathPrefix row.path) &&
    (options.conditions.all fun (rawField, filter) => filter.others row.metadata && filter.leading.all fun leading =>
      (metadataText render row.metadata (rawField.drop metadataField.length)).any (begins leading)) &&
    options.cursor.all (·.follows row)

def newer (left right : StoredDocument) : Bool :=
  right.updatedAt < left.updatedAt || right.updatedAt == left.updatedAt && right.id ≤ left.id

def invalidField (rawField : Text) : Text := "Invalid filter field: ".toList ++ rawField

def query (options : OrgDocumentQueryOptions) (limit : Nat) : Except Text (List StoredDocument) :=
  match options.conditions.find? fun entry => !Text.startsWith metadataField entry.1 with
  | some entry => .error (invalidField entry.1)
  | none => .ok (selectRows (options.selects render orgId hasPrefix) newer limit rows)

def list (objects : List OrgFsObject) (opts : ListObjects) (limit : Nat) : List OrgFsObject :=
  selectRows (fun object => object.orgId == orgId && object.deletedAt.isNone && opts.selects precedes object.path)
    (fun left right => precedes left.path right.path) limit objects

end

theorem mem_selectRows {ρ : Type} {keep : ρ → Bool} {precedes : ρ → ρ → Bool} {limit : Nat} {rows : List ρ}
    (large : rows.length ≤ limit) {row : ρ} :
    row ∈ selectRows keep precedes limit rows ↔ row ∈ rows ∧ keep row = true := by
  have short := length_filter_le keep rows
  rw [selectRows, take_of_length_le (by rw [length_insertionSort]; omega), mem_insertionSort, mem_filter]

/-- The listings return what literally begins with the prefix and meets their other conditions. -/
structure ListsLiterally (pathPrefix : Text) : Prop where
  withContent : ∀ precedes rows orgId limit, rows.length ≤ limit → ∀ row,
    row ∈ listByOrgAndPrefixWithContent precedes rows orgId pathPrefix limit ↔
      row ∈ rows ∧ row.orgId = orgId ∧ pathPrefix <+: row.path
  withoutContent : ∀ precedes rows orgId limit, rows.length ≤ limit → ∀ found,
    found ∈ listByOrgAndPrefix precedes rows orgId pathPrefix limit ↔
      ∃ row ∈ rows, (row.orgId = orgId ∧ pathPrefix <+: row.path) ∧ { row with content := none } = found
  search : ∀ rows orgId matched ranks limit, rows.length ≤ limit → ∀ row,
    row ∈ searchWithFilters rows orgId matched ranks (some pathPrefix) limit ↔
      row ∈ rows ∧ row.orgId = orgId ∧ pathPrefix <+: row.path ∧ matched row = true
  query : ∀ render rows orgId (options : OrgDocumentQueryOptions) limit found, rows.length ≤ limit →
    (options.pathPrefix = [] ∨ options.pathPrefix = pathPrefix) →
    (∀ entry ∈ options.conditions, ∀ leading ∈ entry.2.leading, leading = pathPrefix) →
    query render rows orgId options limit = .ok found → ∀ row,
      row ∈ found ↔ row ∈ rows ∧ options.selects render orgId Text.startsWith row = true
  objects : ∀ precedes objects orgId (opts : ListObjects) limit, objects.length ≤ limit →
    opts.pathPrefix = some pathPrefix → ∀ object, object ∈ list precedes orgId objects opts limit ↔
      object ∈ objects ∧ object.orgId = orgId ∧ object.deletedAt = none ∧ pathPrefix <+: object.path ∧
        ∀ after ∈ opts.after, precedes object.path after = false

theorem startsWith_iff {leading text : Text} : Text.startsWith leading text = true ↔ leading <+: text :=
  isPrefixOf_iff_prefix

/-- Every listing is literal exactly when the prefix has no percent sign, underscore or backslash. -/
theorem lists_literally_iff (pathPrefix : Text) :
    ListsLiterally pathPrefix ↔ ∀ char ∈ pathPrefix, char ∉ ['%', '_', '\\'] := by
  rw [← Like.like_begins_iff]
  constructor
  · intro literal path
    let row : StoredDocument := ⟨0, [], path, none, .null, 0⟩
    have listed := literal.withContent (fun _ _ => true) [row] [] 1 (Nat.le_refl 1) row
    rw [listByOrgAndPrefixWithContent, mem_selectRows (Nat.le_refl 1)] at listed
    rw [Bool.eq_iff_iff, startsWith_iff]
    simpa [row, hasPrefix] using listed
  · intro literal
    have same : hasPrefix pathPrefix = Text.startsWith pathPrefix := funext literal
    have withContent : ∀ precedes rows orgId limit, rows.length ≤ limit → ∀ row,
        row ∈ listByOrgAndPrefixWithContent precedes rows orgId pathPrefix limit ↔
          row ∈ rows ∧ row.orgId = orgId ∧ pathPrefix <+: row.path := by
      intro precedes rows orgId limit large row
      rw [listByOrgAndPrefixWithContent, mem_selectRows large, same]
      simp [startsWith_iff]
    refine ⟨withContent, ?_, ?_, ?_, ?_⟩
    · intro precedes rows orgId limit large found
      simp only [listByOrgAndPrefix, mem_map, withContent precedes rows orgId limit large, and_assoc]
    · intro rows orgId matched ranks limit large row
      cases pathPrefix with
      | nil =>
        rw [searchWithFilters, Option.filter_some_neg (by simp)]
        dsimp only
        rw [mem_selectRows large]
        simp
      | cons first rest =>
        rw [searchWithFilters, Option.filter_some_pos (by simp)]
        dsimp only
        rw [mem_selectRows large, same]
        simp [startsWith_iff, and_assoc]
    · intro render rows orgId options limit found large path fields ran row
      have selects : options.selects render orgId hasPrefix row = options.selects render orgId Text.startsWith row := by
        unfold OrgDocumentQueryOptions.selects
        congr 2
        · rcases path with empty | named
          · simp [empty]
          · rw [named, same]
        · rw [Bool.eq_iff_iff, all_eq_true, all_eq_true]
          refine forall₂_congr fun entry member => ?_
          have given := fields entry member
          cases found : entry.2.leading with
          | none => simp [found]
          | some leading =>
            obtain rfl := given leading found
            simp only [found, Option.all_some, same]
      unfold query at ran
      split at ran
      · cases ran
      · cases ran
        rw [mem_selectRows large, selects]
    · intro precedes objects orgId opts limit large given object
      rw [list, mem_selectRows large]
      have begins : like (pathPrefix ++ ['%']) object.path = true ↔ pathPrefix <+: object.path := by
        rw [literal, startsWith_iff]
      simp [ListObjects.selects, given, begins, and_assoc, Option.all_eq_true]

/-- A listing of the prefix "a_" returns the document at "ab". -/
theorem underscore_lists_more :
    listByOrgAndPrefixWithContent (fun _ _ => true) [⟨0, [], "ab".toList, none, .null, 0⟩] [] "a_".toList 1 =
      [⟨0, [], "ab".toList, none, .null, 0⟩] ∧ ¬ ∀ pathPrefix, ListsLiterally pathPrefix := by
  refine ⟨by rfl, fun all => ?_⟩
  have plain := (lists_literally_iff _).mp (all "a_".toList)
  exact plain '_' (by decide) (by decide)

end EveHorizon.OrgDocuments
