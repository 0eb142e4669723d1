import EveHorizon.Access.ScopeAlgebra

/-!
# Surviving entries

What each of the lists of a merged scope holds, as a set of the entries of its layers.
-/

namespace EveHorizon.Access

open List

inductive Listing where
  | undeclared
  | omitted
  | entries (members : Set Text)

def Listing.members : Listing → Set Text
  | .undeclared => ∅
  | .omitted => ∅
  | .entries members => members

def listing {Facet : Type} (field : Facet → Option (List Text)) : Option Facet → Listing
  | none => .undeclared
  | some facet =>
    match field facet with
    | none => .omitted
    | some entries => .entries {entry | entry ∈ entries}

def Listing.meet (both : Set Text → Set Text → Set Text) : Listing → Listing → Listing
  | .undeclared, .undeclared => .undeclared
  | .entries left, .entries right => .entries (both left right)
  | .entries left, .omitted => .entries left
  | .entries left, .undeclared => .entries left
  | .omitted, .entries right => .entries right
  | .undeclared, .entries right => .entries right
  | _, _ => .entries ∅

open Listing (meet members)

def Below (deep base : Text) : Prop := Text.startsWith (base ++ ['/']) deep = true

def KeepsLeft (a b : Text) : Prop :=
  a ≠ ['*'] ∧ (b = ['*'] ∨ (pathPatternBase a = pathPatternBase b ∧ Text.unitLength b ≤ Text.unitLength a) ∨
      Below (pathPatternBase a) (pathPatternBase b))

def KeepsRight (a b : Text) : Prop :=
  a = ['*'] ∨ (b ≠ ['*'] ∧ ((pathPatternBase a = pathPatternBase b ∧ Text.unitLength a < Text.unitLength b) ∨
        Below (pathPatternBase b) (pathPatternBase a)))

def keptPatterns (left right : Set Text) : Set Text :=
  {pattern | pattern ≠ [] ∧
    ((pattern ∈ left ∧ ∃ b ∈ right, KeepsLeft pattern b) ∨
      (pattern ∈ right ∧ ∃ a ∈ left, KeepsRight a pattern))}

def keptNames (left right : Set Text) : Set Text :=
  {name | (name ∈ left ∧ name ∈ right) ∨ (['*'] ∈ left ∧ name ∈ right) ∨
    (['*'] ∉ left ∧ ['*'] ∈ right ∧ name ∈ left)}

/-- The entries of the layers' lists that survive the merge from left to right. -/
def surviving (both : Set Text → Set Text → Set Text) : List Listing → Set Text
  | [] => ∅
  | first :: rest => (rest.foldl (meet both) first).members

theorem Below.length_lt {deep base : Text} (below : Below deep base) : base.length < deep.length := by
  have leading : base ++ ['/'] <+: deep := isPrefixOf_iff_prefix.mp below
  have bound := leading.length_le
  rw [length_append, length_singleton] at bound
  exact bound

variable {pattern : Text}

theorem intersectPathPattern_eq_some {a b : Text} :
    intersectPathPattern a b = some pattern ↔ (KeepsLeft a b ∧ pattern = a) ∨ (KeepsRight a b ∧ pattern = b) := by
  unfold intersectPathPattern KeepsLeft KeepsRight
  by_cases anyLeft : a = ['*']
  · simp [anyLeft, eq_comm]
  · by_cases anyRight : b = ['*']
    · simp [anyLeft, anyRight, eq_comm]
    · simp only [anyLeft, anyRight, if_false]
      by_cases same : pathPatternBase a = pathPatternBase b
      · have level : ¬ Below (pathPatternBase b) (pathPatternBase b) := by
          intro below
          exact absurd below.length_lt (Nat.lt_irrefl _)
        by_cases longer : Text.unitLength b ≤ Text.unitLength a
        · simp [same, longer, level, Nat.not_lt.mpr longer, anyLeft, eq_comm]
        · simp [same, longer, level, Nat.not_le.mp longer, anyRight, eq_comm]
      · by_cases left : Below (pathPatternBase a) (pathPatternBase b)
        · have right : ¬ Below (pathPatternBase b) (pathPatternBase a) := by
            intro below
            exact absurd below.length_lt (Nat.lt_asymm left.length_lt)
          have kept : Text.startsWith (pathPatternBase b ++ ['/']) (pathPatternBase a) = true := left
          simp [same, left, right, kept, anyLeft, eq_comm]
        · have dropped : ¬ Text.startsWith (pathPatternBase b ++ ['/']) (pathPatternBase a) = true := left
          by_cases right : Below (pathPatternBase b) (pathPatternBase a)
          · have kept : Text.startsWith (pathPatternBase a ++ ['/']) (pathPatternBase b) = true := right
            simp [same, left, right, kept, dropped, anyRight, eq_comm]
          · have apart : ¬ Text.startsWith (pathPatternBase a ++ ['/']) (pathPatternBase b) = true := right
            simp [same, left, right, dropped, apart]

variable {right left : List Text}

theorem mem_intersectPathPatterns :
    pattern ∈ intersectPathPatterns (some left) (some right) ↔
      pattern ∈ keptPatterns {entry | entry ∈ left} {entry | entry ∈ right} := by
  simp only [intersectPathPatterns, Text.mem_sortedSet, mem_flatMap, mem_filterMap,
    Option.filter_eq_some_iff, intersectPathPattern_eq_some, keptPatterns, Set.mem_ofPred_eq]
  constructor
  · rintro ⟨a, inLeft, b, inRight, ⟨kept, rfl⟩ | ⟨kept, rfl⟩, nonempty⟩
    · exact ⟨by simpa using nonempty, .inl ⟨inLeft, b, inRight, kept⟩⟩
    · exact ⟨by simpa using nonempty, .inr ⟨inRight, a, inLeft, kept⟩⟩
  · rintro ⟨nonempty, ⟨inLeft, b, inRight, kept⟩ | ⟨inRight, a, inLeft, kept⟩⟩
    · exact ⟨pattern, inLeft, b, inRight, .inl ⟨kept, rfl⟩, by simpa using nonempty⟩
    · exact ⟨a, inLeft, pattern, inRight, .inr ⟨kept, rfl⟩, by simpa using nonempty⟩

theorem mem_intersectStringSets {name : Text} :
    name ∈ intersectStringSets (some left) (some right) ↔
      name ∈ keptNames {entry | entry ∈ left} {entry | entry ∈ right} := by
  simp only [intersectStringSets, keptNames, Set.mem_ofPred_eq]
  by_cases anyLeft : ['*'] ∈ left
  · simp [anyLeft]
  · by_cases anyRight : ['*'] ∈ right
    · simp only [anyLeft, anyRight, contains_iff_mem, if_true, if_false, Text.mem_sortedSet]
      tauto
    · simp [anyLeft, anyRight]

structure Merges (merge : Option (List Text) → Option (List Text) → List Text)
    (both : Set Text → Set Text → Set Text) : Prop where
  left_omitted : ∀ right entry, entry ∈ merge none right ↔ entry ∈ right.getD []
  right_omitted : ∀ left entry, entry ∈ merge (some left) none ↔ entry ∈ left
  spelled : ∀ left right entry, entry ∈ merge (some left) (some right) ↔
    entry ∈ both {entry | entry ∈ left} {entry | entry ∈ right}

theorem intersectPathPatterns_merges : Merges intersectPathPatterns keptPatterns where
  left_omitted := by simp [intersectPathPatterns]
  right_omitted := by simp [intersectPathPatterns]
  spelled _ _ _ := mem_intersectPathPatterns

theorem intersectStringSets_merges : Merges intersectStringSets keptNames where
  left_omitted := by simp [intersectStringSets]
  right_omitted := by simp [intersectStringSets]
  spelled _ _ _ := mem_intersectStringSets

section

variable {Facet : Type} {field : Facet → Option (List Text)}
variable {merge : Option (List Text) → Option (List Text) → List Text}
variable {both : Set Text → Set Text → Set Text}
variable {intersect : Option Facet → Option Facet → Facet}

theorem listing_intersectFacet (merges : Merges merge both) (fields : ∀ left right, field (intersect left right) =
      some (merge (left.bind field) (right.bind field))) (left right : Option Facet) :
    listing field (intersectFacet intersect left right) = (listing field left).meet both (listing field right) := by
  have entries : listing field (some (intersect left right)) =
      .entries {entry | entry ∈ merge (left.bind field) (right.bind field)} := by
    simp [listing, fields]
  cases left with
  | none =>
    cases right with
    | none => rfl
    | some right =>
      rw [intersectFacet, if_pos (by simp), entries]
      cases found : field right with
      | none | some _ => simp [listing, found, meet, merges.left_omitted]
  | some left =>
    rw [intersectFacet, if_pos (by simp), entries]
    cases spelled : field left with
    | none =>
      cases right with
      | none => simp [listing, spelled, meet, merges.left_omitted]
      | some right =>
        cases found : field right with
        | none | some _ => simp [listing, spelled, found, meet, merges.left_omitted]
    | some _ =>
      cases right with
      | none => simp [listing, spelled, meet, merges.right_omitted]
      | some right =>
        cases found : field right with
        | none => simp [listing, spelled, found, meet, merges.right_omitted]
        | some _ => simp [listing, spelled, found, meet, merges.spelled]

theorem mem_listing {facet : Option Facet} {entry : Text} :
    entry ∈ (facet.bind field).getD [] ↔ entry ∈ (listing field facet).members := by
  cases facet with
  | none => simp [listing, members]
  | some facet =>
    cases found : field facet with
    | none | some _ => simp [listing, found, members]

theorem mem_fold_iff (facet : AccessBindingScope → Option Facet) (merges : Merges merge both)
    (facets : ∀ left right, facet (intersectScopes left right) = intersectFacet intersect (facet left) (facet right))
    (fields : ∀ left right, field (intersect left right) = some (merge (left.bind field) (right.bind field)))
    (layer : AccessBindingScope) (layers : List AccessBindingScope) (entry : Text) :
    entry ∈ ((facet (layers.foldl intersectScopes layer)).bind field).getD [] ↔
      entry ∈ surviving both ((layer :: layers).map fun layer => listing field (facet layer)) := by
  have fold : listing field (facet (layers.foldl intersectScopes layer)) =
      (layers.map fun layer => listing field (facet layer)).foldl (meet both)
        (listing field (facet layer)) := by
    induction layers generalizing layer with
    | nil => rfl
    | cons next layers ih =>
      rw [foldl_cons, ih, map_cons, foldl_cons, facets, listing_intersectFacet merges fields]
  rw [mem_listing, fold]
  rfl

end

/-- A spelled list of names bounds what is kept: its own names, or all when it has a star. -/
def Bounded (listing : Listing) (members : Set Text) : Prop :=
  ∃ kept, listing = .entries kept ∧ ∀ name ∈ kept, name ∈ members ∨ ['*'] ∈ members

variable {members : Set Text}

theorem Bounded.meet {listing : Listing} (bounded : Bounded listing members) (next : Listing) :
    Bounded (listing.meet keptNames next) members := by
  obtain ⟨kept, rfl, bound⟩ := bounded
  cases next with
  | undeclared | omitted => exact ⟨kept, rfl, bound⟩
  | entries added =>
    refine ⟨keptNames kept added, rfl, ?_⟩
    rintro name (⟨inKept, -⟩ | ⟨anyKept, -⟩ | ⟨-, -, inKept⟩)
    · exact bound name inKept
    · exact .inr ((bound ['*'] anyKept).elim id id)
    · exact bound name inKept

theorem bounded_meet_entries (listing : Listing) (members : Set Text) :
    Bounded (listing.meet keptNames (.entries members)) members := by
  cases listing with
  | undeclared | omitted => exact ⟨members, rfl, fun _ member => .inl member⟩
  | entries kept =>
    refine ⟨keptNames kept members, rfl, ?_⟩
    rintro name (⟨-, member⟩ | ⟨-, member⟩ | ⟨-, any, -⟩)
    · exact .inl member
    · exact .inl member
    · exact .inr any

theorem bounded_fold {first : Listing} {rest : List Listing} (spelled : Bounded first members ∨
    .entries members ∈ rest) :
    Bounded (rest.foldl (meet keptNames) first) members := by
  induction rest generalizing first with
  | nil =>
    rcases spelled with bounded | missing
    · exact bounded
    · cases missing
  | cons next rest ih =>
    rw [foldl_cons]
    apply ih
    rcases spelled with bounded | member
    · exact .inl (bounded.meet next)
    · rcases mem_cons.mp member with rfl | later
      · exact .inl (bounded_meet_entries first members)
      · exact .inr later

variable {name : Text}

theorem surviving_names {listings : List Listing} (spelled : .entries members ∈ listings)
    (survives : name ∈ surviving keptNames listings) : name ∈ members ∨ ['*'] ∈ members := by
  cases listings with
  | nil => cases spelled
  | cons first rest =>
    have bounded : Bounded (rest.foldl (meet keptNames) first) members := by
      apply bounded_fold
      rcases mem_cons.mp spelled with rfl | later
      · exact .inl ⟨members, rfl, fun _ member => .inl member⟩
      · exact .inr later
    obtain ⟨kept, found, bound⟩ := bounded
    rw [surviving, found] at survives
    exact bound name survives

theorem surviving_of_layer {Facet : Type} {field : Facet → Option (List Text)}
    {facet : AccessBindingScope → Option Facet} {layers : List AccessBindingScope} {layer : AccessBindingScope}
    (inLayers : layer ∈ layers) {scope : Facet} (declared : facet layer = some scope) {names : List Text}
    (spelled : field scope = some names)
    (survives : name ∈ surviving keptNames (layers.map fun layer => listing field (facet layer))) :
    name ∈ names ∨ ['*'] ∈ names := by
  have entries : .entries {entry | entry ∈ names} ∈ layers.map fun layer => listing field (facet layer) :=
    mem_map.mpr ⟨layer, inLayers, by simp [listing, declared, spelled]⟩
  exact surviving_names entries survives

end EveHorizon.Access
