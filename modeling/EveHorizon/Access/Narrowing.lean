import EveHorizon.Access.Survivors

/-!
# Merged scopes against their layers

A merge should admit only what every layer that declares the facet admits.
-/

namespace EveHorizon.Access

open List
open PrefixScope (allowPrefixes readOnlyPrefixes)

def AccessBindingScope.declares (scope : AccessBindingScope) : AccessResourceType → Bool
  | .orgfs => scope.orgfs.isSome
  | .orgdocs => scope.orgdocs.isSome
  | .envdb => scope.envdb.isSome
  | .cloudFs => scope.cloudFs.isSome

open AccessBindingScope (cloudFs declares envdb orgdocs orgfs)

/-- What the merged scope admits, every layer admits that declares the facet. -/
def NeverWidens (merged : Option AccessBindingScope) (layers : List AccessBindingScope) : Prop :=
  ∀ permission resourceType resource, permissionResourceType permission = some resourceType →
    (evaluateScope merged permission (some resource)).scopeMatched = true →
    ∀ layer ∈ layers, layer.declares resourceType = true →
      (evaluateScope (some layer) permission (some resource)).scopeMatched = true

def PatternWithin (pattern : Text) (patterns : List Text) : Prop :=
  ∀ path, matchesPathPattern pattern (normalizeScopedPath path) = true → Covers patterns (normalizeScopedPath path)

def survivingPatterns (facet : AccessBindingScope → Option PrefixScope)
    (field : PrefixScope → Option (List Text)) (layers : List AccessBindingScope) : Set Text :=
  surviving keptPatterns (layers.map fun layer => listing field (facet layer))

/-- A layer without an allow list leaves no allow pattern, and what survives of the
patterns lies within the patterns of every layer. -/
structure PrefixNarrowing (facet : AccessBindingScope → Option PrefixScope)
    (layers : List AccessBindingScope) : Prop where
  omitted : ∀ layer ∈ layers, ∀ scope ∈ facet layer, scope.allowPrefixes = none →
    survivingPatterns facet allowPrefixes layers = ∅
  allow : ∀ layer ∈ layers, ∀ scope ∈ facet layer, ∀ patterns ∈ scope.allowPrefixes,
    ∀ pattern ∈ survivingPatterns facet allowPrefixes layers, PatternWithin pattern patterns
  readOnly : ∀ layer ∈ layers, ∀ scope ∈ facet layer,
    ∀ pattern ∈ survivingPatterns facet readOnlyPrefixes layers,
      PatternWithin pattern (scope.allowPrefixes.getD [] ++ scope.readOnlyPrefixes.getD [])

/-- What survives of the schemas admits no more than a layer without a schema list, and
the same of the tables. -/
structure EnvDbNarrowing (layers : List AccessBindingScope) : Prop where
  schemas : ∀ layer ∈ layers, ∀ scope ∈ layer.envdb, scope.schemas = none →
    ∀ pattern ∈ surviving keptNames (layers.map fun layer => listing EnvDbScope.schemas layer.envdb),
      ∀ identifier, Text.trim identifier ≠ [] → schemaAdmits pattern identifier = true →
        EnvDbAdmits (some scope) identifier
  tables : ∀ layer ∈ layers, ∀ scope ∈ layer.envdb, scope.tables = none →
    ∀ pattern ∈ surviving keptNames (layers.map fun layer => listing EnvDbScope.tables layer.envdb),
      ∀ identifier, Text.trim identifier ≠ [] → tableAdmits pattern identifier = true →
        EnvDbAdmits (some scope) identifier

def CloudFsNarrowing (layers : List AccessBindingScope) : Prop :=
  ∀ layer ∈ layers, ∀ scope ∈ layer.cloudFs, scope.allowMountIds = none →
    surviving keptNames (layers.map fun layer => listing CloudFsScope.allowMountIds layer.cloudFs) = ∅

structure Narrowing (layers : List AccessBindingScope) : Prop where
  orgfs : PrefixNarrowing orgfs layers
  orgdocs : PrefixNarrowing orgdocs layers
  envdb : EnvDbNarrowing layers
  cloudFs : CloudFsNarrowing layers

/-- One facet of a merged scope admits no more than the layers that declare it. -/
def FacetNarrows {Facet : Type}
    (evaluate : Option Facet → Option AccessResourceContext → ScopeEvaluation)
    (merged : Option Facet) (layers : List (Option Facet)) : Prop :=
  ∀ resource, (evaluate merged (some resource)).scopeMatched = true →
    ∀ facet, some facet ∈ layers → (evaluate (some facet) (some resource)).scopeMatched = true

def readPermission (resourceType : AccessResourceType) : Text := resourceType.name ++ ":read".toList

theorem permissionResourceType_readPermission (resourceType : AccessResourceType) :
    permissionResourceType (readPermission resourceType) = some resourceType := by
  cases resourceType <;> decide +kernel

variable {resourceType : AccessResourceType}

theorem evaluateScope_eq {permission : Text} (concerns : permissionResourceType permission = some resourceType)
    (scope : AccessBindingScope) (resource : Option AccessResourceContext) :
    evaluateScope (some scope) permission resource = evaluateFacet scope resourceType resource := by
  rw [evaluateScope, concerns]

variable {layers : List AccessBindingScope}

theorem neverWidens_iff_facets {merged : AccessBindingScope} : NeverWidens (some merged) layers ↔
      FacetNarrows (evaluatePrefixScope .orgfs) merged.orgfs (layers.map orgfs) ∧
      FacetNarrows (evaluatePrefixScope .orgdocs) merged.orgdocs (layers.map orgdocs) ∧
      FacetNarrows evaluateEnvDbScope merged.envdb (layers.map envdb) ∧
      FacetNarrows evaluateCloudFsScope merged.cloudFs (layers.map cloudFs) := by
  constructor
  · intro narrows
    have each := fun resourceType resource =>
      narrows (readPermission resourceType) resourceType resource
        (permissionResourceType_readPermission resourceType)
    simp only [evaluateScope_eq (permissionResourceType_readPermission _)] at each
    refine ⟨?_, ?_, ?_, ?_⟩
    all_goals
      intro resource admitted facet member
      obtain ⟨layer, inLayers, declared⟩ := mem_map.mp member
      rw [← declared]
    · exact each .orgfs resource admitted layer inLayers (by simp [declares, declared])
    · exact each .orgdocs resource admitted layer inLayers (by simp [declares, declared])
    · exact each .envdb resource admitted layer inLayers (by simp [declares, declared])
    · exact each .cloudFs resource admitted layer inLayers (by simp [declares, declared])
  · rintro ⟨orgfs, orgdocs, envdb, cloudFs⟩ permission resourceType resource concerns admitted layer inLayers declares
    rw [evaluateScope_eq concerns] at admitted ⊢
    cases resourceType
    all_goals
      obtain ⟨facet, declared⟩ := Option.isSome_iff_exists.mp declares
      rw [evaluateFacet, declared]
    · exact orgfs resource admitted facet (mem_map.mpr ⟨layer, inLayers, declared⟩)
    · exact orgdocs resource admitted facet (mem_map.mpr ⟨layer, inLayers, declared⟩)
    · exact envdb resource admitted facet (mem_map.mpr ⟨layer, inLayers, declared⟩)
    · exact cloudFs resource admitted facet (mem_map.mpr ⟨layer, inLayers, declared⟩)

variable {facet : AccessBindingScope → Option PrefixScope}

theorem prefix_narrows_iff {merged : Option PrefixScope}
    (allow : ∀ entry, entry ∈ (merged.bind allowPrefixes).getD [] ↔
      entry ∈ survivingPatterns facet allowPrefixes layers)
    (readOnly : ∀ entry, entry ∈ (merged.bind readOnlyPrefixes).getD [] ↔
      entry ∈ survivingPatterns facet readOnlyPrefixes layers) :
    FacetNarrows (evaluatePrefixScope resourceType) merged (layers.map facet) ↔ PrefixNarrowing facet layers := by
  constructor
  · intro narrows
    -- a survivor is admitted by the merge, so every layer has to match the same paths
    have allowed : ∀ layer ∈ layers, ∀ scope ∈ facet layer, ∀ pattern ∈ survivingPatterns facet allowPrefixes layers,
          PatternWithin pattern (scope.allowPrefixes.getD []) := by
      intro layer inLayers scope declared pattern survives path hit
      have admitted := narrows ⟨resourceType, path, .write⟩
        (evaluatePrefixScope_matched.mpr ⟨rfl, .inl ⟨pattern, (allow pattern).mpr survives, hit⟩⟩)
        scope (mem_map.mpr ⟨layer, inLayers, declared⟩)
      obtain ⟨-, covered | ⟨reading, -⟩⟩ := evaluatePrefixScope_matched.mp admitted
      · exact covered
      · cases reading
    constructor
    · intro layer inLayers scope declared omitted
      rw [Set.eq_empty_iff_forall_notMem]
      intro pattern survives
      have normal := (normalPath_normalize pattern).fillStars.normalize
      have covered := allowed layer inLayers scope declared pattern survives (fillStars (normalizeScopedPath pattern))
        (by rw [normal]; exact matchesPathPattern_sample pattern)
      rw [omitted] at covered
      obtain ⟨_, member, _⟩ := covered
      exact not_mem_nil member
    · intro layer inLayers scope declared patterns spelled pattern survives
      have within := allowed layer inLayers scope declared pattern survives
      rw [spelled] at within
      exact within
    · intro layer inLayers scope declared pattern survives path hit
      have admitted := narrows ⟨resourceType, path, .read⟩
        (evaluatePrefixScope_matched.mpr ⟨rfl, .inr ⟨rfl, pattern, (readOnly pattern).mpr survives, hit⟩⟩)
        scope (mem_map.mpr ⟨layer, inLayers, declared⟩)
      obtain ⟨-, ⟨found, member, hit⟩ | ⟨-, found, member, hit⟩⟩ := evaluatePrefixScope_matched.mp admitted
      · exact ⟨found, mem_append_left _ member, hit⟩
      · exact ⟨found, mem_append_right _ member, hit⟩
  · intro narrowing resource admitted scope member
    obtain ⟨layer, inLayers, declared⟩ := mem_map.mp member
    rw [evaluatePrefixScope_matched] at admitted ⊢
    obtain ⟨sameType, ⟨pattern, listed, hit⟩ | ⟨reading, pattern, listed, hit⟩⟩ := admitted
    · have survives := (allow pattern).mp listed
      cases spelled : scope.allowPrefixes with
      | none =>
        rw [narrowing.omitted layer inLayers scope declared spelled] at survives
        cases survives
      | some patterns =>
        have covered := narrowing.allow layer inLayers scope declared patterns spelled pattern survives resource.id hit
        exact ⟨sameType, .inl (by simpa [spelled] using covered)⟩
    · have survives := (readOnly pattern).mp listed
      obtain ⟨found, member, hit⟩ := narrowing.readOnly layer inLayers scope declared pattern survives resource.id hit
      rcases mem_append.mp member with member | member
      · exact ⟨sameType, .inl ⟨found, member, hit⟩⟩
      · exact ⟨sameType, .inr ⟨reading, found, member, hit⟩⟩

theorem matchesIdentifierPattern_star (value : Text) : matchesIdentifierPattern ['*'] value = true := by
  simp [matchesIdentifierPattern]

theorem envDb_narrows_iff {merged : Option EnvDbScope}
    (schemas : ∀ entry, entry ∈ (merged.bind EnvDbScope.schemas).getD [] ↔ entry ∈ surviving keptNames
        (layers.map fun layer => listing EnvDbScope.schemas layer.envdb))
    (tables : ∀ entry, entry ∈ (merged.bind EnvDbScope.tables).getD [] ↔ entry ∈ surviving keptNames
        (layers.map fun layer => listing EnvDbScope.tables layer.envdb)) :
    FacetNarrows evaluateEnvDbScope merged (layers.map envdb) ↔ EnvDbNarrowing layers := by
  constructor
  · intro narrows
    constructor
    · intro layer inLayers scope declared _ pattern survives identifier nonempty admits
      have admitted := narrows ⟨.envdb, identifier, .read⟩
        (evaluateEnvDbScope_matched.mpr ⟨rfl, nonempty, .inl ⟨pattern, (schemas pattern).mpr survives, admits⟩⟩)
        scope (mem_map.mpr ⟨layer, inLayers, declared⟩)
      exact (evaluateEnvDbScope_matched.mp admitted).2.2
    · intro layer inLayers scope declared _ pattern survives identifier nonempty admits
      have admitted := narrows ⟨.envdb, identifier, .read⟩
        (evaluateEnvDbScope_matched.mpr ⟨rfl, nonempty, .inr ⟨pattern, (tables pattern).mpr survives, admits⟩⟩)
        scope (mem_map.mpr ⟨layer, inLayers, declared⟩)
      exact (evaluateEnvDbScope_matched.mp admitted).2.2
  · intro narrowing resource admitted scope member
    obtain ⟨layer, inLayers, declared⟩ := mem_map.mp member
    rw [evaluateEnvDbScope_matched] at admitted ⊢
    obtain ⟨sameType, nonempty, ⟨pattern, listed, admits⟩ | ⟨pattern, listed, admits⟩⟩ := admitted
    · have survives := (schemas pattern).mp listed
      refine ⟨sameType, nonempty, ?_⟩
      cases spelled : scope.schemas with
      | none =>
        exact narrowing.schemas layer inLayers scope declared spelled pattern survives resource.id nonempty admits
      | some names =>
        left
        rcases surviving_of_layer inLayers declared spelled survives with kept | any
        · exact ⟨pattern, by simp [spelled, kept], admits⟩
        · exact ⟨['*'], by simp [spelled, any], matchesIdentifierPattern_star _⟩
    · have survives := (tables pattern).mp listed
      refine ⟨sameType, nonempty, ?_⟩
      cases spelled : scope.tables with
      | none =>
        exact narrowing.tables layer inLayers scope declared spelled pattern survives resource.id nonempty admits
      | some names =>
        right
        rcases surviving_of_layer inLayers declared spelled survives with kept | any
        · exact ⟨pattern, by simp [spelled, kept], admits⟩
        · refine ⟨['*'], by simp [spelled, any], ?_⟩
          rw [tableAdmits, Bool.and_eq_true] at admits ⊢
          exact ⟨admits.1, matchesIdentifierPattern_star _⟩

theorem cloudFs_narrows_iff {merged : Option CloudFsScope}
    (mounts : ∀ entry, entry ∈ (merged.bind CloudFsScope.allowMountIds).getD [] ↔ entry ∈ surviving keptNames
        (layers.map fun layer => listing CloudFsScope.allowMountIds layer.cloudFs)) :
    FacetNarrows evaluateCloudFsScope merged (layers.map cloudFs) ↔ CloudFsNarrowing layers := by
  constructor
  · intro narrows layer inLayers scope declared omitted
    rw [Set.eq_empty_iff_forall_notMem]
    intro id survives
    have admitted := narrows ⟨.cloudFs, id, .read⟩
      (evaluateCloudFsScope_matched.mpr ⟨rfl, .inr ((mounts id).mpr survives)⟩)
      scope (mem_map.mpr ⟨layer, inLayers, declared⟩)
    simp [evaluateCloudFsScope_matched, omitted] at admitted
  · intro narrowing resource admitted scope member
    obtain ⟨layer, inLayers, declared⟩ := mem_map.mp member
    rw [evaluateCloudFsScope_matched] at admitted ⊢
    obtain ⟨sameType, admits⟩ := admitted
    refine ⟨sameType, ?_⟩
    rw [mounts, mounts] at admits
    cases spelled : scope.allowMountIds with
    | none =>
      rw [narrowing layer inLayers scope declared spelled] at admits
      simp at admits
    | some ids =>
      simp only [Option.bind_some, spelled, Option.getD_some]
      rcases admits with survives | survives
      · rcases surviving_of_layer inLayers declared spelled survives with kept | any
        · exact .inl kept
        · exact .inl any
      · rcases surviving_of_layer inLayers declared spelled survives with kept | any
        · exact .inr kept
        · exact .inl any

theorem fold_narrows_iff (layer : AccessBindingScope) (layers : List AccessBindingScope) :
    NeverWidens (some (layers.foldl intersectScopes layer)) (layer :: layers) ↔ Narrowing (layer :: layers) := by
  have patterns : ∀ (facet : AccessBindingScope → Option PrefixScope),
      (∀ left right, facet (intersectScopes left right) =
        intersectFacet intersectPrefixScope (facet left) (facet right)) → ∀ resourceType,
        FacetNarrows (evaluatePrefixScope resourceType) (facet (layers.foldl intersectScopes layer))
          ((layer :: layers).map facet) ↔ PrefixNarrowing facet (layer :: layers) := by
    intro facet facets resourceType
    exact prefix_narrows_iff (mem_fold_iff facet intersectPathPatterns_merges facets (fun _ _ => rfl) layer layers)
      (mem_fold_iff facet intersectPathPatterns_merges facets (fun _ _ => rfl) layer layers)
  have orgfs := patterns orgfs (fun _ _ => rfl) .orgfs
  have orgdocs := patterns orgdocs (fun _ _ => rfl) .orgdocs
  have envdb := envDb_narrows_iff
    (mem_fold_iff envdb intersectStringSets_merges (fun _ _ => rfl) (fun _ _ => rfl) layer layers)
    (mem_fold_iff envdb intersectStringSets_merges (fun _ _ => rfl) (fun _ _ => rfl) layer layers)
  have cloudFs := cloudFs_narrows_iff
    (mem_fold_iff cloudFs intersectStringSets_merges (fun _ _ => rfl) (fun _ _ => rfl) layer layers)
  rw [neverWidens_iff_facets, orgfs, orgdocs, envdb, cloudFs]
  constructor
  · rintro ⟨first, second, third, fourth⟩
    exact ⟨first, second, third, fourth⟩
  · intro narrowing
    exact ⟨narrowing.orgfs, narrowing.orgdocs, narrowing.envdb, narrowing.cloudFs⟩

theorem narrowing_nil : Narrowing [] := by
  have none_narrows : ∀ facet, PrefixNarrowing facet [] := by
    intro facet
    constructor <;> (intro layer missing; cases missing)
  refine ⟨none_narrows _, none_narrows _, ?_, ?_⟩
  · constructor <;> (intro layer missing; cases missing)
  · intro layer missing
    cases missing

/-- The patterns kept of the other scope lie within this one. A list that this scope
leaves out keeps the whole list of the other. -/
structure KeepsWithin (Keeps : Text → Text → Prop) (own other : PrefixScope) : Prop where
  omitted : own.allowPrefixes = none → other.allowPrefixes.getD [] = []
  allow : ∀ patterns ∈ own.allowPrefixes, ∀ mine ∈ patterns,
    ∀ pattern ∈ other.allowPrefixes.getD [], pattern ≠ [] → Keeps mine pattern → PatternWithin pattern patterns
  readOnlyOmitted : own.readOnlyPrefixes = none → ∀ pattern ∈ other.readOnlyPrefixes.getD [],
    PatternWithin pattern (own.allowPrefixes.getD [])
  readOnly : ∀ patterns ∈ own.readOnlyPrefixes, ∀ mine ∈ patterns,
    ∀ pattern ∈ other.readOnlyPrefixes.getD [], pattern ≠ [] → Keeps mine pattern →
      PatternWithin pattern (own.allowPrefixes.getD [] ++ patterns)

def KeepsTheOther (mine pattern : Text) : Prop := KeepsLeft pattern mine

/-- The other scope's schemas and tables are taken over where this scope leaves them out. -/
structure NamesWithin (own other : EnvDbScope) : Prop where
  schemas : own.schemas = none → ∀ pattern ∈ other.schemas.getD [],
    ∀ identifier, Text.trim identifier ≠ [] → schemaAdmits pattern identifier = true → EnvDbAdmits (some own) identifier
  tables : own.tables = none → ∀ pattern ∈ other.tables.getD [],
    ∀ identifier, Text.trim identifier ≠ [] → tableAdmits pattern identifier = true → EnvDbAdmits (some own) identifier

structure PairNarrowing (a b : AccessBindingScope) : Prop where
  orgfs : ∀ left ∈ a.orgfs, ∀ right ∈ b.orgfs, KeepsWithin KeepsRight left right ∧ KeepsWithin KeepsTheOther right left
  orgdocs : ∀ left ∈ a.orgdocs, ∀ right ∈ b.orgdocs,
    KeepsWithin KeepsRight left right ∧ KeepsWithin KeepsTheOther right left
  envdb : ∀ left ∈ a.envdb, ∀ right ∈ b.envdb, NamesWithin left right ∧ NamesWithin right left
  cloudFs : ∀ left ∈ a.cloudFs, ∀ right ∈ b.cloudFs, (left.allowMountIds = none → right.allowMountIds.getD [] = []) ∧
      (right.allowMountIds = none → left.allowMountIds.getD [] = [])

variable {patterns : List Text} {pattern : Text}

theorem patternWithin_of_mem (member : pattern ∈ patterns) : PatternWithin pattern patterns :=
  fun _ hit => ⟨pattern, member, hit⟩

theorem PatternWithin.mono {more : List Text} (within : PatternWithin pattern patterns) (included : patterns ⊆ more) :
    PatternWithin pattern more := by
  intro path hit
  obtain ⟨found, member, matched⟩ := within path hit
  exact ⟨found, included member, matched⟩

section

variable {Facet : Type} {field : Facet → Option (List Text)} {left right : Facet}
variable {both : Set Text → Set Text → Set Text} {entry : Text}

theorem surviving_left_omitted (omitted : field left = none) :
    entry ∈ surviving both [listing field (some left), listing field (some right)] ↔ entry ∈ (field right).getD [] := by
  cases found : field right with
  | none | some _ => simp [surviving, listing, omitted, found, Listing.meet, Listing.members]

theorem surviving_right_omitted (omitted : field right = none) :
    entry ∈ surviving both [listing field (some left), listing field (some right)] ↔ entry ∈ (field left).getD [] := by
  cases found : field left with
  | none | some _ => simp [surviving, listing, omitted, found, Listing.meet, Listing.members]

theorem surviving_spelled {leftEntries rightEntries : List Text}
    (leftSpelled : field left = some leftEntries) (rightSpelled : field right = some rightEntries) :
    entry ∈ surviving both [listing field (some left), listing field (some right)] ↔
      entry ∈ both {entry | entry ∈ leftEntries} {entry | entry ∈ rightEntries} := by
  simp [surviving, listing, leftSpelled, rightSpelled, Listing.meet, Listing.members]

end

/-- How the patterns that survive relate to the two lists, seen from one of them. -/
structure Survivors (Keeps : Text → Text → Prop) (own other : Option (List Text))
    (survivors : Set Text) : Prop where
  omitted : own = none → ∀ pattern, pattern ∈ survivors ↔ pattern ∈ other.getD []
  kept : ∀ patterns ∈ own, ∀ pattern ∈ survivors, pattern ∈ patterns ∨
    (pattern ∈ other.getD [] ∧ pattern ≠ [] ∧ ∃ mine ∈ patterns, Keeps mine pattern)
  keeps : ∀ patterns ∈ own, ∀ mine ∈ patterns, ∀ pattern ∈ other.getD [], pattern ≠ [] →
    Keeps mine pattern → pattern ∈ survivors

variable {field : PrefixScope → Option (List Text)} {right left : PrefixScope}

theorem survivors_left :
    Survivors KeepsRight (field left) (field right)
      (surviving keptPatterns [listing field (some left), listing field (some right)]) where
  omitted omitted pattern := surviving_left_omitted omitted
  kept patterns spelled pattern survives := by
    cases found : field right with
    | none =>
      rw [surviving_right_omitted found, spelled] at survives
      exact .inl survives
    | some others =>
      rw [surviving_spelled spelled found] at survives
      obtain ⟨nonempty, ⟨member, -⟩ | ⟨member, mine, inOwn, keeps⟩⟩ := survives
      · exact .inl member
      · exact .inr ⟨member, nonempty, mine, inOwn, keeps⟩
  keeps patterns spelled mine inOwn pattern member nonempty keeps := by
    cases found : field right with
    | none => simp [found] at member
    | some others =>
      rw [surviving_spelled spelled found]
      rw [found] at member
      exact ⟨nonempty, .inr ⟨member, mine, inOwn, keeps⟩⟩

theorem survivors_right :
    Survivors KeepsTheOther (field right) (field left)
      (surviving keptPatterns [listing field (some left), listing field (some right)]) where
  omitted omitted pattern := surviving_right_omitted omitted
  kept patterns spelled pattern survives := by
    cases found : field left with
    | none =>
      rw [surviving_left_omitted found, spelled] at survives
      exact .inl survives
    | some others =>
      rw [surviving_spelled found spelled] at survives
      obtain ⟨nonempty, ⟨member, mine, inOwn, keeps⟩ | ⟨member, -⟩⟩ := survives
      · exact .inr ⟨member, nonempty, mine, inOwn, keeps⟩
      · exact .inl member
  keeps patterns spelled mine inOwn pattern member nonempty keeps := by
    cases found : field left with
    | none => simp [found] at member
    | some others =>
      rw [surviving_spelled found spelled]
      rw [found] at member
      exact ⟨nonempty, .inl ⟨member, mine, inOwn, keeps⟩⟩

structure Bounds (allow readOnly : Set Text) (scope : PrefixScope) : Prop where
  omitted : scope.allowPrefixes = none → allow = ∅
  allowed : ∀ patterns ∈ scope.allowPrefixes, ∀ pattern ∈ allow, PatternWithin pattern patterns
  readable : ∀ pattern ∈ readOnly, PatternWithin pattern (scope.allowPrefixes.getD [] ++ scope.readOnlyPrefixes.getD [])

theorem prefixNarrowing_iff_bounds : PrefixNarrowing facet layers ↔ ∀ layer ∈ layers, ∀ scope ∈ facet layer,
      Bounds (survivingPatterns facet allowPrefixes layers)
        (survivingPatterns facet readOnlyPrefixes layers) scope := by
  constructor
  · intro narrowing layer inLayers scope declared
    exact ⟨narrowing.omitted layer inLayers scope declared, narrowing.allow layer inLayers scope declared,
      narrowing.readOnly layer inLayers scope declared⟩
  · intro bounds
    exact ⟨fun layer inLayers scope declared => (bounds layer inLayers scope declared).omitted,
      fun layer inLayers scope declared => (bounds layer inLayers scope declared).allowed,
      fun layer inLayers scope declared => (bounds layer inLayers scope declared).readable⟩

variable {readOnly allow : Set Text}

theorem bounds_iff_keepsWithin {Keeps : Text → Text → Prop} (own other : PrefixScope)
    (allows : Survivors Keeps own.allowPrefixes other.allowPrefixes allow)
    (reads : Survivors Keeps own.readOnlyPrefixes other.readOnlyPrefixes readOnly) :
    Bounds allow readOnly own ↔ KeepsWithin Keeps own other := by
  constructor
  · intro bounds
    constructor
    · intro omitted
      rw [eq_nil_iff_forall_not_mem]
      intro pattern member
      have survives := (allows.omitted omitted pattern).mpr member
      rw [bounds.omitted omitted] at survives
      cases survives
    · intro patterns spelled mine inOwn pattern member nonempty keeps
      exact bounds.allowed patterns spelled pattern
        (allows.keeps patterns spelled mine inOwn pattern member nonempty keeps)
    · intro omitted pattern member
      have within := bounds.readable pattern ((reads.omitted omitted pattern).mpr member)
      rwa [omitted, Option.getD_none, append_nil] at within
    · intro patterns spelled mine inOwn pattern member nonempty keeps
      have within := bounds.readable pattern (reads.keeps patterns spelled mine inOwn pattern member nonempty keeps)
      rwa [spelled, Option.getD_some] at within
  · intro within
    constructor
    · intro omitted
      rw [Set.eq_empty_iff_forall_notMem]
      intro pattern survives
      have member := (allows.omitted omitted pattern).mp survives
      rw [within.omitted omitted] at member
      cases member
    · intro patterns spelled pattern survives
      rcases allows.kept patterns spelled pattern survives with
        member | ⟨member, nonempty, mine, inOwn, keeps⟩
      · exact patternWithin_of_mem member
      · exact within.allow patterns spelled mine inOwn pattern member nonempty keeps
    · intro pattern survives
      cases spelled : own.readOnlyPrefixes with
      | none =>
        have member := (reads.omitted spelled pattern).mp survives
        exact (within.readOnlyOmitted spelled pattern member).mono (subset_append_left _ _)
      | some patterns =>
        rcases reads.kept patterns spelled pattern survives with
          member | ⟨member, nonempty, mine, inOwn, keeps⟩
        · exact patternWithin_of_mem (mem_append_right _ member)
        · exact within.readOnly patterns spelled mine inOwn pattern member nonempty keeps

theorem bounds_self (scope : PrefixScope) (allows : ∀ pattern ∈ allow, pattern ∈ scope.allowPrefixes.getD [])
    (reads : ∀ pattern ∈ readOnly, pattern ∈ scope.readOnlyPrefixes.getD []) : Bounds allow readOnly scope := by
  constructor
  · intro omitted
    rw [Set.eq_empty_iff_forall_notMem]
    intro pattern survives
    have member := allows pattern survives
    simp [omitted] at member
  · intro patterns spelled pattern survives
    have member := allows pattern survives
    rw [spelled] at member
    exact patternWithin_of_mem member
  · intro pattern survives
    exact patternWithin_of_mem (mem_append_right _ (reads pattern survives))

theorem surviving_alone {Facet : Type} {field : Facet → Option (List Text)} {facet : Facet}
    {both : Set Text → Set Text → Set Text} {entry : Text} :
    (entry ∈ surviving both [listing field (some facet), listing field none] ↔ entry ∈ (field facet).getD []) ∧
      (entry ∈ surviving both [listing field none, listing field (some facet)] ↔ entry ∈ (field facet).getD []) := by
  cases found : field facet with
  | none | some _ => simp [surviving, listing, found, Listing.meet, Listing.members]

variable {a b : AccessBindingScope}

theorem prefixNarrowing_pair_iff : PrefixNarrowing facet [a, b] ↔ ∀ left ∈ facet a, ∀ right ∈ facet b,
      KeepsWithin KeepsRight left right ∧ KeepsWithin KeepsTheOther right left := by
  rw [prefixNarrowing_iff_bounds]
  simp only [forall_mem_cons, not_mem_nil, false_implies, implies_true, and_true, survivingPatterns, map_cons, map_nil]
  cases facet a with
  | none =>
    cases facet b with
    | none => simp
    | some right =>
      have bounds := bounds_self right
        (fun pattern survives => (@surviving_alone _ _ _ keptPatterns _).2.mp survives)
        (fun pattern survives => (@surviving_alone _ _ _ keptPatterns _).2.mp survives)
      simp [bounds]
  | some left =>
    cases facet b with
    | none =>
      have bounds := bounds_self left
        (fun pattern survives => (@surviving_alone _ _ _ keptPatterns _).1.mp survives)
        (fun pattern survives => (@surviving_alone _ _ _ keptPatterns _).1.mp survives)
      simp [bounds]
    | some right =>
      have first := bounds_iff_keepsWithin left right survivors_left survivors_left
      have second := bounds_iff_keepsWithin right left survivors_right survivors_right
      simp [first, second]

theorem omitted_pair_iff {Facet : Type} (facet : AccessBindingScope → Option Facet)
    (field : Facet → Option (List Text)) (both : Set Text → Set Text → Set Text) (Holds : Facet → Text → Prop) :
    (∀ layer ∈ [a, b], ∀ scope ∈ facet layer, field scope = none →
        ∀ entry ∈ surviving both ([a, b].map fun layer => listing field (facet layer)), Holds scope entry) ↔
      ∀ left ∈ facet a, ∀ right ∈ facet b, (field left = none → ∀ entry ∈ (field right).getD [], Holds left entry) ∧
          (field right = none → ∀ entry ∈ (field left).getD [], Holds right entry) := by
  simp only [forall_mem_cons, not_mem_nil, false_implies, implies_true, and_true, map_cons, map_nil]
  cases facet a with
  | none =>
    cases facet b with
    | none => simp
    | some right =>
      have alone := fun entry => (@surviving_alone _ field right both entry).2
      simp only [alone]
      simp +contextual
  | some left =>
    cases facet b with
    | none =>
      have alone := fun entry => (@surviving_alone _ field left both entry).1
      simp only [alone]
      simp +contextual
    | some right =>
      simp only [Option.mem_def, Option.some.injEq, forall_eq']
      apply and_congr
      · apply imp_congr_right
        intro omitted
        simp only [surviving_left_omitted omitted]
      · apply imp_congr_right
        intro omitted
        simp only [surviving_right_omitted omitted]

theorem envDbNarrowing_pair_iff :
    EnvDbNarrowing [a, b] ↔ ∀ left ∈ a.envdb, ∀ right ∈ b.envdb, NamesWithin left right ∧ NamesWithin right left := by
  have schemas := omitted_pair_iff envdb EnvDbScope.schemas keptNames
    (fun scope pattern => ∀ identifier, Text.trim identifier ≠ [] →
      schemaAdmits pattern identifier = true → EnvDbAdmits (some scope) identifier)
    (a := a) (b := b)
  have tables := omitted_pair_iff envdb EnvDbScope.tables keptNames
    (fun scope pattern => ∀ identifier, Text.trim identifier ≠ [] →
      tableAdmits pattern identifier = true → EnvDbAdmits (some scope) identifier)
    (a := a) (b := b)
  constructor
  · intro narrowing left declaredLeft right declaredRight
    have first := schemas.mp narrowing.schemas left declaredLeft right declaredRight
    have second := tables.mp narrowing.tables left declaredLeft right declaredRight
    exact ⟨⟨first.1, second.1⟩, ⟨first.2, second.2⟩⟩
  · intro within
    constructor
    · apply schemas.mpr
      intro left declaredLeft right declaredRight
      have pair := within left declaredLeft right declaredRight
      exact ⟨pair.1.schemas, pair.2.schemas⟩
    · apply tables.mpr
      intro left declaredLeft right declaredRight
      have pair := within left declaredLeft right declaredRight
      exact ⟨pair.1.tables, pair.2.tables⟩

theorem cloudFsNarrowing_pair_iff : CloudFsNarrowing [a, b] ↔ ∀ left ∈ a.cloudFs, ∀ right ∈ b.cloudFs,
      (left.allowMountIds = none → right.allowMountIds.getD [] = []) ∧
        (right.allowMountIds = none → left.allowMountIds.getD [] = []) := by
  have mounts := omitted_pair_iff cloudFs CloudFsScope.allowMountIds keptNames (fun _ _ => False) (a := a) (b := b)
  simpa only [CloudFsNarrowing, Set.eq_empty_iff_forall_notMem, eq_nil_iff_forall_not_mem] using mounts

theorem pair_narrowing_iff : Narrowing [a, b] ↔ PairNarrowing a b := by
  constructor
  · intro narrowing
    exact ⟨prefixNarrowing_pair_iff.mp narrowing.orgfs, prefixNarrowing_pair_iff.mp narrowing.orgdocs,
      envDbNarrowing_pair_iff.mp narrowing.envdb, cloudFsNarrowing_pair_iff.mp narrowing.cloudFs⟩
  · intro within
    exact ⟨prefixNarrowing_pair_iff.mpr within.orgfs, prefixNarrowing_pair_iff.mpr within.orgdocs,
      envDbNarrowing_pair_iff.mpr within.envdb, cloudFsNarrowing_pair_iff.mpr within.cloudFs⟩

/-- The merge of two scopes, and of the scopes of a workflow, a step and an invocation,
admits no more than its layers exactly when what survives of their lists does. -/
theorem merged_scope_narrows_iff (a b : AccessBindingScope)
    (workflowScope stepScope invocationScope : Option AccessBindingScope) :
    (NeverWidens (some (intersectScopes a b)) [a, b] ↔ PairNarrowing a b) ∧
      (NeverWidens (mergeStepTokenScope workflowScope stepScope invocationScope)
          (presentScopes workflowScope stepScope invocationScope) ↔
        Narrowing (presentScopes workflowScope stepScope invocationScope)) := by
  constructor
  · exact (fold_narrows_iff a [b]).trans pair_narrowing_iff
  · unfold mergeStepTokenScope
    cases presentScopes workflowScope stepScope invocationScope with
    | nil =>
      constructor
      · intro _
        exact narrowing_nil
      · intro _ _ _ _ _ _ layer missing
        cases missing
    | cons layer layers => exact fold_narrows_iff layer layers

def oneLevel : AccessBindingScope where
  orgfs := some { allowPrefixes := some ["/data/*".toList] }

def anyDepth : AccessBindingScope where
  orgfs := some { allowPrefixes := some ["/data/**".toList] }

theorem step_scope_widens_workflow_scope :
    ¬ NeverWidens (some (intersectScopes oneLevel anyDepth)) [oneLevel, anyDepth] := by
  intro narrows
  have denied := narrows "orgfs:read".toList .orgfs ⟨.orgfs, "/data/a/b".toList, .read⟩
    (by decide +kernel) (by decide +kernel) oneLevel (by simp) rfl
  exact absurd denied (by decide +kernel)

end EveHorizon.Access
