import EveHorizon.Access.Narrowing
import EveHorizon.Library.Coverage

/-!
# What merged scopes share

What two scopes both admit, their merge should admit as well.
-/

namespace EveHorizon.Access

open Coverage (Admitted admitted_union)
open EnvDbScope (schemas tables)
open PrefixScope (allowPrefixes readOnlyPrefixes)

def PathAdmits (pattern path : Text) : Prop :=
  matchesPathPattern pattern (normalizeScopedPath path) = true

abbrev Reaches (patterns : Set Text) (path : Text) : Prop := Admitted PathAdmits patterns path

def NamesAdmit (schemas tables : Set Text) (identifier : Text) : Prop :=
  (∃ pattern ∈ schemas, schemaAdmits pattern identifier = true) ∨
    ∃ pattern ∈ tables, tableAdmits pattern identifier = true

def MountsAdmit (mounts : Set Text) (mountId : Text) : Prop := ['*'] ∈ mounts ∨ mountId ∈ mounts

def allowOf (facet : Option PrefixScope) : Set Text := (listing allowPrefixes facet).members

def readOnlyOf (facet : Option PrefixScope) : Set Text := (listing readOnlyPrefixes facet).members

def schemasOf (facet : Option EnvDbScope) : Set Text := (listing schemas facet).members

def tablesOf (facet : Option EnvDbScope) : Set Text := (listing tables facet).members

def mountsOf (facet : Option CloudFsScope) : Set Text := (listing CloudFsScope.allowMountIds facet).members

variable {Facet : Type} {field : Facet → Option (List Text)}

theorem covers_iff_reaches {facet : Option Facet} {path : Text} :
    Covers ((facet.bind field).getD []) (normalizeScopedPath path) ↔ Reaches (listing field facet).members path := by
  constructor
  · rintro ⟨pattern, member, hit⟩
    exact ⟨pattern, mem_listing.mp member, hit⟩
  · rintro ⟨pattern, member, hit⟩
    exact ⟨pattern, mem_listing.mpr member, hit⟩

variable {resource : AccessResourceContext} {resourceType : AccessResourceType}

theorem evaluatePrefixScope_iff {facet : Option PrefixScope} :
    (evaluatePrefixScope resourceType facet (some resource)).scopeMatched = true ↔
      resource.type = resourceType ∧ (Reaches (allowOf facet) resource.id ∨
        (resource.action = .read ∧ Reaches (readOnlyOf facet) resource.id)) := by
  rw [evaluatePrefixScope_matched, covers_iff_reaches, covers_iff_reaches, allowOf, readOnlyOf]

theorem evaluateEnvDbScope_iff {facet : Option EnvDbScope} :
    (evaluateEnvDbScope facet (some resource)).scopeMatched = true ↔
      resource.type = .envdb ∧ Text.trim resource.id ≠ [] ∧
        NamesAdmit (schemasOf facet) (tablesOf facet) resource.id := by
  simp only [evaluateEnvDbScope_matched, EnvDbAdmits, NamesAdmit, schemasOf, tablesOf, mem_listing]

theorem evaluateCloudFsScope_iff {facet : Option CloudFsScope} :
    (evaluateCloudFsScope facet (some resource)).scopeMatched = true ↔
      resource.type = .cloudFs ∧ MountsAdmit (mountsOf facet) resource.id := by
  simp only [evaluateCloudFsScope_matched, MountsAdmit, mountsOf, mem_listing]

variable {pattern : Text}

theorem tableAdmits_star {identifier : Text} (admits : tableAdmits pattern identifier = true) :
    tableAdmits ['*'] identifier = true := by
  rw [tableAdmits, Bool.and_eq_true] at admits ⊢
  exact ⟨admits.1, matchesIdentifierPattern_star _⟩

variable {both : Set Text → Set Text → Set Text}

theorem members_intersect (field : Facet → Option (List Text))
    {merge : Option (List Text) → Option (List Text) → List Text} (merges : Merges merge both)
    {intersect : Option Facet → Option Facet → Facet} (fields : ∀ left right, field (intersect left right) =
      some (merge (left.bind field) (right.bind field))) (left right : Option Facet) :
    (listing field (intersectFacet intersect left right)).members =
      ((listing field left).meet both (listing field right)).members := by
  rw [listing_intersectFacet merges fields]

theorem allowOf_intersect (left right : Option PrefixScope) : allowOf (intersectFacet intersectPrefixScope left right) =
      ((listing allowPrefixes left).meet keptPatterns (listing allowPrefixes right)).members :=
  members_intersect allowPrefixes intersectPathPatterns_merges (fun _ _ => rfl) left right

theorem readOnlyOf_intersect (left right : Option PrefixScope) :
    readOnlyOf (intersectFacet intersectPrefixScope left right) = ((listing readOnlyPrefixes left).meet keptPatterns
        (listing readOnlyPrefixes right)).members :=
  members_intersect readOnlyPrefixes intersectPathPatterns_merges (fun _ _ => rfl) left
    right

theorem schemasOf_intersect (left right : Option EnvDbScope) :
    schemasOf (intersectFacet intersectEnvDbScope left right) =
      ((listing schemas left).meet keptNames (listing schemas right)).members :=
  members_intersect schemas intersectStringSets_merges (fun _ _ => rfl) left right

theorem tablesOf_intersect (left right : Option EnvDbScope) : tablesOf (intersectFacet intersectEnvDbScope left right) =
      ((listing tables left).meet keptNames (listing tables right)).members :=
  members_intersect tables intersectStringSets_merges (fun _ _ => rfl) left right

theorem mountsOf_intersect (left right : Option CloudFsScope) :
    mountsOf (intersectFacet intersectCloudFsScope left right) =
      ((listing CloudFsScope.allowMountIds left).meet keptNames (listing CloudFsScope.allowMountIds right)).members :=
  members_intersect CloudFsScope.allowMountIds intersectStringSets_merges (fun _ _ => rfl) left right

/-- What two scopes that declare the facet admit, their merge admits. -/
def KeepsOverlap (a b : AccessBindingScope) : Prop :=
  ∀ permission resourceType resource, permissionResourceType permission = some resourceType →
    a.declares resourceType = true → b.declares resourceType = true →
    (evaluateScope (some a) permission (some resource)).scopeMatched = true →
    (evaluateScope (some b) permission (some resource)).scopeMatched = true →
      (evaluateScope (some (intersectScopes a b)) permission (some resource)).scopeMatched = true

def Dropped (left right : Text) : Prop := ∀ kept, intersectPathPattern left right = some kept → kept = []

def OverlapReached (kept : Set Text) (left right : Text) : Prop :=
  ∀ path, matchesPathPattern left (normalizeScopedPath path) = true →
    matchesPathPattern right (normalizeScopedPath path) = true → Reaches kept path

section

variable (left right : PrefixScope)

def keptAllow : Set Text :=
  ((listing allowPrefixes (some left)).meet keptPatterns
    (listing allowPrefixes (some right))).members

def keptReadOnly : Set Text :=
  ((listing readOnlyPrefixes (some left)).meet keptPatterns
    (listing readOnlyPrefixes (some right))).members

/-- Pairs of patterns of which the merge keeps none overlap only where other pairs are
kept: two allow patterns, two read-only patterns, or one of each that meets a spelled list
on the other side. -/
structure PrefixOverlapKept : Prop where
  allow : ∀ p ∈ left.allowPrefixes.getD [], ∀ q ∈ right.allowPrefixes.getD [], Dropped p q →
    OverlapReached (keptAllow left right) p q
  readOnly : ∀ p ∈ left.readOnlyPrefixes.getD [], ∀ q ∈ right.readOnlyPrefixes.getD [],
    Dropped p q → OverlapReached (keptAllow left right ∪ keptReadOnly left right) p q
  allowReadOnly : left.readOnlyPrefixes ≠ none → right.allowPrefixes ≠ none →
    ∀ p ∈ left.allowPrefixes.getD [], ∀ q ∈ right.readOnlyPrefixes.getD [],
      OverlapReached (keptAllow left right ∪ keptReadOnly left right) p q
  readOnlyAllow : left.allowPrefixes ≠ none → right.readOnlyPrefixes ≠ none →
    ∀ p ∈ left.readOnlyPrefixes.getD [], ∀ q ∈ right.allowPrefixes.getD [],
      OverlapReached (keptAllow left right ∪ keptReadOnly left right) p q

end

section

variable (left right : EnvDbScope)

def keptSchemas : Set Text :=
  ((listing schemas (some left)).meet keptNames (listing schemas (some right))).members

def keptTables : Set Text :=
  ((listing tables (some left)).meet keptNames (listing tables (some right))).members

def KeptAdmit (identifier : Text) : Prop :=
  NamesAdmit (keptSchemas left right) (keptTables left right) identifier

/-- Two different schema patterns overlap only where kept entries admit the identifiers,
and so do two table patterns, and a schema pattern with a table pattern where each meets a
spelled list on the other side. -/
structure EnvDbOverlapKept : Prop where
  schemas : ∀ p ∈ left.schemas.getD [], ∀ q ∈ right.schemas.getD [], p ≠ q →
    ∀ identifier, Text.trim identifier ≠ [] → schemaAdmits p identifier = true →
      schemaAdmits q identifier = true → KeptAdmit left right identifier
  tables : ∀ p ∈ left.tables.getD [], ∀ q ∈ right.tables.getD [], p ≠ q →
    ∀ identifier, Text.trim identifier ≠ [] → tableAdmits p identifier = true →
      tableAdmits q identifier = true → KeptAdmit left right identifier
  schemasTables : left.tables ≠ none → right.schemas ≠ none → ∀ p ∈ left.schemas.getD [], ∀ q ∈ right.tables.getD [],
    ∀ identifier, Text.trim identifier ≠ [] → schemaAdmits p identifier = true →
      tableAdmits q identifier = true → KeptAdmit left right identifier
  tablesSchemas : left.schemas ≠ none → right.tables ≠ none → ∀ p ∈ left.tables.getD [], ∀ q ∈ right.schemas.getD [],
    ∀ identifier, Text.trim identifier ≠ [] → tableAdmits p identifier = true →
      schemaAdmits q identifier = true → KeptAdmit left right identifier

end

/-- Nothing has to be said of mounts: what two lists of them share is always kept. -/
structure OverlapKept (a b : AccessBindingScope) : Prop where
  orgfs : ∀ left ∈ a.orgfs, ∀ right ∈ b.orgfs, PrefixOverlapKept left right
  orgdocs : ∀ left ∈ a.orgdocs, ∀ right ∈ b.orgdocs, PrefixOverlapKept left right
  envdb : ∀ left ∈ a.envdb, ∀ right ∈ b.envdb, EnvDbOverlapKept left right

variable {scope : PrefixScope}

theorem mem_allowOf : pattern ∈ allowOf (some scope) ↔ pattern ∈ scope.allowPrefixes.getD [] :=
  mem_listing.symm

theorem mem_readOnlyOf : pattern ∈ readOnlyOf (some scope) ↔ pattern ∈ scope.readOnlyPrefixes.getD [] :=
  mem_listing.symm

variable {left right : Set Text}

theorem kept_of_pair {p q kept : Text} (inLeft : p ∈ left) (inRight : q ∈ right)
    (intersection : intersectPathPattern p q = some kept) (nonempty : kept ≠ []) :
    kept ∈ keptPatterns left right ∧ (kept = p ∨ kept = q) := by
  rcases intersectPathPattern_eq_some.mp intersection with ⟨keeps, rfl⟩ | ⟨keeps, rfl⟩
  · exact ⟨⟨nonempty, .inl ⟨inLeft, q, inRight, keeps⟩⟩, .inl rfl⟩
  · exact ⟨⟨nonempty, .inr ⟨inRight, p, inLeft, keeps⟩⟩, .inr rfl⟩

theorem dropped_or_kept {left right : Set Text} {p q : Text} (inLeft : p ∈ left) (inRight : q ∈ right) :
    Dropped p q ∨ p ∈ keptPatterns left right ∨ q ∈ keptPatterns left right := by
  by_cases dropped : Dropped p q
  · exact .inl dropped
  · simp only [Dropped, not_forall] at dropped
    obtain ⟨kept, intersection, nonempty⟩ := dropped
    obtain ⟨member, rfl | rfl⟩ := kept_of_pair inLeft inRight intersection nonempty
    · exact .inr (.inl member)
    · exact .inr (.inr member)

section

variable {right : Facet}

theorem meet_spelled {left : Facet} (spelledLeft : field left ≠ none) (spelledRight : field right ≠ none) :
    ((listing field (some left)).meet both (listing field (some right))).members =
      both {entry | entry ∈ (field left).getD []} {entry | entry ∈ (field right).getD []} := by
  obtain ⟨entries, first⟩ := Option.ne_none_iff_exists'.mp spelledLeft
  obtain ⟨others, second⟩ := Option.ne_none_iff_exists'.mp spelledRight
  simp [listing, first, second, Listing.meet, Listing.members]

variable {entry : Text}

theorem meet_left {left : Facet} (omitted : field right = none) (member : entry ∈ (field left).getD []) :
    entry ∈ ((listing field (some left)).meet both (listing field (some right))).members := by
  cases spelled : field left with
  | none => simp [spelled] at member
  | some entries => simpa [listing, spelled, omitted, Listing.meet, Listing.members] using member

theorem meet_right {left : Facet} (omitted : field left = none) (member : entry ∈ (field right).getD []) :
    entry ∈ ((listing field (some left)).meet both (listing field (some right))).members := by
  cases spelled : field right with
  | none => simp [spelled] at member
  | some entries => simpa [listing, spelled, omitted, Listing.meet, Listing.members] using member

end

theorem spelled_of_mem {facet : Facet} (member : entry ∈ (field facet).getD []) : field facet ≠ none := by
  intro omitted
  rw [omitted] at member
  exact List.not_mem_nil member

theorem overlap_reached {field : PrefixScope → Option (List Text)} {left right : PrefixScope}
    {kept : Set Text} {p q path : Text}
    (more : ((listing field (some left)).meet keptPatterns (listing field (some right))).members ⊆ kept)
    (inLeft : p ∈ (field left).getD []) (inRight : q ∈ (field right).getD [])
    (dropped : Dropped p q → OverlapReached kept p q) (hitLeft : matchesPathPattern p (normalizeScopedPath path) = true)
    (hitRight : matchesPathPattern q (normalizeScopedPath path) = true) : Reaches kept path := by
  rw [meet_spelled (spelled_of_mem inLeft) (spelled_of_mem inRight)] at more
  have pair := @dropped_or_kept {entry | entry ∈ (field left).getD []}
    {entry | entry ∈ (field right).getD []} p q inLeft inRight
  rcases pair with lost | member | member
  · exact dropped lost path hitLeft hitRight
  · exact ⟨p, more member, hitLeft⟩
  · exact ⟨q, more member, hitRight⟩

theorem prefix_overlap_iff {left right : PrefixScope} :
    (∀ resource, (evaluatePrefixScope resourceType (some left) (some resource)).scopeMatched = true →
      (evaluatePrefixScope resourceType (some right) (some resource)).scopeMatched = true →
      (evaluatePrefixScope resourceType (intersectFacet intersectPrefixScope (some left) (some right))
        (some resource)).scopeMatched = true) ↔ PrefixOverlapKept left right := by
  have allow := allowOf_intersect (some left) (some right)
  have readOnly := readOnlyOf_intersect (some left) (some right)
  simp only [evaluatePrefixScope_iff, allow, readOnly]
  change (∀ resource : AccessResourceContext, _ → _ → _ ∧
    (Reaches (keptAllow left right) _ ∨ _ ∧ Reaches (keptReadOnly left right) _)) ↔ _
  constructor
  · intro complete
    have reading : ∀ path, (Reaches (allowOf (some left)) path ∨ Reaches (readOnlyOf (some left)) path) →
        (Reaches (allowOf (some right)) path ∨ Reaches (readOnlyOf (some right)) path) →
        Reaches (keptAllow left right ∪ keptReadOnly left right) path := by
      intro path admitsLeft admitsRight
      obtain ⟨_, reached⟩ := complete ⟨resourceType, path, .read⟩
        ⟨rfl, admitsLeft.imp_right fun reaches => ⟨rfl, reaches⟩⟩
        ⟨rfl, admitsRight.imp_right fun reaches => ⟨rfl, reaches⟩⟩
      exact admitted_union.mpr (reached.imp_right And.right)
    constructor
    · intro p inLeft q inRight _ path hitLeft hitRight
      obtain ⟨_, reached | ⟨reading, _⟩⟩ := complete ⟨resourceType, path, .write⟩
        ⟨rfl, .inl ⟨p, mem_allowOf.mpr inLeft, hitLeft⟩⟩
        ⟨rfl, .inl ⟨q, mem_allowOf.mpr inRight, hitRight⟩⟩
      · exact reached
      · cases reading
    · intro p inLeft q inRight _ path hitLeft hitRight
      exact reading path (.inr ⟨p, mem_readOnlyOf.mpr inLeft, hitLeft⟩) (.inr ⟨q, mem_readOnlyOf.mpr inRight, hitRight⟩)
    · intro _ _ p inLeft q inRight path hitLeft hitRight
      exact reading path (.inl ⟨p, mem_allowOf.mpr inLeft, hitLeft⟩) (.inr ⟨q, mem_readOnlyOf.mpr inRight, hitRight⟩)
    · intro _ _ p inLeft q inRight path hitLeft hitRight
      exact reading path (.inr ⟨p, mem_readOnlyOf.mpr inLeft, hitLeft⟩) (.inl ⟨q, mem_allowOf.mpr inRight, hitRight⟩)
  · intro kept resource admitsLeft admitsRight
    obtain ⟨sameType, admitsLeft⟩ := admitsLeft
    obtain ⟨_, admitsRight⟩ := admitsRight
    refine ⟨sameType, ?_⟩
    rcases admitsLeft with ⟨p, inLeft, hitLeft⟩ | ⟨reading, p, inLeft, hitLeft⟩
    · have inLeft := mem_allowOf.mp inLeft
      rcases admitsRight with ⟨q, inRight, hitRight⟩ | ⟨reading, q, inRight, hitRight⟩
      · have inRight := mem_allowOf.mp inRight
        exact .inl (overlap_reached subset_rfl inLeft inRight (kept.allow p inLeft q inRight) hitLeft hitRight)
      · have inRight := mem_readOnlyOf.mp inRight
        by_cases omittedLeft : left.readOnlyPrefixes = none
        · exact .inr ⟨reading, q, meet_right omittedLeft inRight, hitRight⟩
        · by_cases omittedRight : right.allowPrefixes = none
          · exact .inl ⟨p, meet_left omittedRight inLeft, hitLeft⟩
          · exact (admitted_union.mp (kept.allowReadOnly omittedLeft omittedRight p inLeft q inRight
              resource.id hitLeft hitRight)).imp_right fun reaches => ⟨reading, reaches⟩
    · have inLeft := mem_readOnlyOf.mp inLeft
      rcases admitsRight with ⟨q, inRight, hitRight⟩ | ⟨_, q, inRight, hitRight⟩
      · have inRight := mem_allowOf.mp inRight
        by_cases omittedLeft : left.allowPrefixes = none
        · exact .inl ⟨q, meet_right omittedLeft inRight, hitRight⟩
        · by_cases omittedRight : right.readOnlyPrefixes = none
          · exact .inr ⟨reading, p, meet_left omittedRight inLeft, hitLeft⟩
          · exact (admitted_union.mp (kept.readOnlyAllow omittedLeft omittedRight p inLeft q inRight
              resource.id hitLeft hitRight)).imp_right fun reaches => ⟨reading, reaches⟩
      · have inRight := mem_readOnlyOf.mp inRight
        have reached := overlap_reached Set.subset_union_right inLeft inRight
          (kept.readOnly p inLeft q inRight) hitLeft hitRight
        exact (admitted_union.mp reached).imp_right fun reaches => ⟨reading, reaches⟩

theorem mem_schemasOf {scope : EnvDbScope} : pattern ∈ schemasOf (some scope) ↔ pattern ∈ scope.schemas.getD [] :=
  mem_listing.symm

theorem mem_tablesOf {scope : EnvDbScope} : pattern ∈ tablesOf (some scope) ↔ pattern ∈ scope.tables.getD [] :=
  mem_listing.symm

theorem envDb_overlap_iff {left right : EnvDbScope} :
    (∀ resource, (evaluateEnvDbScope (some left) (some resource)).scopeMatched = true →
      (evaluateEnvDbScope (some right) (some resource)).scopeMatched = true →
      (evaluateEnvDbScope (intersectFacet intersectEnvDbScope (some left) (some right))
        (some resource)).scopeMatched = true) ↔ EnvDbOverlapKept left right := by
  have schemas := schemasOf_intersect (some left) (some right)
  have tables := tablesOf_intersect (some left) (some right)
  simp only [evaluateEnvDbScope_iff, schemas, tables]
  change (∀ resource : AccessResourceContext, _ → _ → _ ∧ _ ∧ KeptAdmit left right _) ↔ _
  constructor
  · intro complete
    have shared : ∀ identifier, Text.trim identifier ≠ [] →
        NamesAdmit (schemasOf (some left)) (tablesOf (some left)) identifier →
        NamesAdmit (schemasOf (some right)) (tablesOf (some right)) identifier → KeptAdmit left right identifier := by
      intro identifier nonempty admitsLeft admitsRight
      exact (complete ⟨.envdb, identifier, .read⟩ ⟨rfl, nonempty, admitsLeft⟩ ⟨rfl, nonempty, admitsRight⟩).2.2
    constructor
    · intro p inLeft q inRight _ identifier nonempty first second
      exact shared identifier nonempty (.inl ⟨p, mem_schemasOf.mpr inLeft, first⟩)
        (.inl ⟨q, mem_schemasOf.mpr inRight, second⟩)
    · intro p inLeft q inRight _ identifier nonempty first second
      exact shared identifier nonempty (.inr ⟨p, mem_tablesOf.mpr inLeft, first⟩)
        (.inr ⟨q, mem_tablesOf.mpr inRight, second⟩)
    · intro _ _ p inLeft q inRight identifier nonempty first second
      exact shared identifier nonempty (.inl ⟨p, mem_schemasOf.mpr inLeft, first⟩)
        (.inr ⟨q, mem_tablesOf.mpr inRight, second⟩)
    · intro _ _ p inLeft q inRight identifier nonempty first second
      exact shared identifier nonempty (.inr ⟨p, mem_tablesOf.mpr inLeft, first⟩)
        (.inl ⟨q, mem_schemasOf.mpr inRight, second⟩)
  · rintro kept ⟨type, identifier, action⟩ ⟨sameType, nonempty, admitsLeft⟩ ⟨_, _, admitsRight⟩
    refine ⟨sameType, nonempty, ?_⟩
    rcases admitsLeft with ⟨p, inLeft, first⟩ | ⟨p, inLeft, first⟩
    · have inLeft := mem_schemasOf.mp inLeft
      rcases admitsRight with ⟨q, inRight, second⟩ | ⟨q, inRight, second⟩
      · have inRight := mem_schemasOf.mp inRight
        by_cases same : p = q
        · have member : p ∈ keptSchemas left right := by
            rw [keptSchemas, meet_spelled (spelled_of_mem inLeft) (spelled_of_mem inRight)]
            exact .inl ⟨inLeft, same ▸ inRight⟩
          exact .inl ⟨p, member, first⟩
        · exact kept.schemas p inLeft q inRight same identifier nonempty first second
      · have inRight := mem_tablesOf.mp inRight
        by_cases omittedLeft : left.tables = none
        · exact .inr ⟨q, meet_right omittedLeft inRight, second⟩
        · by_cases omittedRight : right.schemas = none
          · exact .inl ⟨p, meet_left omittedRight inLeft, first⟩
          · exact kept.schemasTables omittedLeft omittedRight p inLeft q inRight identifier nonempty first second
    · have inLeft := mem_tablesOf.mp inLeft
      rcases admitsRight with ⟨q, inRight, second⟩ | ⟨q, inRight, second⟩
      · have inRight := mem_schemasOf.mp inRight
        by_cases omittedLeft : left.schemas = none
        · exact .inl ⟨q, meet_right omittedLeft inRight, second⟩
        · by_cases omittedRight : right.tables = none
          · exact .inr ⟨p, meet_left omittedRight inLeft, first⟩
          · exact kept.tablesSchemas omittedLeft omittedRight p inLeft q inRight identifier nonempty first second
      · have inRight := mem_tablesOf.mp inRight
        by_cases same : p = q
        · have member : p ∈ keptTables left right := by
            rw [keptTables, meet_spelled (spelled_of_mem inLeft) (spelled_of_mem inRight)]
            exact .inl ⟨inLeft, same ▸ inRight⟩
          exact .inr ⟨p, member, first⟩
        · exact kept.tables p inLeft q inRight same identifier nonempty first second

theorem keptNames_star (any : ['*'] ∈ left) {name : Text} (member : name ∈ right) : name ∈ keptNames left right :=
  .inr (.inl ⟨any, member⟩)

variable {mountId : Text}

theorem mem_mountsOf {scope : CloudFsScope} : mountId ∈ mountsOf (some scope) ↔ mountId ∈ scope.allowMountIds.getD [] :=
  mem_listing.symm

theorem mountsAdmit_keptNames (admitsLeft : MountsAdmit left mountId) (admitsRight : MountsAdmit right mountId) :
    MountsAdmit (keptNames left right) mountId := by
  rcases admitsLeft with anyLeft | inLeft
  · exact admitsRight.imp (keptNames_star anyLeft) (keptNames_star anyLeft)
  · rcases admitsRight with anyRight | inRight
    · by_cases anyLeft : ['*'] ∈ left
      · exact .inl (keptNames_star anyLeft anyRight)
      · exact .inr (.inr (.inr ⟨anyLeft, anyRight, inLeft⟩))
    · exact .inr (.inl ⟨inLeft, inRight⟩)

theorem cloudFs_overlap {left right : CloudFsScope}
    (admitsLeft : (evaluateCloudFsScope (some left) (some resource)).scopeMatched = true)
    (admitsRight : (evaluateCloudFsScope (some right) (some resource)).scopeMatched = true) :
    (evaluateCloudFsScope (intersectFacet intersectCloudFsScope (some left) (some right))
      (some resource)).scopeMatched = true := by
  rw [evaluateCloudFsScope_iff] at admitsLeft admitsRight
  rw [evaluateCloudFsScope_iff, mountsOf_intersect]
  obtain ⟨sameType, admitsLeft⟩ := admitsLeft
  obtain ⟨_, admitsRight⟩ := admitsRight
  refine ⟨sameType, ?_⟩
  have spelled : ∀ {scope : CloudFsScope},
      MountsAdmit (mountsOf (some scope)) resource.id → scope.allowMountIds ≠ none := by
    intro scope admits omitted
    simp [MountsAdmit, mountsOf, listing, omitted, Listing.members] at admits
  rw [meet_spelled (spelled admitsLeft) (spelled admitsRight)]
  apply mountsAdmit_keptNames
  · exact admitsLeft.imp mem_mountsOf.mp mem_mountsOf.mp
  · exact admitsRight.imp mem_mountsOf.mp mem_mountsOf.mp

def FacetKeepsOverlap {Facet : Type}
    (evaluate : Option Facet → Option AccessResourceContext → ScopeEvaluation)
    (intersect : Option Facet → Option Facet → Facet) (a b : Option Facet) : Prop :=
  ∀ left ∈ a, ∀ right ∈ b, ∀ resource, (evaluate (some left) (some resource)).scopeMatched = true →
    (evaluate (some right) (some resource)).scopeMatched = true →
      (evaluate (intersectFacet intersect (some left) (some right)) (some resource)).scopeMatched = true

theorem keepsOverlap_iff_facets {a b : AccessBindingScope} :
    KeepsOverlap a b ↔ FacetKeepsOverlap (evaluatePrefixScope .orgfs) intersectPrefixScope a.orgfs b.orgfs ∧
      FacetKeepsOverlap (evaluatePrefixScope .orgdocs) intersectPrefixScope a.orgdocs b.orgdocs ∧
      FacetKeepsOverlap evaluateEnvDbScope intersectEnvDbScope a.envdb b.envdb ∧
      FacetKeepsOverlap evaluateCloudFsScope intersectCloudFsScope a.cloudFs b.cloudFs := by
  constructor
  · intro keeps
    have each := fun resourceType resource =>
      keeps (readPermission resourceType) resourceType resource
        (permissionResourceType_readPermission resourceType)
    simp only [evaluateScope_eq (permissionResourceType_readPermission _)] at each
    refine ⟨?_, ?_, ?_, ?_⟩
    all_goals
      intro left declaredLeft right declaredRight resource
      rw [Option.mem_def] at declaredLeft declaredRight
    · have kept := each .orgfs resource
      simpa [AccessBindingScope.declares, evaluateFacet, intersectScopes, declaredLeft, declaredRight] using kept
    · have kept := each .orgdocs resource
      simpa [AccessBindingScope.declares, evaluateFacet, intersectScopes, declaredLeft, declaredRight] using kept
    · have kept := each .envdb resource
      simpa [AccessBindingScope.declares, evaluateFacet, intersectScopes, declaredLeft, declaredRight] using kept
    · have kept := each .cloudFs resource
      simpa [AccessBindingScope.declares, evaluateFacet, intersectScopes, declaredLeft, declaredRight] using kept
  · rintro ⟨orgfs, orgdocs, envdb, cloudFs⟩ permission resourceType resource concerns declaresLeft declaresRight
    rw [evaluateScope_eq concerns, evaluateScope_eq concerns, evaluateScope_eq concerns]
    cases resourceType
    all_goals
      obtain ⟨left, declaredLeft⟩ := Option.isSome_iff_exists.mp declaresLeft
      obtain ⟨right, declaredRight⟩ := Option.isSome_iff_exists.mp declaresRight
      simp only [evaluateFacet, intersectScopes, declaredLeft, declaredRight]
    · exact orgfs left declaredLeft right declaredRight resource
    · exact orgdocs left declaredLeft right declaredRight resource
    · exact envdb left declaredLeft right declaredRight resource
    · exact cloudFs left declaredLeft right declaredRight resource

/-- A merge admits what both of its scopes admit exactly when the pairs of entries that it
drops overlap only where it keeps others. -/
theorem keepsOverlap_iff (a b : AccessBindingScope) : KeepsOverlap a b ↔ OverlapKept a b := by
  rw [keepsOverlap_iff_facets]
  constructor
  · rintro ⟨orgfs, orgdocs, envdb, _⟩
    constructor
    · intro left declaredLeft right declaredRight
      exact prefix_overlap_iff.mp (orgfs left declaredLeft right declaredRight)
    · intro left declaredLeft right declaredRight
      exact prefix_overlap_iff.mp (orgdocs left declaredLeft right declaredRight)
    · intro left declaredLeft right declaredRight
      exact envDb_overlap_iff.mp (envdb left declaredLeft right declaredRight)
  · intro kept
    refine ⟨?_, ?_, ?_, ?_⟩
    · intro left declaredLeft right declaredRight
      exact prefix_overlap_iff.mpr (kept.orgfs left declaredLeft right declaredRight)
    · intro left declaredLeft right declaredRight
      exact prefix_overlap_iff.mpr (kept.orgdocs left declaredLeft right declaredRight)
    · intro left declaredLeft right declaredRight
      exact envDb_overlap_iff.mpr (kept.envdb left declaredLeft right declaredRight)
    · intro left _ right _ resource
      exact cloudFs_overlap

def wholeTree : AccessBindingScope where
  orgfs := some { allowPrefixes := some ["/".toList] }

def reportsOnly : AccessBindingScope where
  orgfs := some { allowPrefixes := some ["/reports".toList] }

theorem root_pattern_denies_overlap : ¬ KeepsOverlap wholeTree reportsOnly := by
  intro keeps
  have admitted := keeps "orgfs:read".toList .orgfs ⟨.orgfs, "/reports/q3.md".toList, .read⟩
    (by decide +kernel) rfl rfl (by decide +kernel) (by decide +kernel)
  exact absurd admitted (by decide +kernel)

end EveHorizon.Access
