import EveHorizon.Access.Narrowing
import EveHorizon.Access.Permissions
import Mathlib.Data.Fintype.EquivFin

/-!
# Delegated scopes

A workflow gives its jobs a token scope after it has asked the invoking actor for one
sample of every entry.
-/

namespace EveHorizon.Access

open List
open ScopeCheck (passes)
open Text (startsWith trim)
open RegExp (Atom Item accepts render)
open CloudFsScope (allowMountIds)

def AccessResourceAction.name : AccessResourceAction → Text
  | .read => "read".toList
  | .write => "write".toList
  | .admin => "admin".toList

def resourcePermission (resourceType : AccessResourceType) (action : AccessResourceAction) : Text :=
  resourceType.name ++ [':'] ++ action.name

theorem permissionResourceType_resourcePermission (resourceType : AccessResourceType) (action : AccessResourceAction) :
    permissionResourceType (resourcePermission resourceType action) = some resourceType := by
  cases resourceType <;> cases action <;> decide +kernel

/-- Whatever a token of these permissions and this scope admits, the actor's grants allow. -/
def DelegationSound (grants : List RawGrant) (permissions : List Text) (scope : AccessBindingScope) : Prop :=
  ∀ resource : AccessResourceContext, resourcePermission resource.type resource.action ∈ permissions →
    (evaluateScope (some scope) (resourcePermission resource.type resource.action)
      (some resource)).scopeMatched = true →
    (evaluatePermission (resourcePermission resource.type resource.action) grants (some resource)).allowed = true

def pathPatterns (facet : Option PrefixScope) (action : AccessResourceAction) : List Text :=
  (facet.bind PrefixScope.allowPrefixes).getD [] ++
    if action = .read then (facet.bind PrefixScope.readOnlyPrefixes).getD [] else []

def heldPatterns (facet : AccessBindingScope → Option PrefixScope)
    (resourceType : AccessResourceType) (grants : List RawGrant) (action : AccessResourceAction) :
    List Text :=
  (heldScopes grants (resourcePermission resourceType action)).flatMap fun scope =>
    pathPatterns (facet scope) action

def SampledFor (facet : Option PrefixScope) (action : AccessResourceAction) (pattern : Text) : Prop :=
  (action = .write ∧ pattern ∈ (facet.bind PrefixScope.allowPrefixes).getD []) ∨
    (action = .read ∧ pattern ∈ (facet.bind PrefixScope.readOnlyPrefixes).getD [])

/-- The sample of a pattern speaks for all of its paths when it is not skipped, has no
outer blanks and is matched only by patterns without a star. -/
structure Telling (held : List Text) (pattern : Text) : Prop where
  asked : pathPatternBase pattern ≠ ['*']
  unblanked : trim (pathPatternBase pattern) = pathPatternBase pattern
  plainly : ∀ candidate ∈ held, matchesPathPattern candidate (normalizeScopedPath (pathPatternBase pattern)) = true →
      '*' ∉ candidate

structure PrefixBacked (facet : AccessBindingScope → Option PrefixScope)
    (resourceType : AccessResourceType) (grants : List RawGrant) (permissions : List Text)
    (scope : AccessBindingScope) : Prop where
  backed : ∀ action, resourcePermission resourceType action ∈ permissions →
    ∀ pattern ∈ pathPatterns (facet scope) action, (SampledFor (facet scope) action pattern ∧
          Telling (heldPatterns facet resourceType grants action) pattern) ∨
        PatternWithin pattern (heldPatterns facet resourceType grants action)

def ActorAdmits (grants : List RawGrant) (action : AccessResourceAction) (identifier : Text) : Prop :=
  ∃ scope ∈ heldScopes grants (resourcePermission .envdb action), EnvDbAdmits scope.envdb identifier

structure SchemaName (schema : Text) : Prop where
  starless : '*' ∉ schema
  dotless : '.' ∉ schema
  unblanked : trim schema = schema

structure TableName (table : Text) : Prop where
  starless : '*' ∉ table
  unblanked : trim table = table
  qualified : (splitIdentifier table).2 ≠ []
  joined : (splitIdentifier table).1 ++ ['.'] ++ (splitIdentifier table).2 = table

structure EnvDbBacked (grants : List RawGrant) (permissions : List Text) (scope : AccessBindingScope) : Prop where
  schemas : ∀ action, resourcePermission .envdb action ∈ permissions →
    ∀ schema ∈ (scope.envdb.bind EnvDbScope.schemas).getD [], (action = .read ∧ SchemaName schema) ∨
        ∀ identifier, trim identifier ≠ [] → schemaAdmits schema identifier = true →
          ActorAdmits grants action identifier
  tables : ∀ action, resourcePermission .envdb action ∈ permissions →
    ∀ table ∈ (scope.envdb.bind EnvDbScope.tables).getD [], (action = .read ∧ TableName table) ∨
        ∀ identifier, trim identifier ≠ [] → tableAdmits table identifier = true →
          ActorAdmits grants action identifier

def heldMounts (grants : List RawGrant) (action : AccessResourceAction) : List Text :=
  (heldScopes grants (resourcePermission .cloudFs action)).flatMap fun scope =>
    (scope.cloudFs.bind allowMountIds).getD []

def CloudFsBacked (grants : List RawGrant) (permissions : List Text) (scope : AccessBindingScope) : Prop :=
  ∀ action, resourcePermission .cloudFs action ∈ permissions →
    ∀ mountId ∈ (scope.cloudFs.bind allowMountIds).getD [],
      (action = .read ∧ mountId ≠ ['*']) ∨ mountId ∈ heldMounts grants action ∨ ['*'] ∈ heldMounts grants action

structure ScopeBacked (grants : List RawGrant) (permissions : List Text) (scope : AccessBindingScope) : Prop where
  orgfs : PrefixBacked AccessBindingScope.orgfs .orgfs grants permissions scope
  orgdocs : PrefixBacked AccessBindingScope.orgdocs .orgdocs grants permissions scope
  envdb : EnvDbBacked grants permissions scope
  cloudFs : CloudFsBacked grants permissions scope

variable {pattern value : Text}

theorem head?_wildcard {char : Char} (plain : char ≠ '*')
    (accepted : accepts (wildcardItems (char :: pattern)) value = true) :
    ∃ rest, value = char :: rest ∧ accepts (wildcardItems pattern) rest = true := by
  have items : wildcardItems (char :: pattern) = .one (.char char) :: wildcardItems pattern := by
    rw [wildcardItems]
    · rintro _ star
      exact absurd star plain
    · exact plain
  rw [items] at accepted
  cases value with
  | nil => cases accepted
  | cons found rest =>
    simp only [accepts, Atom.accepts, Bool.and_eq_true, beq_iff_eq] at accepted
    exact ⟨rest, by rw [accepted.1], accepted.2⟩

variable {leading : Text}

theorem prefix_of_accepts (plain : '*' ∉ leading) (within : leading <+: pattern)
    (accepted : accepts (wildcardItems pattern) value = true) : leading <+: value := by
  induction leading generalizing pattern value with
  | nil => exact nil_prefix
  | cons char leading ih =>
    obtain ⟨rest, rfl⟩ := within
    rw [cons_append] at accepted
    have unstarred : char ≠ '*' := fun star => plain (star ▸ mem_cons_self)
    obtain ⟨tail, rfl, onward⟩ := head?_wildcard unstarred accepted
    rw [cons_prefix_cons]
    exact ⟨rfl, ih (fun member => plain (mem_cons_of_mem _ member)) (prefix_append _ _) onward⟩

theorem prefix_of_matches (plain : '*' ∉ leading) (within : leading <+: normalizeScopedPath pattern)
    (matched : matchesPathPattern pattern value = true) : leading <+: normalizeScopedPath value := by
  unfold matchesPathPattern at matched
  simp only at matched
  split at matched
  · rw [wildcardPathToRegExpSource_eq_render, RegExp.test_render (wildcardItems_renderable _)] at matched
    exact prefix_of_accepts plain within matched
  · rw [Bool.or_eq_true, beq_iff_eq] at matched
    rcases matched with same | longer
    · exact same ▸ within
    · have extended := isPrefixOf_iff_prefix.mp longer
      refine within.trans (List.IsPrefix.trans ?_ extended)
      split
      · exact prefix_refl _
      · exact prefix_append _ _

theorem pathPatternBase_append (pattern : Text) :
    pathPatternBase pattern = ['/'] ∨ ((pathPatternBase pattern).getLast? ≠ some '/' ∧ pathPatternBase pattern ≠ [] ∧
        ∃ ending, trim pattern = pathPatternBase pattern ++ ending ∧ Text.StartsWithOrEmpty '/' ending) := by
  unfold pathPatternBase
  simp only
  split
  · exact .inl rfl
  · split
    · exact .inl rfl
    · next named nonempty =>
        right
        obtain ⟨deep, first, isDeep⟩ := Text.stripSuffix_append ['/', '*', '*'] (trim pattern)
        obtain ⟨level, second, isLevel⟩ := Text.stripSuffix_append ['/', '*']
          (Text.stripSuffix ['/', '*', '*'] (trim pattern))
        obtain ⟨slashes, third, isSlashes⟩ := Text.rdropWhile_append '/'
          (Text.stripSuffix ['/', '*'] (Text.stripSuffix ['/', '*', '*'] (trim pattern)))
        rw [List.isEmpty_iff] at nonempty
        refine ⟨?_, nonempty, slashes ++ level ++ deep, ?_, ?_⟩
        · rw [getLast?_eq_getLast_of_ne_nil nonempty, ne_eq, Option.some.injEq]
          have last := rdropWhile_last_not (· == '/') _ nonempty
          simpa using last
        · rw [← append_assoc, ← append_assoc, ← third, ← second, ← first]
        · apply Text.StartsWithOrEmpty.append
          · apply isSlashes.append
            rcases isLevel with rfl | rfl
            · exact .inl rfl
            · exact .inr rfl
          · rcases isDeep with rfl | rfl
            · exact .inl rfl
            · exact .inr rfl

def rootedPath (path : Text) : Text :=
  if startsWith ['/'] path then path else '/' :: path

theorem rootedPath_append (nonempty : leading ≠ []) (rest : Text) :
    rootedPath (leading ++ rest) = rootedPath leading ++ rest := by
  cases leading with
  | nil => exact absurd rfl nonempty
  | cons head leading =>
    unfold rootedPath
    by_cases rooted : head = '/'
    · simp [startsWith, List.isPrefixOf, rooted]
    · simp [startsWith, List.isPrefixOf, Ne.symm rooted]

variable {path : Text}

theorem normalize_of_trim {trimmed : Text} (found : trim path = trimmed) (nonempty : trimmed ≠ []) :
    normalizeScopedPath path = Text.squeeze '/' (rootedPath trimmed) := by
  have filled : trimmed.isEmpty = false := by simpa using nonempty
  simp [normalizeScopedPath, found, filled, rootedPath]

theorem getLast?_rootedPath (nonempty : path ≠ []) : (rootedPath path).getLast? = path.getLast? := by
  unfold rootedPath
  split
  · rfl
  · exact getLast?_cons_of_ne_nil nonempty

theorem normalize_base (unblanked : trim (pathPatternBase pattern) = pathPatternBase pattern) :
    pathPatternBase pattern = ['/'] ∨ ∃ ending, normalizeScopedPath pattern =
          normalizeScopedPath (pathPatternBase pattern) ++ ending ∧ Text.StartsWithOrEmpty '/' ending := by
  rcases pathPatternBase_append pattern with root | ⟨last, nonempty, ending, whole, starts⟩
  · exact .inl root
  · right
    refine ⟨Text.squeeze '/' ending, ?_, ?_⟩
    · have longer : pathPatternBase pattern ++ ending ≠ [] := by simp [nonempty]
      rw [normalize_of_trim whole longer, normalize_of_trim unblanked nonempty,
        rootedPath_append nonempty, Text.squeeze_append]
      rw [getLast?_rootedPath nonempty]
      exact last
    · rcases starts with rfl | first
      · exact .inl rfl
      · exact .inr (by rw [Text.head?_squeeze, first])

theorem starless_normalize (starless : '*' ∉ pattern) : '*' ∉ normalizeScopedPath pattern := by
  by_cases empty : trim pattern = []
  · simp [normalizeScopedPath, empty]
  · rw [normalize_of_trim rfl empty]
    intro member
    have rooted := (Text.squeeze_sublist _).mem member
    have inTrimmed : '*' ∈ trim pattern := by
      unfold rootedPath at rooted
      split at rooted
      · exact rooted
      · simpa using rooted
    exact starless ((Text.trim_sublist pattern).mem inTrimmed)

def extendedPath (path : Text) : Text :=
  if Text.endsWith ['/'] path then path else path ++ ['/']

theorem prefix_extendedPath (path : Text) : path <+: extendedPath path := by
  unfold extendedPath
  split
  · exact prefix_refl _
  · exact prefix_append _ _

theorem starless_extendedPath (starless : '*' ∉ path) : '*' ∉ extendedPath path := by
  unfold extendedPath
  split
  · exact starless
  · simp [starless]

theorem extendedPath_prefix_of_slash (path rest : Text) : extendedPath path <+: path ++ '/' :: rest := by
  unfold extendedPath
  split
  · exact prefix_append _ _
  · exact ⟨rest, by simp⟩

theorem matchesPathPattern_plain (starless : '*' ∉ normalizeScopedPath pattern) :
    matchesPathPattern pattern value = true ↔ normalizeScopedPath value = normalizeScopedPath pattern ∨
        extendedPath (normalizeScopedPath pattern) <+: normalizeScopedPath value := by
  simp [matchesPathPattern, startsWith, extendedPath, starless]

theorem root_prefix_normalize (path : Text) : ['/'] <+: normalizeScopedPath path := by
  obtain ⟨rest, rooted⟩ := head?_eq_some_iff.mp (normalPath_normalize path).rooted
  exact ⟨rest, rooted.symm⟩

variable {candidate : Text}

theorem extendedPath_of_root
    (sample : ['/'] = normalizeScopedPath candidate ∨ extendedPath (normalizeScopedPath candidate) <+: ['/']) :
    extendedPath (normalizeScopedPath candidate) = ['/'] := by
  rcases sample with same | within
  · rw [← same]
    decide
  · have longer := (root_prefix_normalize candidate).trans (prefix_extendedPath (normalizeScopedPath candidate))
    exact within.eq_of_length (Nat.le_antisymm within.length_le longer.length_le)

theorem covers_of_sample (unblanked : trim (pathPatternBase pattern) = pathPatternBase pattern)
    (starless : '*' ∉ candidate)
    (sample : matchesPathPattern candidate (normalizeScopedPath (pathPatternBase pattern)) = true)
    (matched : matchesPathPattern pattern path = true) : matchesPathPattern candidate path = true := by
  have plain := starless_normalize starless
  rw [matchesPathPattern_plain plain, (normalPath_normalize _).normalize] at sample
  rw [matchesPathPattern_plain plain]
  rcases normalize_base unblanked with root | ⟨ending, whole, starts⟩
  · rw [root] at sample
    right
    rw [extendedPath_of_root sample]
    exact root_prefix_normalize path
  · rcases sample with same | below
    · rw [same] at whole
      rcases starts with rfl | first
      · -- the pattern is the plain pattern itself
        rw [append_nil] at whole
        rwa [matchesPathPattern_plain (whole ▸ plain), whole] at matched
      · right
        obtain ⟨rest, rfl⟩ := head?_eq_some_iff.mp first
        exact prefix_of_matches (starless_extendedPath plain)
          (whole ▸ extendedPath_prefix_of_slash _ rest) matched
    · right
      exact prefix_of_matches (starless_extendedPath plain)
        (whole ▸ below.trans (prefix_append _ _)) matched

theorem accepts_characters (name value : Text) :
    accepts (name.map fun char => .one (.char char)) value = true ↔ value = name := by
  induction name generalizing value with
  | nil => simp [accepts]
  | cons char name ih =>
    cases value with
    | nil => simp [accepts]
    | cons found value => simp [accepts, Atom.accepts, ih]

theorem matchesIdentifierPattern_plain (starless : '*' ∉ pattern) :
    matchesIdentifierPattern pattern value = true ↔ value = pattern := by
  have other : pattern ≠ ['*'] := by
    rintro rfl
    exact starless mem_cons_self
  have source : escapeRegExp pattern = render (pattern.map fun char => .one (.char char)) := by
    simp [escapeRegExp, RegExp.escape, render, Item.render, Atom.render, flatMap_map]
  have renderable : ∀ item ∈ pattern.map fun char => Item.one (.char char),
      item.atom.Renderable := by
    simp [Item.atom, Atom.Renderable]
  rw [matchesIdentifierPattern, if_neg other, splitOn_eq_singleton starless]
  simp only [map_cons, map_nil, intercalate_singleton, source, RegExp.test_render renderable]
  exact accepts_characters pattern value

theorem dot_not_mem_schema (identifier : Text) : '.' ∉ (splitIdentifier identifier).1 := by
  unfold splitIdentifier
  cases parts : identifier.splitOn '.' with
  | nil => exact not_mem_nil
  | cons schemaPart tableParts =>
    intro dot
    exact Text.separator_not_mem_part (parts ▸ mem_cons_self) ((Text.trim_sublist schemaPart).mem dot)

theorem splitIdentifier_schema {schema : Text} (name : SchemaName schema) : splitIdentifier schema = (schema, []) := by
  rw [splitIdentifier, splitOn_eq_singleton name.dotless]
  simp only [name.unblanked]
  rfl

section

variable {grants : List RawGrant} {permissions : List Text} {scope : AccessBindingScope}
variable {action : AccessResourceAction} {identifier : Text}

theorem actorAdmits_of_schema {schema : Text} (name : SchemaName schema)
    (sample : ActorAdmits grants action schema) (admits : schemaAdmits schema identifier = true) :
    ActorAdmits grants action identifier := by
  have same := (matchesIdentifierPattern_plain name.starless).mp admits
  obtain ⟨held, member, admitted⟩ := sample
  refine ⟨held, member, ?_⟩
  rcases admitted with ⟨pattern, listed, covers⟩ | ⟨pattern, listed, covers⟩
  · refine .inl ⟨pattern, listed, ?_⟩
    rw [schemaAdmits, name.unblanked, splitIdentifier_schema name] at covers
    rw [schemaAdmits, same]
    exact covers
  · rw [tableAdmits, name.unblanked, splitIdentifier_schema name] at covers
    cases covers

theorem envDbAdmits_congr {facet : Option EnvDbScope} {other : Text}
    (same : splitIdentifier (trim other) = splitIdentifier (trim identifier))
    (admits : EnvDbAdmits facet other) : EnvDbAdmits facet identifier := by
  unfold EnvDbAdmits schemaAdmits tableAdmits at admits ⊢
  rw [same] at admits
  exact admits

theorem actorAdmits_of_table {table : Text} (name : TableName table)
    (sample : ActorAdmits grants action table) (admits : tableAdmits table identifier = true) :
    ActorAdmits grants action identifier := by
  obtain ⟨held, member, admitted⟩ := sample
  refine ⟨held, member, envDbAdmits_congr ?_ admitted⟩
  rw [tableAdmits, Bool.and_eq_true] at admits
  have same := (matchesIdentifierPattern_plain name.starless).mp admits.2
  rw [name.unblanked]
  have joined := name.joined.trans same.symm
  rw [append_assoc, append_assoc, singleton_append, singleton_append] at joined
  have parts := congrArg (List.splitOn '.') joined
  rw [splitOn_append_cons_self_of_not_mem (dot_not_mem_schema _),
    splitOn_append_cons_self_of_not_mem (dot_not_mem_schema _)] at parts
  have schema := (List.cons.inj parts).1
  rw [schema] at joined
  exact Prod.ext schema (List.cons.inj (append_cancel_left joined)).2

def FacetSound (grants : List RawGrant) (permissions : List Text) (scope : AccessBindingScope)
    (resourceType : AccessResourceType) : Prop :=
  ∀ id action, resourcePermission resourceType action ∈ permissions →
    (evaluateFacet scope resourceType (some ⟨resourceType, id, action⟩)).scopeMatched = true →
    ∃ held ∈ heldScopes grants (resourcePermission resourceType action),
      (evaluateFacet held resourceType (some ⟨resourceType, id, action⟩)).scopeMatched = true

theorem delegationSound_iff_facets :
    DelegationSound grants permissions scope ↔ ∀ resourceType, FacetSound grants permissions scope resourceType := by
  constructor
  · intro sound resourceType id action granted admitted
    have concerns := permissionResourceType_resourcePermission resourceType action
    have allowed := sound ⟨resourceType, id, action⟩ granted (by rw [evaluateScope_eq concerns]; exact admitted)
    exact (evaluatePermission_allowed_iff concerns).mp allowed
  · rintro sound ⟨resourceType, id, action⟩ granted admitted
    have concerns := permissionResourceType_resourcePermission resourceType action
    rw [evaluateScope_eq concerns] at admitted
    exact (evaluatePermission_allowed_iff concerns).mpr (sound resourceType id action granted admitted)

variable {resourceType : AccessResourceType} {id : Text}

theorem sample_allowed
    (passes : passes ⟨resourcePermission resourceType action, ⟨resourceType, id, action⟩⟩ grants = true)
    (asked : id ≠ ['*']) :
    ∃ held ∈ heldScopes grants (resourcePermission resourceType action),
      (evaluateFacet held resourceType (some ⟨resourceType, id, action⟩)).scopeMatched = true := by
  rw [ScopeCheck.passes, Bool.or_eq_true, beq_iff_eq] at passes
  rcases passes with star | allowed
  · exact absurd star asked
  · exact (evaluatePermission_allowed_iff (permissionResourceType_resourcePermission resourceType action)).mp allowed

variable {facet : Option PrefixScope}

theorem covers_pathPatterns {path : Text} :
    Covers (pathPatterns facet action) path ↔ Covers ((facet.bind PrefixScope.allowPrefixes).getD []) path ∨
        (action = .read ∧ Covers ((facet.bind PrefixScope.readOnlyPrefixes).getD []) path) := by
  unfold Covers pathPatterns
  by_cases reading : action = .read
  · simp [reading, or_and_right, exists_or]
  · simp [reading]

theorem prefixScope_admits :
    (evaluatePrefixScope resourceType facet (some ⟨resourceType, id, action⟩)).scopeMatched = true ↔
      Covers (pathPatterns facet action) (normalizeScopedPath id) := by
  rw [evaluatePrefixScope_matched, covers_pathPatterns]
  simp

section

variable {facet : AccessBindingScope → Option PrefixScope} {resourceType : AccessResourceType}

theorem covers_heldPatterns {path : Text} : Covers (heldPatterns facet resourceType grants action) path ↔
      ∃ held ∈ heldScopes grants (resourcePermission resourceType action),
        Covers (pathPatterns (facet held) action) path := by
  unfold Covers heldPatterns
  simp only [mem_flatMap]
  constructor
  · rintro ⟨pattern, ⟨held, member, listed⟩, covers⟩
    exact ⟨held, member, pattern, listed, covers⟩
  · rintro ⟨held, member, pattern, listed, covers⟩
    exact ⟨pattern, ⟨held, member, listed⟩, covers⟩

variable (evaluates : ∀ scope resource,
  evaluateFacet scope resourceType resource = evaluatePrefixScope resourceType (facet scope) resource)

include evaluates

theorem prefix_sound_iff :
    FacetSound grants permissions scope resourceType ↔ ∀ action, resourcePermission resourceType action ∈ permissions →
        ∀ pattern ∈ pathPatterns (facet scope) action,
          PatternWithin pattern (heldPatterns facet resourceType grants action) := by
  simp only [FacetSound, evaluates, prefixScope_admits, ← covers_heldPatterns]
  constructor
  · intro sound action granted pattern listed path covers
    exact sound path action granted ⟨pattern, listed, covers⟩
  · rintro within id action granted ⟨pattern, listed, covers⟩
    exact within action granted pattern listed id covers

theorem within_of_sample {pattern : Text} (passes : passes ⟨resourcePermission resourceType action,
      ⟨resourceType, pathPatternBase pattern, action⟩⟩ grants = true)
    (telling : Telling (heldPatterns facet resourceType grants action) pattern) :
    PatternWithin pattern (heldPatterns facet resourceType grants action) := by
  have sample := sample_allowed passes telling.asked
  simp only [evaluates, prefixScope_admits, ← covers_heldPatterns] at sample
  obtain ⟨candidate, listed, covers⟩ := sample
  intro path matched
  exact ⟨candidate, listed, covers_of_sample telling.unblanked (telling.plainly candidate listed covers) covers matched⟩

theorem prefix_sound_iff_backed (asks : ∀ action pattern, SampledFor (facet scope) action pattern →
      passes ⟨resourcePermission resourceType action, ⟨resourceType, pathPatternBase pattern, action⟩⟩ grants = true) :
    FacetSound grants permissions scope resourceType ↔ PrefixBacked facet resourceType grants permissions scope := by
  rw [prefix_sound_iff evaluates]
  constructor
  · intro within
    exact ⟨fun action granted pattern listed => .inr (within action granted pattern listed)⟩
  · intro backed action granted pattern listed
    rcases backed.backed action granted pattern listed with ⟨sampled, telling⟩ | within
    · exact within_of_sample evaluates (asks action pattern sampled) telling
    · exact within

end

theorem envDb_admits {facet : Option EnvDbScope} :
    (evaluateEnvDbScope facet (some ⟨.envdb, identifier, action⟩)).scopeMatched = true ↔
      trim identifier ≠ [] ∧ EnvDbAdmits facet identifier := by
  rw [evaluateEnvDbScope_matched]
  simp

theorem envDb_sound_iff : FacetSound grants permissions scope .envdb ↔
      ∀ action, resourcePermission .envdb action ∈ permissions → ∀ identifier,
        trim identifier ≠ [] → EnvDbAdmits scope.envdb identifier → ActorAdmits grants action identifier := by
  simp only [FacetSound, evaluateFacet, envDb_admits, ActorAdmits]
  constructor
  · intro sound action granted identifier nonempty admits
    obtain ⟨held, member, -, admitted⟩ := sound identifier action granted ⟨nonempty, admits⟩
    exact ⟨held, member, admitted⟩
  · rintro sound identifier action granted ⟨nonempty, admits⟩
    obtain ⟨held, member, admitted⟩ := sound action granted identifier nonempty admits
    exact ⟨held, member, nonempty, admitted⟩

theorem actorAdmits_of_passes {entry : Text}
    (passes : passes ⟨resourcePermission .envdb action, ⟨.envdb, entry, action⟩⟩
      grants = true) (starless : '*' ∉ entry) : ActorAdmits grants action entry := by
  have asked : entry ≠ ['*'] := by
    rintro rfl
    exact starless mem_cons_self
  have sample := sample_allowed passes asked
  simp only [evaluateFacet, envDb_admits] at sample
  obtain ⟨held, member, -, admits⟩ := sample
  exact ⟨held, member, admits⟩

theorem envDb_sound_iff_backed (schemasPass : ∀ schema ∈ (scope.envdb.bind EnvDbScope.schemas).getD [],
      passes ⟨resourcePermission .envdb .read, ⟨.envdb, schema, .read⟩⟩ grants = true)
    (tablesPass : ∀ table ∈ (scope.envdb.bind EnvDbScope.tables).getD [],
      passes ⟨resourcePermission .envdb .read, ⟨.envdb, table, .read⟩⟩ grants = true) :
    FacetSound grants permissions scope .envdb ↔ EnvDbBacked grants permissions scope := by
  rw [envDb_sound_iff]
  constructor
  · intro sound
    constructor
    · intro action granted schema listed
      exact .inr fun identifier nonempty admits =>
        sound action granted identifier nonempty (.inl ⟨schema, listed, admits⟩)
    · intro action granted table listed
      exact .inr fun identifier nonempty admits =>
        sound action granted identifier nonempty (.inr ⟨table, listed, admits⟩)
  · intro backed action granted identifier nonempty admits
    rcases admits with ⟨schema, listed, admits⟩ | ⟨table, listed, admits⟩
    · rcases backed.schemas action granted schema listed with ⟨rfl, name⟩ | within
      · exact actorAdmits_of_schema name (actorAdmits_of_passes (schemasPass schema listed) name.starless) admits
      · exact within identifier nonempty admits
    · rcases backed.tables action granted table listed with ⟨rfl, name⟩ | within
      · exact actorAdmits_of_table name (actorAdmits_of_passes (tablesPass table listed) name.starless) admits
      · exact within identifier nonempty admits

theorem mem_heldMounts {mountId : Text} :
    mountId ∈ heldMounts grants action ↔ ∃ held ∈ heldScopes grants (resourcePermission .cloudFs action),
        mountId ∈ (held.cloudFs.bind allowMountIds).getD [] := by
  simp only [heldMounts, mem_flatMap]

theorem cloudFs_sound_iff :
    FacetSound grants permissions scope .cloudFs ↔ ∀ action, resourcePermission .cloudFs action ∈ permissions → ∀ id,
        (['*'] ∈ (scope.cloudFs.bind allowMountIds).getD [] ∨ id ∈ (scope.cloudFs.bind allowMountIds).getD []) →
        ['*'] ∈ heldMounts grants action ∨ id ∈ heldMounts grants action := by
  simp only [FacetSound, evaluateFacet, evaluateCloudFsScope_matched, true_and, mem_heldMounts,
    ← exists_or, ← and_or_left]
  constructor
  · intro sound action granted id admits
    exact sound id action granted admits
  · intro sound id action granted admits
    exact sound action granted id admits

theorem cloudFs_sound_iff_backed (mountsPass : ∀ mountId ∈ (scope.cloudFs.bind allowMountIds).getD [],
      passes ⟨resourcePermission .cloudFs .read, ⟨.cloudFs, mountId, .read⟩⟩ grants = true) :
    FacetSound grants permissions scope .cloudFs ↔ CloudFsBacked grants permissions scope := by
  rw [cloudFs_sound_iff]
  constructor
  · intro sound action granted mountId listed
    right
    by_cases star : mountId = ['*']
    · subst star
      obtain ⟨fresh, missing⟩ := Infinite.exists_notMem_finset (heldMounts grants action).toFinset
      rcases sound action granted fresh (.inl listed) with any | held
      · exact .inl any
      · exact absurd (mem_toFinset.mpr held) missing
    · exact (sound action granted mountId (.inr listed)).symm
  · intro backed action granted id admits
    have named : ∀ mountId ∈ (scope.cloudFs.bind allowMountIds).getD [],
        ['*'] ∈ heldMounts grants action ∨ mountId ∈ heldMounts grants action := by
      intro mountId listed
      rcases backed action granted mountId listed with ⟨rfl, asked⟩ | held | any
      · have sample := sample_allowed (mountsPass mountId listed) asked
        simp only [evaluateFacet, evaluateCloudFsScope_matched, true_and] at sample
        obtain ⟨held, member, any | listed⟩ := sample
        · exact .inl (mem_heldMounts.mpr ⟨held, member, any⟩)
        · exact .inr (mem_heldMounts.mpr ⟨held, member, listed⟩)
      · exact .inr held
      · exact .inl any
    rcases admits with star | listed
    · exact .inl (by simpa using named ['*'] star)
    · exact named id listed

structure Asked (grants : List RawGrant) (scope : AccessBindingScope) : Prop where
  orgfs : ∀ action pattern, SampledFor scope.orgfs action pattern →
    passes ⟨resourcePermission .orgfs action, ⟨.orgfs, pathPatternBase pattern, action⟩⟩
      grants = true
  orgdocs : ∀ action pattern, SampledFor scope.orgdocs action pattern →
    passes ⟨resourcePermission .orgdocs action, ⟨.orgdocs, pathPatternBase pattern, action⟩⟩ grants = true
  mounts : ∀ mountId ∈ (scope.cloudFs.bind allowMountIds).getD [],
    passes ⟨resourcePermission .cloudFs .read, ⟨.cloudFs, mountId, .read⟩⟩ grants = true
  schemas : ∀ schema ∈ (scope.envdb.bind EnvDbScope.schemas).getD [],
    passes ⟨resourcePermission .envdb .read, ⟨.envdb, schema, .read⟩⟩ grants = true
  tables : ∀ table ∈ (scope.envdb.bind EnvDbScope.tables).getD [],
    passes ⟨resourcePermission .envdb .read, ⟨.envdb, table, .read⟩⟩ grants = true

theorem asked_of_accepted {context : Text}
    (accepted : assertActorCanUseScope (some grants) (some scope) context = .ok ()) : Asked grants scope := by
  rw [assertActorCanUseScope_accepts] at accepted
  simp only [scopeChecks, forall_mem_append, forall_mem_map] at accepted
  obtain ⟨⟨⟨⟨⟨⟨orgfsAllow, orgfsReadOnly⟩, orgdocsAllow⟩, orgdocsReadOnly⟩, mounts⟩, schemas⟩, tables⟩ := accepted
  refine ⟨?_, ?_, mounts, schemas, tables⟩
  · rintro action pattern (⟨rfl, listed⟩ | ⟨rfl, listed⟩)
    · exact orgfsAllow pattern listed
    · exact orgfsReadOnly pattern listed
  · rintro action pattern (⟨rfl, listed⟩ | ⟨rfl, listed⟩)
    · exact orgdocsAllow pattern listed
    · exact orgdocsReadOnly pattern listed

/-- For a scope that the check accepts, the token reaches nothing beyond the actor exactly
when every entry is told by its sample or lies within what the actor holds. -/
theorem accepted_scope_sound_iff (context : Text)
    (accepted : assertActorCanUseScope (some grants) (some scope) context = .ok ()) :
    DelegationSound grants permissions scope ↔ ScopeBacked grants permissions scope := by
  have asked := asked_of_accepted accepted
  have orgfs : FacetSound grants permissions scope .orgfs ↔
      PrefixBacked AccessBindingScope.orgfs .orgfs grants permissions scope :=
    prefix_sound_iff_backed (fun _ _ => rfl) asked.orgfs
  have orgdocs : FacetSound grants permissions scope .orgdocs ↔
      PrefixBacked AccessBindingScope.orgdocs .orgdocs grants permissions scope :=
    prefix_sound_iff_backed (fun _ _ => rfl) asked.orgdocs
  have envdb : FacetSound grants permissions scope .envdb ↔ EnvDbBacked grants permissions scope :=
    envDb_sound_iff_backed asked.schemas asked.tables
  have cloudFs : FacetSound grants permissions scope .cloudFs ↔ CloudFsBacked grants permissions scope :=
    cloudFs_sound_iff_backed asked.mounts
  rw [delegationSound_iff_facets]
  constructor
  · intro sound
    exact ⟨orgfs.mp (sound .orgfs), orgdocs.mp (sound .orgdocs), envdb.mp (sound .envdb), cloudFs.mp (sound .cloudFs)⟩
  · intro backed resourceType
    cases resourceType with
    | orgfs => exact orgfs.mpr backed.orgfs
    | orgdocs => exact orgdocs.mpr backed.orgdocs
    | envdb => exact envdb.mpr backed.envdb
    | cloudFs => exact cloudFs.mpr backed.cloudFs

end

def directoryGrant (pattern : String) : RawGrant where
  source := "binding".toList
  permissions := ["orgfs:read".toList, "orgfs:write".toList]
  scopeJson := some (some { orgfs := some { allowPrefixes := some [pattern.toList] } })

theorem accepted_directory_sound : DelegationSound [directoryGrant "/data"] ["orgfs:write".toList] anyDepth := by
  rw [accepted_scope_sound_iff [] (by decide +kernel)]
  constructor
  · constructor
    intro action granted pattern listed
    cases action with
    | write =>
      have sole : pattern = "/data/**".toList := by simpa [pathPatterns, anyDepth] using listed
      subst sole
      refine .inl ⟨.inl ⟨rfl, listed⟩, by decide +kernel, by decide +kernel, ?_⟩
      have held : heldPatterns AccessBindingScope.orgfs .orgfs [directoryGrant "/data"] .write =
          ["/data".toList] := by decide +kernel
      rw [held]
      intro candidate member _
      rw [mem_singleton.mp member]
      decide +kernel
    | read | admin => exact absurd granted (by decide +kernel)
  · constructor
    intro action granted pattern listed
    simp [pathPatterns, anyDepth] at listed
  · constructor
    · intro action granted schema listed
      cases listed
    · intro action granted table listed
      cases listed
  · intro action granted mountId listed
    cases listed

/-- The glob of the actor matches the sample and not what lies below it. -/
theorem accepted_scope_exceeds_actor :
    assertActorCanUseScope (some [directoryGrant "/data*"]) (some anyDepth) [] = .ok () ∧
      assertActorCanGrantPermissions (some [directoryGrant "/data*"]) (some ["orgfs:write".toList]) [] = .ok () ∧
      ¬ DelegationSound [directoryGrant "/data*"] ["orgfs:write".toList] anyDepth := by
  refine ⟨by decide +kernel, by decide +kernel, ?_⟩
  intro sound
  have allowed := sound ⟨.orgfs, "/data/a".toList, .write⟩ (by decide +kernel) (by decide +kernel)
  exact absurd allowed (by decide +kernel)

end EveHorizon.Access
