import EveHorizon.Library.RegExp

/-!
# Access scopes

The scope that a grant or a token carries and its evaluation against a resource.
-/

namespace EveHorizon.Access

open List

inductive AccessResourceType where
  | orgfs
  | orgdocs
  | envdb
  | cloudFs
  deriving DecidableEq

def AccessResourceType.name : AccessResourceType → Text
  | .orgfs => "orgfs".toList
  | .orgdocs => "orgdocs".toList
  | .envdb => "envdb".toList
  | .cloudFs => "cloud_fs".toList

inductive AccessResourceAction where
  | read
  | write
  | admin
  deriving DecidableEq

structure AccessResourceContext where
  type : AccessResourceType
  id : Text
  action : AccessResourceAction

structure PrefixScope where
  allowPrefixes : Option (List Text) := none
  readOnlyPrefixes : Option (List Text) := none
  deriving DecidableEq

structure EnvDbScope where
  schemas : Option (List Text) := none
  tables : Option (List Text) := none
  deriving DecidableEq

structure CloudFsScope where
  allowMountIds : Option (List Text) := none
  deriving DecidableEq

structure AccessBindingScope where
  orgfs : Option PrefixScope := none
  orgdocs : Option PrefixScope := none
  envdb : Option EnvDbScope := none
  cloudFs : Option CloudFsScope := none
  deriving DecidableEq

structure ScopeEvaluation where
  scopeRequired : Bool
  scopeMatched : Bool
  reason : Option Text := none

def permissionResourceType (permission : Text) : Option AccessResourceType :=
  if Text.startsWith "orgfs:".toList permission then some .orgfs
  else if Text.startsWith "orgdocs:".toList permission then some .orgdocs
  else if Text.startsWith "envdb:".toList permission then some .envdb
  else if Text.startsWith "cloud_fs:".toList permission then some .cloudFs
  else none

def normalizeScopedPath (path : Text) : Text :=
  let trimmed := Text.trim path
  if trimmed.isEmpty then ['/']
  else Text.squeeze '/' (if Text.startsWith ['/'] trimmed then trimmed else '/' :: trimmed)

def escapeRegExp (value : Text) : Text := RegExp.escape value

def wildcardPathToRegExpSource : Text → Text
  | [] => []
  | '*' :: '*' :: pattern => ['.', '*'] ++ wildcardPathToRegExpSource pattern
  | '*' :: pattern => ['[', '^', '/', ']', '*'] ++ wildcardPathToRegExpSource pattern
  | char :: pattern => escapeRegExp [char] ++ wildcardPathToRegExpSource pattern

def matchesPathPattern (pattern value : Text) : Bool :=
  let normalizedPattern := normalizeScopedPath pattern
  let normalizedValue := normalizeScopedPath value
  if normalizedPattern.contains '*' then
    RegExp.test (wildcardPathToRegExpSource normalizedPattern) normalizedValue
  else
    let extended :=
      if Text.endsWith ['/'] normalizedPattern then normalizedPattern
      else normalizedPattern ++ ['/']
    normalizedValue == normalizedPattern || Text.startsWith extended normalizedValue

def matchesIdentifierPattern (pattern value : Text) : Bool :=
  if pattern = ['*'] then true
  else
    let source := ['.', '*'].intercalate ((pattern.splitOn '*').map escapeRegExp)
    RegExp.test source value

def wildcardItems : Text → List RegExp.Item
  | [] => []
  | '*' :: '*' :: pattern => .many .dot :: wildcardItems pattern
  | '*' :: pattern => .many (.except '/') :: wildcardItems pattern
  | char :: pattern => .one (.char char) :: wildcardItems pattern

variable (pattern : Text)

theorem wildcardPathToRegExpSource_eq_render :
    wildcardPathToRegExpSource pattern = RegExp.render (wildcardItems pattern) := by
  fun_induction wildcardPathToRegExpSource pattern with
  | case1 => rfl
  | case2 pattern ih =>
    rw [wildcardItems, ih]
    rfl
  | case3 pattern single ih =>
    rw [wildcardItems, ih]
    · rfl
    · exact single
  | case4 char pattern paired single ih =>
    rw [wildcardItems, ih]
    · rfl
    · exact paired
    · exact single

theorem wildcardItems_renderable : ∀ item ∈ wildcardItems pattern, item.atom.Renderable := by
  fun_induction wildcardItems pattern with
  | case1 => simp
  | case2 pattern ih => simpa [RegExp.Item.atom, RegExp.Atom.Renderable] using ih
  | case3 pattern single ih => simpa [RegExp.Item.atom, RegExp.Atom.Renderable] using ih
  | case4 char pattern paired single ih =>
    simpa [RegExp.Item.atom, RegExp.Atom.Renderable] using ih

def fillStars (pattern : Text) : Text :=
  pattern.map fun char => if char = '*' then 'x' else char

theorem accepts_fillStars : RegExp.accepts (wildcardItems pattern) (fillStars pattern) = true := by
  fun_induction wildcardItems pattern with
  | case1 => rfl
  | case2 pattern ih =>
    exact RegExp.acceptsMany_append ['x', 'x'] (all_eq_true.mp rfl) ih
  | case3 pattern single ih =>
    exact RegExp.acceptsMany_append ['x'] (all_eq_true.mp rfl) ih
  | case4 char pattern paired single ih =>
    have plain : char ≠ '*' := single
    have filled : fillStars (char :: pattern) = char :: fillStars pattern := by
      simp [fillStars, plain]
    rw [filled]
    exact RegExp.accepts_one_cons ih

variable {path : Text}

theorem normalizeScopedPath_of_rooted (rooted : path.head? = some '/')
    (trimmed : Text.trim path = path) : normalizeScopedPath path = Text.squeeze '/' path := by
  obtain ⟨rest, rfl⟩ : ∃ rest, path = '/' :: rest := head?_eq_some_iff.mp rooted
  simp [normalizeScopedPath, trimmed, Text.startsWith, List.isPrefixOf]

structure NormalPath (path : Text) : Prop where
  rooted : path.head? = some '/'
  trimmed : Text.trim path = path
  squeezed : Text.squeeze '/' path = path

theorem NormalPath.normalize (normal : NormalPath path) : normalizeScopedPath path = path := by
  rw [normalizeScopedPath_of_rooted normal.rooted normal.trimmed, normal.squeezed]

theorem normalPath_squeeze (rooted : path.head? = some '/')
    (ending : ∀ char, path.getLast? = some char → Text.isSpace char = false) :
    NormalPath (Text.squeeze '/' path) where
  rooted := by rw [Text.head?_squeeze, rooted]
  trimmed := by
    apply Text.trim_eq_self
    · intro char first
      rw [Text.head?_squeeze, rooted, Option.some.injEq] at first
      subst first
      decide
    · intro char last
      rw [Text.getLast?_squeeze] at last
      exact ending char last
  squeezed := Text.squeeze_squeeze path

theorem normalPath_normalize (path : Text) : NormalPath (normalizeScopedPath path) := by
  unfold normalizeScopedPath
  have ending := @Text.getLast?_trim path
  cases found : Text.trim path with
  | nil => exact ⟨rfl, by decide, rfl⟩
  | cons first rest =>
    rw [found] at ending
    by_cases rooted : first = '/'
    · subst rooted
      simp only [isEmpty_cons, Bool.false_eq_true, if_false]
      exact normalPath_squeeze rfl fun char last => ending last
    · have unrooted : Text.startsWith ['/'] (first :: rest) = false := by
        simp [Text.startsWith, List.isPrefixOf, Ne.symm rooted]
      simp only [isEmpty_cons, Bool.false_eq_true, if_false, unrooted]
      apply normalPath_squeeze rfl
      intro char last
      rw [getLast?_cons_cons] at last
      exact ending last

theorem NormalPath.fillStars (normal : NormalPath path) : NormalPath (fillStars path) where
  rooted := by simp [Access.fillStars, normal.rooted]
  trimmed := by
    rw [Access.fillStars, Text.trim_map, normal.trimmed]
    intro char
    split
    · next star => subst star; decide
    · rfl
  squeezed := by
    rw [Access.fillStars, Text.squeeze_map, normal.squeezed]
    intro char
    split
    · next star => subst star; decide
    · rfl

theorem matchesPathPattern_sample : matchesPathPattern pattern (fillStars (normalizeScopedPath pattern)) = true := by
  have normal := (normalPath_normalize pattern).fillStars.normalize
  unfold matchesPathPattern
  simp only [normal]
  split
  · rw [wildcardPathToRegExpSource_eq_render, RegExp.test_render (wildcardItems_renderable _)]
    exact accepts_fillStars _
  · next plain =>
      have same : fillStars (normalizeScopedPath pattern) = normalizeScopedPath pattern := by
        have starless : '*' ∉ normalizeScopedPath pattern := by simpa using plain
        calc fillStars (normalizeScopedPath pattern)
          _ = (normalizeScopedPath pattern).map id := by
              apply map_congr_left
              intro char member
              have unstarred : char ≠ '*' := by
                rintro rfl
                exact starless member
              rw [if_neg unstarred, id]
          _ = normalizeScopedPath pattern := map_id _
      simp [same]

def matched (reason : Text) : ScopeEvaluation where
  scopeRequired := true
  scopeMatched := true
  reason := some reason

def unmatched (reason : Text) : ScopeEvaluation where
  scopeRequired := true
  scopeMatched := false
  reason := some reason

def evaluatePrefixScope (resourceType : AccessResourceType) (scope : Option PrefixScope)
    (resource : Option AccessResourceContext) : ScopeEvaluation :=
  let allowPrefixes := (scope.bind PrefixScope.allowPrefixes).getD []
  let readOnlyPrefixes := (scope.bind PrefixScope.readOnlyPrefixes).getD []
  if allowPrefixes.isEmpty && readOnlyPrefixes.isEmpty then
    unmatched ("missing ".toList ++ resourceType.name ++ " scope prefixes".toList)
  else
    match resource with
    | none => matched (resourceType.name ++ " scope present".toList)
    | some resource =>
      if resource.type ≠ resourceType then
        unmatched ("resource type ".toList ++ resource.type.name ++
          " does not match required ".toList ++ resourceType.name)
      else
        let resourcePath := normalizeScopedPath resource.id
        let matchesAllow := allowPrefixes.any (matchesPathPattern · resourcePath)
        let matchesReadOnly := readOnlyPrefixes.any (matchesPathPattern · resourcePath)
        let sentence (verdict : String) := "resource path ".toList ++ resourcePath ++ verdict.toList
        if resource.action = .read then
          if matchesAllow || matchesReadOnly then matched (sentence " is in allowed scope")
          else unmatched (sentence " is outside allowed scope")
        else if matchesAllow then matched (sentence " is writable in scope")
        else if matchesReadOnly then unmatched (sentence " is read-only")
        else unmatched (sentence " is outside writable scope")

def splitIdentifier (identifier : Text) : Text × Text :=
  match identifier.splitOn '.' with
  | [] => ([], [])
  | schemaPart :: tableParts => (Text.trim schemaPart, Text.trim (['.'].intercalate tableParts))

def evaluateEnvDbScope (scope : Option EnvDbScope) (resource : Option AccessResourceContext) : ScopeEvaluation :=
  let schemas := (scope.bind EnvDbScope.schemas).getD []
  let tables := (scope.bind EnvDbScope.tables).getD []
  if schemas.isEmpty && tables.isEmpty then unmatched "missing envdb schema/table scope".toList
  else
    match resource with
    | none => matched "envdb scope present".toList
    | some resource =>
      if resource.type ≠ .envdb then
        unmatched ("resource type ".toList ++ resource.type.name ++ " does not match required envdb".toList)
      else if (Text.trim resource.id).isEmpty then
        unmatched "envdb resource id cannot be empty".toList
      else
        let (schema, tableName) := splitIdentifier (Text.trim resource.id)
        let schemaMatched := schemas.any (matchesIdentifierPattern · schema)
        if tableName.isEmpty then
          if schemaMatched then
            matched ("schema ".toList ++ schema ++ " is in envdb scope".toList)
          else unmatched ("schema ".toList ++ schema ++ " is outside envdb scope".toList)
        else
          let tableIdentifier := schema ++ ['.'] ++ tableName
          let tableMatched := tables.any (matchesIdentifierPattern · tableIdentifier)
          if schemaMatched || tableMatched then
            matched ("table ".toList ++ tableIdentifier ++ " is in envdb scope".toList)
          else unmatched ("table ".toList ++ tableIdentifier ++ " is outside envdb scope".toList)

def evaluateCloudFsScope (scope : Option CloudFsScope) (resource : Option AccessResourceContext) : ScopeEvaluation :=
  let allow := (scope.bind CloudFsScope.allowMountIds).getD []
  if allow.isEmpty then unmatched "missing cloud_fs.allow_mount_ids".toList
  else
    match resource with
    | none => matched "cloud_fs scope present".toList
    | some resource =>
      if resource.type ≠ .cloudFs then
        unmatched ("resource type ".toList ++ resource.type.name ++ " does not match required cloud_fs".toList)
      else if allow.contains ['*'] || allow.contains resource.id then
        matched ("mount ".toList ++ resource.id ++ " is in cloud_fs scope".toList)
      else unmatched ("mount ".toList ++ resource.id ++ " is outside cloud_fs scope".toList)

def evaluateFacet (scope : AccessBindingScope) (resourceType : AccessResourceType)
    (resource : Option AccessResourceContext) : ScopeEvaluation :=
  match resourceType with
  | .orgfs => evaluatePrefixScope .orgfs scope.orgfs resource
  | .orgdocs => evaluatePrefixScope .orgdocs scope.orgdocs resource
  | .envdb => evaluateEnvDbScope scope.envdb resource
  | .cloudFs => evaluateCloudFsScope scope.cloudFs resource

def evaluateScope (scope : Option AccessBindingScope) (permission : Text)
    (resource : Option AccessResourceContext) : ScopeEvaluation :=
  match permissionResourceType permission with
  | none =>
    { scopeRequired := false
      scopeMatched := true }
  | some resourceType =>
    match scope with
    | none => unmatched ("missing ".toList ++ resourceType.name ++ " scope on grant".toList)
    | some scope => evaluateFacet scope resourceType resource

def Covers (patterns : List Text) (path : Text) : Prop :=
  ∃ pattern ∈ patterns, matchesPathPattern pattern path = true

variable {resource : AccessResourceContext}

theorem evaluatePrefixScope_matched {resourceType : AccessResourceType} {scope : Option PrefixScope} :
    (evaluatePrefixScope resourceType scope (some resource)).scopeMatched = true ↔ resource.type = resourceType ∧
        (Covers ((scope.bind PrefixScope.allowPrefixes).getD []) (normalizeScopedPath resource.id) ∨
          (resource.action = .read ∧ Covers ((scope.bind PrefixScope.readOnlyPrefixes).getD [])
              (normalizeScopedPath resource.id))) := by
  unfold evaluatePrefixScope
  simp only [apply_ite ScopeEvaluation.scopeMatched, matched, unmatched,
    Covers, ← any_eq_true]
  generalize (scope.bind PrefixScope.allowPrefixes).getD [] = allowed
  generalize (scope.bind PrefixScope.readOnlyPrefixes).getD [] = readable
  by_cases empty : allowed = [] ∧ readable = []
  · simp [empty.1, empty.2]
  · have declared : (allowed.isEmpty && readable.isEmpty) = false := by
      simpa using empty
    by_cases sameType : resource.type = resourceType
    · by_cases reading : resource.action = .read
      · simp [declared, sameType, reading]
      · simp [declared, sameType, reading]
    · simp [declared, sameType]

def schemaAdmits (pattern identifier : Text) : Bool :=
  matchesIdentifierPattern pattern (splitIdentifier (Text.trim identifier)).1

def tableAdmits (pattern identifier : Text) : Bool :=
  let (schema, tableName) := splitIdentifier (Text.trim identifier)
  !tableName.isEmpty && matchesIdentifierPattern pattern (schema ++ ['.'] ++ tableName)

def EnvDbAdmits (scope : Option EnvDbScope) (identifier : Text) : Prop :=
  (∃ pattern ∈ (scope.bind EnvDbScope.schemas).getD [], schemaAdmits pattern identifier = true) ∨
    ∃ pattern ∈ (scope.bind EnvDbScope.tables).getD [], tableAdmits pattern identifier = true

theorem evaluateEnvDbScope_matched {scope : Option EnvDbScope} :
    (evaluateEnvDbScope scope (some resource)).scopeMatched = true ↔
      resource.type = .envdb ∧ Text.trim resource.id ≠ [] ∧ EnvDbAdmits scope resource.id := by
  unfold evaluateEnvDbScope
  simp only [apply_ite ScopeEvaluation.scopeMatched, matched, unmatched,
    EnvDbAdmits, schemaAdmits, tableAdmits]
  by_cases empty : (scope.bind EnvDbScope.schemas).getD [] = [] ∧ (scope.bind EnvDbScope.tables).getD [] = []
  · simp [empty.1, empty.2]
  · have declared : (((scope.bind EnvDbScope.schemas).getD []).isEmpty &&
        ((scope.bind EnvDbScope.tables).getD []).isEmpty) = false := by
      simpa using empty
    by_cases sameType : resource.type = .envdb
    · by_cases blank : Text.trim resource.id = []
      · simp [declared, sameType, blank]
      · by_cases bare : (splitIdentifier (Text.trim resource.id)).2 = []
        · simp [declared, sameType, blank, bare]
        · simp [declared, sameType, blank, bare]
    · simp [declared, sameType]

theorem evaluateCloudFsScope_matched {scope : Option CloudFsScope} :
    (evaluateCloudFsScope scope (some resource)).scopeMatched = true ↔ resource.type = .cloudFs ∧
        (['*'] ∈ (scope.bind CloudFsScope.allowMountIds).getD [] ∨
          resource.id ∈ (scope.bind CloudFsScope.allowMountIds).getD []) := by
  unfold evaluateCloudFsScope
  simp only [apply_ite ScopeEvaluation.scopeMatched, matched, unmatched]
  by_cases empty : (scope.bind CloudFsScope.allowMountIds).getD [] = []
  · simp [empty]
  · have declared : ((scope.bind CloudFsScope.allowMountIds).getD []).isEmpty = false := by
      simpa using empty
    by_cases sameType : resource.type = .cloudFs
    · simp [declared, sameType]
    · simp [declared, sameType]

end EveHorizon.Access
