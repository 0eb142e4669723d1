import EveHorizon.Access.Permissions
import EveHorizon.Library.Json
import EveHorizon.OrgFs.EvaluatorAgreement

/-!
# The scope of a job

A job stores the scope of its token as JSON.
-/

namespace EveHorizon.Access

open OrgFs (AccessBinding OrgFsMountContext MakesReadable MakesWritable mountSpec covers mountCovers
  globCovers deriveOrgFsMountContext deriveOrgFsMountContextFromTokenScope noOrgFsMount)

def textItem : Json → Option Text
  | .string text => some text
  | _ => none

def textArray : Json → Option (List Text)
  | .array items => items.mapM textItem
  | _ => none

def optionalMember {α : Type} (schema : Json → Option α) (members : List (Text × Json))
    (name : String) : Option (Option α) :=
  match members.lookup name.toList with
  | none => some none
  | some value => (schema value).map some

def strictObject {α : Type} (names : List String) (read : List (Text × Json) → Option α) : Json → Option α
  | .object members =>
    if members.all fun member => (names.map String.toList).contains member.1 then read members
    else none
  | _ => none

def accessScopePrefixesSchema : Json → Option PrefixScope :=
  strictObject ["allow_prefixes", "read_only_prefixes"] fun members => do
    let allowPrefixes ← optionalMember textArray members "allow_prefixes"
    let readOnlyPrefixes ← optionalMember textArray members "read_only_prefixes"
    pure { allowPrefixes, readOnlyPrefixes }

def accessScopeEnvDbSchema : Json → Option EnvDbScope :=
  strictObject ["schemas", "tables"] fun members => do
    let schemas ← optionalMember textArray members "schemas"
    let tables ← optionalMember textArray members "tables"
    pure { schemas, tables }

def accessScopeCloudFsSchema : Json → Option CloudFsScope :=
  strictObject ["allow_mount_ids"] fun members => do
    let allowMountIds ← optionalMember textArray members "allow_mount_ids"
    pure { allowMountIds }

def accessBindingScopeSchema : Json → Option AccessBindingScope :=
  strictObject ["orgfs", "orgdocs", "envdb", "cloud_fs"] fun members => do
    let orgfs ← optionalMember accessScopePrefixesSchema members "orgfs"
    let orgdocs ← optionalMember accessScopePrefixesSchema members "orgdocs"
    let envdb ← optionalMember accessScopeEnvDbSchema members "envdb"
    let cloudFs ← optionalMember accessScopeCloudFsSchema members "cloud_fs"
    pure { orgfs, orgdocs, envdb, cloudFs }

def jsonTexts (texts : List Text) : Json := .array (texts.map .string)

def jsonMember {α : Type} (name : String) (json : α → Json) : Option α → List (Text × Json)
  | none => []
  | some value => [(name.toList, json value)]

def PrefixScope.json (scope : PrefixScope) : Json :=
  .object (jsonMember "allow_prefixes" jsonTexts scope.allowPrefixes ++
    jsonMember "read_only_prefixes" jsonTexts scope.readOnlyPrefixes)

def EnvDbScope.json (scope : EnvDbScope) : Json :=
  .object (jsonMember "schemas" jsonTexts scope.schemas ++ jsonMember "tables" jsonTexts scope.tables)

def CloudFsScope.json (scope : CloudFsScope) : Json :=
  .object (jsonMember "allow_mount_ids" jsonTexts scope.allowMountIds)

variable (scope : AccessBindingScope)

def AccessBindingScope.members : List (Text × Json) :=
  jsonMember "orgfs" PrefixScope.json scope.orgfs ++
    jsonMember "orgdocs" PrefixScope.json scope.orgdocs ++
    jsonMember "envdb" EnvDbScope.json scope.envdb ++
    jsonMember "cloud_fs" CloudFsScope.json scope.cloudFs

def AccessBindingScope.json : Json := .object scope.members

open AccessBindingScope (json members)

theorem textArray_jsonTexts (texts : List Text) : textArray (jsonTexts texts) = some texts := by
  change (texts.map Json.string).mapM textItem = some texts
  induction texts with
  | nil => rfl
  | cons text texts ih => simp [ih, textItem]

theorem accessScopePrefixesSchema_json (scope : PrefixScope) : accessScopePrefixesSchema scope.json = some scope := by
  obtain ⟨allowPrefixes, readOnlyPrefixes⟩ := scope
  cases allowPrefixes <;> cases readOnlyPrefixes <;>
    simp [accessScopePrefixesSchema, PrefixScope.json, strictObject, jsonMember, optionalMember,
      List.lookup_cons, textArray_jsonTexts]

theorem accessScopeEnvDbSchema_json (scope : EnvDbScope) : accessScopeEnvDbSchema scope.json = some scope := by
  obtain ⟨schemas, tables⟩ := scope
  cases schemas <;> cases tables <;>
    simp [accessScopeEnvDbSchema, EnvDbScope.json, strictObject, jsonMember, optionalMember,
      List.lookup_cons, textArray_jsonTexts]

theorem accessScopeCloudFsSchema_json (scope : CloudFsScope) : accessScopeCloudFsSchema scope.json = some scope := by
  obtain ⟨allowMountIds⟩ := scope
  cases allowMountIds <;>
    simp [accessScopeCloudFsSchema, CloudFsScope.json, strictObject, jsonMember, optionalMember,
      textArray_jsonTexts]

theorem accessBindingScopeSchema_json : accessBindingScopeSchema scope.json = some scope := by
  obtain ⟨orgfs, orgdocs, envdb, cloudFs⟩ := scope
  cases orgfs <;> cases orgdocs <;> cases envdb <;> cases cloudFs <;>
    simp [accessBindingScopeSchema, json, members, strictObject,
      jsonMember, optionalMember, List.lookup_cons, accessScopePrefixesSchema_json,
      accessScopeEnvDbSchema_json, accessScopeCloudFsSchema_json]

variable {scope : AccessBindingScope}

theorem members_isEmpty_iff : scope.members.isEmpty = true ↔ scope = {} := by
  obtain ⟨orgfs, orgdocs, envdb, cloudFs⟩ := scope
  cases orgfs <;> cases orgdocs <;> cases envdb <;> cases cloudFs <;>
    simp [members, jsonMember]

structure JobScope where
  orgFsMount : OrgFsMountContext
  tokenScope : Option AccessBindingScope

section

/-! The job's actor, and the bindings that a user has, when they can be read. -/

variable (actorUserId : Option Text) (listApplicableBindings : Text → Option (List AccessBinding))

def resolveOrgFsMountContext : OrgFsMountContext :=
  let userId := Text.trim (actorUserId.getD [])
  if userId.isEmpty then noOrgFsMount
  else
    match listApplicableBindings userId with
    | some bindings => deriveOrgFsMountContext bindings
    | none => noOrgFsMount

def resolveJobScope (stored : Json) : JobScope :=
  match stored with
  | .null =>
    { orgFsMount := resolveOrgFsMountContext actorUserId listApplicableBindings
      tokenScope := none }
  | stored =>
    match accessBindingScopeSchema stored with
    | some tokenScope =>
      { orgFsMount := deriveOrgFsMountContextFromTokenScope (some tokenScope)
        tokenScope := some tokenScope }
    | none =>
      { orgFsMount := noOrgFsMount
        tokenScope := none }

variable {stored : Json}

theorem resolveJobScope_parsed {scope : AccessBindingScope} (parsed : accessBindingScopeSchema stored = some scope) :
    resolveJobScope actorUserId listApplicableBindings stored =
      { orgFsMount := deriveOrgFsMountContextFromTokenScope (some scope)
        tokenScope := some scope } := by
  cases stored with
  | null | bool | number | string | array => cases parsed
  | object members => simp only [resolveJobScope, parsed]

theorem resolveJobScope_unparsed (unparsed : accessBindingScopeSchema stored = none) :
    (resolveJobScope actorUserId listApplicableBindings stored).tokenScope = none := by
  cases stored with
  | null | bool | number | string | array => rfl
  | object members => simp only [resolveJobScope, unparsed]

end

def getInvocationJobScope : Option Json → Except String (Option AccessBindingScope)
  | none => pure none
  | some .null => pure none
  | some raw =>
    match accessBindingScopeSchema raw with
    | some scope => pure (some scope)
    | none => throw "Invalid invocation job scope"

def mintJobToken : Option Json → Except String (Option Json)
  | none => pure none
  | some body =>
    match accessBindingScopeSchema body with
    | some scope => pure (if scope.members.isEmpty then none else some scope.json)
    | none => throw "Invalid job token scope"

def verifyJobToken : Option Json → Except String (Option AccessBindingScope)
  | none => pure none
  | some claim =>
    match accessBindingScopeSchema claim with
    | some scope => pure (some scope)
    | none => throw "Invalid token scope"

def jobTokenScope (tokenScope : Option AccessBindingScope) : Except String (Option AccessBindingScope) := do
  let scope ← getInvocationJobScope (tokenScope.map json)
  let claim ← mintJobToken (scope.map json)
  verifyJobToken claim

theorem jobTokenScope_eq (tokenScope : Option AccessBindingScope) :
    jobTokenScope tokenScope = .ok (if tokenScope = some {} then none else tokenScope) := by
  cases tokenScope with
  | none => rfl
  | some scope =>
    have invoked : getInvocationJobScope (some scope.json) = .ok (some scope) := by
      have parsed : accessBindingScopeSchema (.object scope.members) = some scope := accessBindingScopeSchema_json scope
      simp only [getInvocationJobScope, json, parsed]
      rfl
    have minted : mintJobToken (some scope.json) = .ok (if scope.members.isEmpty then none else some scope.json) := by
      simp only [mintJobToken, accessBindingScopeSchema_json]
      rfl
    simp only [jobTokenScope, Option.map_some, invoked, Option.some.injEq]
    change (mintJobToken (some scope.json) >>= verifyJobToken) = _
    rw [minted]
    by_cases empty : scope = {}
    · rw [if_pos (members_isEmpty_iff.mpr empty), if_pos empty]
      rfl
    · rw [if_neg (fun none => empty (members_isEmpty_iff.mp none)), if_neg empty]
      change verifyJobToken (some scope.json) = _
      simp only [verifyJobToken, accessBindingScopeSchema_json]
      rfl

structure AuthUser where
  userId : Text := []
  isJobToken : Bool := false
  isServicePrincipal : Bool := false
  permissions : Option (List Text) := none
  scope : Option AccessBindingScope := none

inductive PrincipalType where
  | user
  | servicePrincipal

structure AccessPrincipal where
  principalType : PrincipalType
  principalId : Text

section

/-! Whether authentication is on, and what the access service answers for a principal. -/

variable (authEnabled : Bool) (accessCan : AccessPrincipal → Bool)

def resolvePrincipal (user : Option AuthUser) : Except String (Option AccessPrincipal) :=
  if !authEnabled then pure none
  else
    match user with
    | none => throw "Missing user context"
    | some user =>
      if user.userId.isEmpty then throw "Missing user context"
      else
        pure (some
          { principalType := if user.isServicePrincipal then .servicePrincipal else .user
            principalId := user.userId })

def jobPermissions (user : Option AuthUser) : Option (List Text) :=
  user.bind fun user => if user.isJobToken then user.permissions else none

def can (permission : Text) (user : Option AuthUser) (resource : Option AccessResourceContext) : Except String Bool :=
  match jobPermissions user with
  | some permissions =>
    if !permissions.contains permission then pure false
    else
      match user.bind AuthUser.scope with
      | none => pure true
      | some scope =>
        let scopeEval := evaluateScope (some scope) permission resource
        pure (!scopeEval.scopeRequired || scopeEval.scopeMatched)
  | none => do
    match ← resolvePrincipal authEnabled user with
    | none => pure true
    | some principal => pure (accessCan principal)

end

def jobUser (userId : Text) (permissions : List Text) (scope : Option AccessBindingScope) : AuthUser where
  userId := userId
  isJobToken := true
  permissions := some permissions
  scope := scope

def StoredAdmits (stored : Json) (permission : Text) (resource : Option AccessResourceContext) : Prop :=
  (evaluateScope (accessBindingScopeSchema stored) permission resource).scopeRequired = false ∨
    (evaluateScope (accessBindingScopeSchema stored) permission resource).scopeMatched = true

/-- Neither the token nor the mount of a job lets it reach what its stored scope does not
admit. -/
structure FailsClosed (actorUserId : Option Text)
    (listApplicableBindings : Text → Option (List AccessBinding)) (stored : Json) : Prop where
  token : ∀ authEnabled accessCan userId permissions permission resource scope,
    jobTokenScope (resolveJobScope actorUserId listApplicableBindings stored).tokenScope = .ok scope →
    can authEnabled accessCan permission (some (jobUser userId permissions scope)) resource = .ok true →
      StoredAdmits stored permission resource
  readable : ∀ path,
    MakesReadable (mountSpec (resolveJobScope actorUserId listApplicableBindings stored).orgFsMount)
      path → StoredAdmits stored OrgFs.readPermission (some ⟨.orgfs, path, .read⟩)
  writable : ∀ path,
    MakesWritable (mountSpec (resolveJobScope actorUserId listApplicableBindings stored).orgFsMount)
      path → StoredAdmits stored OrgFs.writePermission (some ⟨.orgfs, path, .write⟩)

variable (scope)

def allowPatterns : List Text :=
  (scope.orgfs.bind PrefixScope.allowPrefixes).getD []

def readOnlyPatterns : List Text :=
  (scope.orgfs.bind PrefixScope.readOnlyPrefixes).getD []

variable {scope}

/-- Where a pattern covers more as a mounted prefix than it matches as a glob, another
pattern matches, or a read-only prefix keeps the path from being written. -/
structure MountWithin (scope : AccessBindingScope) : Prop where
  readable : ∀ pattern ∈ allowPatterns scope ++ readOnlyPatterns scope, ∀ path,
    mountCovers path pattern = true → globCovers path pattern = false →
      ∃ other ∈ allowPatterns scope ++ readOnlyPatterns scope, globCovers path other = true
  writable : ∀ pattern ∈ allowPatterns scope, ∀ path,
    mountCovers path pattern = true → globCovers path pattern = false →
      (∃ readOnly ∈ readOnlyPatterns scope, mountCovers path readOnly = true) ∨
        ∃ other ∈ allowPatterns scope, globCovers path other = true

/-- The stored value is a scope that declares something and mounts what it admits. -/
def Enforceable (stored : Json) : Prop :=
  ∃ scope, accessBindingScopeSchema stored = some scope ∧ scope ≠ {} ∧ MountWithin scope

variable {path : Text}

theorem exists_normalized_iff {raw : Option (List Text)} :
    (∃ scopePrefix ∈ OrgFs.normalizeScopedPrefixes raw, covers path scopePrefix = true) ↔
      ∃ pattern ∈ raw.getD [], mountCovers path pattern = true := by
  constructor
  · rintro ⟨scopePrefix, member, covered⟩
    obtain ⟨pattern, given, normalized⟩ := OrgFs.mem_normalizeScopedPrefixes.mp member
    exact ⟨pattern, given, (Option.any_eq_true _ _).mpr ⟨scopePrefix, normalized, covered⟩⟩
  · rintro ⟨pattern, given, covered⟩
    obtain ⟨scopePrefix, normalized, covered⟩ := (Option.any_eq_true _ _).mp covered
    exact ⟨scopePrefix, OrgFs.mem_normalizeScopedPrefixes.mpr ⟨pattern, given, normalized⟩, covered⟩

theorem tokenScope_context {allowed readOnly : List Text}
    (allows : OrgFs.normalizeScopedPrefixes (scope.orgfs.bind PrefixScope.allowPrefixes) = allowed)
    (reads : OrgFs.normalizeScopedPrefixes (scope.orgfs.bind PrefixScope.readOnlyPrefixes) =
      readOnly) :
    deriveOrgFsMountContextFromTokenScope (some scope) =
      { mode :=
          if (allowed ++ readOnly).isEmpty then .none
          else if allowed.isEmpty then .read
          else .write
        allowPrefixes := Text.sortedSet (allowed ++ readOnly)
        readOnlyPrefixes := readOnly } := by
  rw [deriveOrgFsMountContextFromTokenScope, Option.bind_some]
  cases found : scope.orgfs with
  | none =>
    rw [found] at allows reads
    subst allows reads
    decide
  | some orgfsScope =>
    rw [found, Option.bind_some] at allows reads
    simp only [allows, reads]
    cases allowed <;> cases readOnly <;> rfl

theorem tokenScope_readable : MakesReadable (mountSpec (deriveOrgFsMountContextFromTokenScope (some scope))) path ↔
      ∃ pattern ∈ allowPatterns scope ++ readOnlyPatterns scope, mountCovers path pattern = true := by
  rw [OrgFs.makesReadable_iff, tokenScope_context rfl rfl]
  simp only [List.mem_append, or_and_right, exists_or, allowPatterns, readOnlyPatterns,
    ← exists_normalized_iff, Text.mem_sortedSet, and_iff_right_iff_imp]
  intro covered
  split
  · next empty =>
      rw [List.isEmpty_iff, List.append_eq_nil_iff] at empty
      simp [empty.1, empty.2] at covered
  · split <;> exact OrgFs.OrgFsMountMode.noConfusion

theorem tokenScope_writable : MakesWritable (mountSpec (deriveOrgFsMountContextFromTokenScope (some scope))) path ↔
      (∃ pattern ∈ allowPatterns scope, mountCovers path pattern = true) ∧
        ¬ ∃ readOnly ∈ readOnlyPatterns scope, mountCovers path readOnly = true := by
  rw [OrgFs.makesWritable_iff, tokenScope_context rfl rfl]
  simp only [allowPatterns, readOnlyPatterns, ← exists_normalized_iff, Text.mem_sortedSet]
  constructor
  · rintro ⟨-, ⟨scopePrefix, member, covered⟩, free⟩
    refine ⟨?_, free⟩
    rcases List.mem_append.mp member with allows | reads
    · exact ⟨scopePrefix, allows, covered⟩
    · exact absurd ⟨scopePrefix, reads, covered⟩ free
  · rintro ⟨⟨scopePrefix, allows, covered⟩, free⟩
    have some := List.ne_nil_of_mem allows
    refine ⟨by simp [some], ⟨scopePrefix, List.mem_append_left _ allows, covered⟩, free⟩

variable {stored : Json}

theorem storedAdmits_read (parsed : accessBindingScopeSchema stored = some scope) :
    StoredAdmits stored OrgFs.readPermission (some ⟨.orgfs, path, .read⟩) ↔
      ∃ pattern ∈ allowPatterns scope ++ readOnlyPatterns scope, globCovers path pattern = true := by
  have concerns : permissionResourceType OrgFs.readPermission = some .orgfs := by decide
  have required : (evaluateScope (some scope) OrgFs.readPermission
      (some ⟨.orgfs, path, .read⟩)).scopeRequired = true := by
    simp only [evaluateScope, concerns, evaluateFacet_scopeRequired]
  rw [StoredAdmits, parsed, required, OrgFs.evaluateScope_orgfs concerns, evaluatePrefixScope_matched]
  simp only [Bool.true_eq_false, false_or, true_and, Covers, List.mem_append, or_and_right, exists_or,
    globCovers, allowPatterns, readOnlyPatterns, Option.bind_some]

theorem storedAdmits_write (parsed : accessBindingScopeSchema stored = some scope) :
    StoredAdmits stored OrgFs.writePermission (some ⟨.orgfs, path, .write⟩) ↔
      ∃ pattern ∈ allowPatterns scope, globCovers path pattern = true := by
  have concerns : permissionResourceType OrgFs.writePermission = some .orgfs := by decide
  have required : (evaluateScope (some scope) OrgFs.writePermission
      (some ⟨.orgfs, path, .write⟩)).scopeRequired = true := by
    simp only [evaluateScope, concerns, evaluateFacet_scopeRequired]
  rw [StoredAdmits, parsed, required, OrgFs.evaluateScope_orgfs concerns, evaluatePrefixScope_matched]
  simp only [Bool.true_eq_false, false_or, true_and, Covers, reduceCtorEq, false_and, or_false,
    globCovers, allowPatterns, Option.bind_some]

theorem not_storedAdmits
    (nothing : accessBindingScopeSchema stored = none ∨ accessBindingScopeSchema stored = some {}) :
    ¬ StoredAdmits stored OrgFs.readPermission none := by
  rcases nothing with parsed | parsed
  · rw [StoredAdmits, parsed]
    decide
  · rw [StoredAdmits, parsed]
    decide

section

variable {actorUserId : Option Text} {listApplicableBindings : Text → Option (List AccessBinding)} {stored : Json}
  {accessCan : AccessPrincipal → Bool} {authEnabled : Bool} {userId : Text}

theorem can_unscoped :
    can authEnabled accessCan OrgFs.readPermission
      (some (jobUser userId [OrgFs.readPermission] none)) none = .ok true := by
  rfl

theorem can_scoped {permission : Text} {permissions : List Text} {scope : AccessBindingScope}
    {resource : Option AccessResourceContext}
    (allowed : can authEnabled accessCan permission (some (jobUser userId permissions (some scope))) resource =
      .ok true) :
    (evaluateScope (some scope) permission resource).scopeRequired = false ∨
      (evaluateScope (some scope) permission resource).scopeMatched = true := by
  simp only [can, jobPermissions, jobUser, Option.bind_some, if_true] at allowed
  split at allowed
  · cases allowed
  · have granted := Except.ok.inj allowed
    rwa [Bool.or_eq_true, Bool.not_eq_true'] at granted

theorem scope_of_failsClosed (closed : FailsClosed actorUserId listApplicableBindings stored) :
    ∃ scope, accessBindingScopeSchema stored = some scope ∧ scope ≠ {} := by
  cases parsed : accessBindingScopeSchema stored with
  | none =>
    have unscoped : jobTokenScope
        (resolveJobScope actorUserId listApplicableBindings stored).tokenScope = .ok none := by
      rw [resolveJobScope_unparsed _ _ parsed]
      rfl
    exact absurd (closed.token true (fun _ => false) [] _ _ _ _ unscoped can_unscoped)
      (not_storedAdmits (.inl parsed))
  | some scope =>
    refine ⟨scope, rfl, ?_⟩
    rintro rfl
    have unscoped : jobTokenScope
        (resolveJobScope actorUserId listApplicableBindings stored).tokenScope = .ok none := by
      rw [resolveJobScope_parsed _ _ parsed, jobTokenScope_eq, if_pos rfl]
    exact absurd (closed.token true (fun _ => false) [] _ _ _ _ unscoped can_unscoped)
      (not_storedAdmits (.inr parsed))

/-- The scope of a job fails closed exactly when the stored value is a scope that declares
something and whose patterns mount no more than they admit. -/
theorem failsClosed_iff (actorUserId : Option Text)
    (listApplicableBindings : Text → Option (List AccessBinding)) (stored : Json) :
    FailsClosed actorUserId listApplicableBindings stored ↔ Enforceable stored := by
  constructor
  · intro closed
    obtain ⟨scope, parsed, declares⟩ := scope_of_failsClosed closed
    have resolved := resolveJobScope_parsed actorUserId listApplicableBindings parsed
    refine ⟨scope, parsed, declares, ?_, ?_⟩
    · intro pattern given path covered _
      apply (storedAdmits_read parsed).mp
      apply closed.readable
      rw [resolved]
      exact tokenScope_readable.mpr ⟨pattern, given, covered⟩
    · intro pattern given path covered _
      by_cases restricted : ∃ readOnly ∈ readOnlyPatterns scope, mountCovers path readOnly = true
      · exact .inl restricted
      · refine .inr ((storedAdmits_write parsed).mp (closed.writable path ?_))
        rw [resolved]
        exact tokenScope_writable.mpr ⟨⟨pattern, given, covered⟩, restricted⟩
  · rintro ⟨scope, parsed, declares, within⟩
    have resolved := resolveJobScope_parsed actorUserId listApplicableBindings parsed
    constructor
    · intro authEnabled accessCan userId permissions permission resource carried token allowed
      rw [resolved, jobTokenScope_eq, if_neg (fun same => declares (Option.some.inj same))] at token
      cases token
      rw [StoredAdmits, parsed]
      exact can_scoped allowed
    · intro path mounted
      rw [resolved] at mounted
      obtain ⟨pattern, given, covered⟩ := tokenScope_readable.mp mounted
      rw [storedAdmits_read parsed]
      cases hit : globCovers path pattern with
      | true => exact ⟨pattern, given, hit⟩
      | false => exact within.readable pattern given path covered hit
    · intro path mounted
      rw [resolved] at mounted
      obtain ⟨⟨pattern, given, covered⟩, free⟩ := tokenScope_writable.mp mounted
      rw [storedAdmits_write parsed]
      cases hit : globCovers path pattern with
      | true => exact ⟨pattern, given, hit⟩
      | false => exact (within.writable pattern given path covered hit).resolve_left free

end

def misspelledScope : Json :=
  .object [("orgfs".toList, .object [("paths".toList, .array [.string "/reports/**".toList])])]

theorem misspelled_scope_unscoped : ¬ FailsClosed none (fun _ => none) misspelledScope := by
  intro closed
  have admitted := closed.token true (fun _ => false) "user_1".toList ["orgfs:write".toList]
    "orgfs:write".toList (some ⟨.orgfs, "/finance/q3.csv".toList, .write⟩) none rfl rfl
  exact absurd admitted (by rw [StoredAdmits]; decide +kernel)

end EveHorizon.Access
