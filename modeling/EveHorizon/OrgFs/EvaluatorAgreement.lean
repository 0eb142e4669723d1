import EveHorizon.OrgFs.MountContext

/-!
# The mount and the evaluator

The same bindings are read twice: flattened into the context of a mount, and one by one
when a permission is evaluated.
-/

namespace EveHorizon.OrgFs

open List
open Access (AccessBindingScope PrefixScope AccessResourceAction AccessResourceContext evaluateScope
  evaluatePrefixScope evaluatePrefixScope_matched matchesPathPattern normalizeScopedPath)

def AccessBinding.allowPatterns (binding : AccessBinding) : List Text :=
  ((binding.scopeJson.bind AccessBindingScope.orgfs).bind PrefixScope.allowPrefixes).getD []

def AccessBinding.readOnlyPatterns (binding : AccessBinding) : List Text :=
  ((binding.scopeJson.bind AccessBindingScope.orgfs).bind PrefixScope.readOnlyPrefixes).getD []

def mountCovers (path pattern : Text) : Bool := (normalizeScopedPrefix pattern).any (covers path ·)

def globCovers (path pattern : Text) : Bool :=
  matchesPathPattern pattern (normalizeScopedPath path)

theorem mem_normalizeScopedPrefixes {raw : Option (List Text)} {normalized : Text} :
    normalized ∈ normalizeScopedPrefixes raw ↔
      ∃ pattern ∈ raw.getD [], normalizeScopedPrefix pattern = some normalized := by
  rw [normalizeScopedPrefixes, Text.mem_sortedSet, mem_filterMap]

variable {binding : AccessBinding} {path : Text}

theorem exists_allowed_iff : (∃ scopePrefix ∈ binding.allowed, covers path scopePrefix = true) ↔
      ∃ pattern ∈ binding.allowPatterns, mountCovers path pattern = true := by
  constructor
  · rintro ⟨scopePrefix, member, covered⟩
    obtain ⟨pattern, given, normalized⟩ := mem_normalizeScopedPrefixes.mp member
    exact ⟨pattern, given, (Option.any_eq_true _ _).mpr ⟨scopePrefix, normalized, covered⟩⟩
  · rintro ⟨pattern, given, covered⟩
    obtain ⟨scopePrefix, normalized, covered⟩ := (Option.any_eq_true _ _).mp covered
    exact ⟨scopePrefix, mem_normalizeScopedPrefixes.mpr ⟨pattern, given, normalized⟩, covered⟩

/-- A role without writing, or a read-only prefix, keeps the path from being written. -/
def AccessBinding.Restricts (binding : AccessBinding) (path : Text) : Prop :=
  binding.reads = true ∧
    ((binding.writes = false ∧ ∃ pattern ∈ binding.allowPatterns, mountCovers path pattern = true) ∨
      ∃ readOnly ∈ binding.readOnly, covers path readOnly = true)

variable (bindings : List AccessBinding)

def Restricted (path : Text) : Prop :=
  ∃ binding ∈ bindings, binding.Restricts path

def MountReads (path : Text) : Prop :=
  ∃ binding ∈ bindings, binding.reads = true ∧ ∃ pattern ∈ binding.allowPatterns, mountCovers path pattern = true

def MountWrites (path : Text) : Prop :=
  ∃ binding ∈ bindings, binding.writes = true ∧ ∃ pattern ∈ binding.allowPatterns, mountCovers path pattern = true

section

variable {bindings : List AccessBinding} {path : Text}

theorem mountReads_iff : MountReads bindings path ↔
      ∃ scopePrefix ∈ (bindings.foldl addBinding {}).readable, covers path scopePrefix = true := by
  constructor
  · rintro ⟨binding, member, reads, allows⟩
    obtain ⟨scopePrefix, allowed, covered⟩ := exists_allowed_iff.mpr allows
    exact ⟨scopePrefix, mem_readable.mpr ⟨binding, member, reads, allowed⟩, covered⟩
  · rintro ⟨scopePrefix, collected, covered⟩
    obtain ⟨binding, member, reads, allowed⟩ := mem_readable.mp collected
    exact ⟨binding, member, reads, exists_allowed_iff.mp ⟨scopePrefix, allowed, covered⟩⟩

theorem restricted_iff : Restricted bindings path ↔
      ∃ readOnly ∈ (bindings.foldl addBinding {}).explicitReadOnly, covers path readOnly = true := by
  constructor
  · rintro ⟨binding, member, reads, ⟨mute, allows⟩ | ⟨readOnly, given, covered⟩⟩
    · obtain ⟨scopePrefix, allowed, covered⟩ := exists_allowed_iff.mpr allows
      exact ⟨scopePrefix, mem_explicitReadOnly.mpr ⟨binding, member, reads, .inl ⟨mute, allowed⟩⟩, covered⟩
    · exact ⟨readOnly, mem_explicitReadOnly.mpr ⟨binding, member, reads, .inr given⟩, covered⟩
  · rintro ⟨readOnly, collected, covered⟩
    obtain ⟨binding, member, reads, ⟨mute, allowed⟩ | given⟩ := mem_explicitReadOnly.mp collected
    · exact ⟨binding, member, reads, .inl ⟨mute, exists_allowed_iff.mp ⟨readOnly, allowed, covered⟩⟩⟩
    · exact ⟨binding, member, reads, .inr ⟨readOnly, given, covered⟩⟩

theorem readable_not_writable {scopePrefix : Text} (readable : scopePrefix ∈ (bindings.foldl addBinding {}).readable)
    (unwritable : scopePrefix ∉ (bindings.foldl addBinding {}).writable) :
    scopePrefix ∈ (bindings.foldl addBinding {}).explicitReadOnly := by
  obtain ⟨binding, member, reads, allowed⟩ := mem_readable.mp readable
  have mute : binding.writes = false := by
    rw [Bool.eq_false_iff]
    exact fun writes => unwritable (mem_writable.mpr ⟨binding, member, writes, allowed⟩)
  exact mem_explicitReadOnly.mpr ⟨binding, member, reads, .inl ⟨mute, allowed⟩⟩

theorem derived_readable :
    MakesReadable (mountSpec (deriveOrgFsMountContext bindings)) path ↔ MountReads bindings path := by
  rw [makesReadable_iff, mountReads_iff, deriveOrgFsMountContext]
  split
  · next empty =>
      rw [isEmpty_iff.mp empty]
      simp [noOrgFsMount, emptySpec]
  · simp only [Text.mem_sortedSet, and_iff_right_iff_imp]
    intro _
    split <;> exact OrgFsMountMode.noConfusion

theorem derived_writable : MakesWritable (mountSpec (deriveOrgFsMountContext bindings)) path ↔
      MountWrites bindings path ∧ ¬ Restricted bindings path := by
  rw [makesWritable_iff, restricted_iff, deriveOrgFsMountContext]
  split
  · next empty =>
      constructor
      · rintro ⟨mode, -⟩
        cases mode
      · rintro ⟨⟨binding, member, writes, allows⟩, -⟩
        have reads := mountReads_iff.mp ⟨binding, member, AccessBinding.reads_of_writes writes, allows⟩
        rw [isEmpty_iff.mp empty] at reads
        obtain ⟨scopePrefix, nowhere, -⟩ := reads
        cases nowhere
  · simp only [Text.mem_sortedSet]
    constructor
    · rintro ⟨-, ⟨scopePrefix, readable, covered⟩, free⟩
      have unrestricted : ¬ ∃ readOnly ∈ (bindings.foldl addBinding {}).explicitReadOnly,
          covers path readOnly = true := by
        rintro ⟨readOnly, collected, hit⟩
        exact free ⟨readOnly, mem_append_left _ collected, hit⟩
      refine ⟨?_, unrestricted⟩
      by_cases writable : scopePrefix ∈ (bindings.foldl addBinding {}).writable
      · obtain ⟨binding, member, writes, allowed⟩ := mem_writable.mp writable
        exact ⟨binding, member, writes, exists_allowed_iff.mp ⟨scopePrefix, allowed, covered⟩⟩
      · exact absurd ⟨scopePrefix, readable_not_writable readable writable, covered⟩ unrestricted
    · rintro ⟨⟨binding, member, writes, allows⟩, unrestricted⟩
      obtain ⟨scopePrefix, allowed, covered⟩ := exists_allowed_iff.mpr allows
      have writable := mem_writable.mpr ⟨binding, member, writes, allowed⟩
      have readable := mem_readable.mpr ⟨binding, member, AccessBinding.reads_of_writes writes, allowed⟩
      refine ⟨?_, ⟨scopePrefix, readable, covered⟩, ?_⟩
      · have some : (bindings.foldl addBinding {}).writable.isEmpty = false := by
          rw [Bool.eq_false_iff]
          intro empty
          rw [isEmpty_iff.mp empty] at writable
          cases writable
        rw [some]
        rfl
      · rintro ⟨readOnly, given, hit⟩
        rcases mem_append.mp given with collected | left
        · exact unrestricted ⟨readOnly, collected, hit⟩
        · obtain ⟨other, unwritten⟩ := mem_filter.mp left
          have unwritten : readOnly ∉ (bindings.foldl addBinding {}).writable := by simpa using unwritten
          exact unrestricted ⟨readOnly, readable_not_writable other unwritten, hit⟩

end

def readPermission : Text := "orgfs:read".toList

def writePermission : Text := "orgfs:write".toList

variable (bindings : List AccessBinding)

/-- A binding that carries the permission has a scope that admits the path. -/
def EvaluatorAdmits (permission : Text) (action : AccessResourceAction) (path : Text) : Prop :=
  ∃ binding ∈ bindings, permission ∈ binding.rolePermissions ∧
    (evaluateScope binding.scopeJson permission (some ⟨.orgfs, path, action⟩)).scopeMatched = true

def EvaluatorReads (path : Text) : Prop :=
  ∃ binding ∈ bindings, readPermission ∈ binding.rolePermissions ∧
    ∃ pattern ∈ binding.allowPatterns ++ binding.readOnlyPatterns, globCovers path pattern = true

def EvaluatorWrites (path : Text) : Prop :=
  ∃ binding ∈ bindings, writePermission ∈ binding.rolePermissions ∧
    ∃ pattern ∈ binding.allowPatterns, globCovers path pattern = true

theorem evaluateScope_orgfs {scope : Option AccessBindingScope} {permission : Text} {action : AccessResourceAction}
    (concerns : Access.permissionResourceType permission = some .orgfs) :
    (evaluateScope scope permission (some ⟨.orgfs, path, action⟩)).scopeMatched = true ↔
      (evaluatePrefixScope .orgfs (scope.bind AccessBindingScope.orgfs)
        (some ⟨.orgfs, path, action⟩)).scopeMatched = true := by
  cases scope with
  | none =>
    rw [evaluatePrefixScope_matched]
    simp [evaluateScope, concerns, Access.unmatched, Access.Covers]
  | some scope => simp [evaluateScope, concerns, Access.evaluateFacet]

theorem evaluatorReads_iff {bindings : List AccessBinding} :
    EvaluatorAdmits bindings readPermission .read path ↔ EvaluatorReads bindings path := by
  have concerns : Access.permissionResourceType readPermission = some .orgfs := by decide
  simp only [EvaluatorAdmits, EvaluatorReads, evaluateScope_orgfs concerns,
    evaluatePrefixScope_matched, true_and, Access.Covers, mem_append, or_and_right, exists_or,
    globCovers, AccessBinding.allowPatterns, AccessBinding.readOnlyPatterns]

theorem evaluatorWrites_iff {bindings : List AccessBinding} :
    EvaluatorAdmits bindings writePermission .write path ↔ EvaluatorWrites bindings path := by
  have concerns : Access.permissionResourceType writePermission = some .orgfs := by decide
  simp only [EvaluatorAdmits, EvaluatorWrites, evaluateScope_orgfs concerns,
    evaluatePrefixScope_matched, true_and, Access.Covers, reduceCtorEq, false_and, or_false,
    globCovers, AccessBinding.allowPatterns]

structure MountAgrees (bindings : List AccessBinding) (path : Text) : Prop where
  readable : MakesReadable (mountSpec (deriveOrgFsMountContext bindings)) path ↔
    EvaluatorAdmits bindings readPermission .read path
  writable : MakesWritable (mountSpec (deriveOrgFsMountContext bindings)) path ↔
    EvaluatorAdmits bindings writePermission .write path

/-- Where the two readings of a pattern part, another pattern makes up for it, and no
binding makes read-only what another one lets be written. -/
structure ReadingsMeet (bindings : List AccessBinding) (path : Text) : Prop where
  /-- The role has another permission than reading, or the pattern is no glob of the path. -/
  readOnlyInMount : ∀ binding ∈ bindings, binding.reads = true →
    ∀ pattern ∈ binding.allowPatterns, mountCovers path pattern = true →
      (readPermission ∉ binding.rolePermissions ∨ globCovers path pattern = false) → EvaluatorReads bindings path
  /-- The pattern is no mounted prefix of the path, or it is read-only. -/
  readOnlyInEvaluator : ∀ binding ∈ bindings, readPermission ∈ binding.rolePermissions →
    ∀ pattern ∈ binding.allowPatterns ++ binding.readOnlyPatterns, globCovers path pattern = true →
      (mountCovers path pattern = false ∨ pattern ∉ binding.allowPatterns) → MountReads bindings path
  /-- The role administers and does not write, or the pattern is no glob of the path. -/
  writeOnlyInMount : ∀ binding ∈ bindings, binding.writes = true →
    ∀ pattern ∈ binding.allowPatterns, mountCovers path pattern = true →
      (writePermission ∉ binding.rolePermissions ∨ globCovers path pattern = false) →
        Restricted bindings path ∨ EvaluatorWrites bindings path
  /-- The pattern is no mounted prefix of the path. -/
  writeOnlyInEvaluator : ∀ binding ∈ bindings, writePermission ∈ binding.rolePermissions →
    ∀ pattern ∈ binding.allowPatterns, globCovers path pattern = true →
      mountCovers path pattern = false → MountWrites bindings path
  /-- A binding without writing, or a read-only prefix, covers what another lets be written. -/
  overlap : ∀ binding ∈ bindings, binding.Restricts path →
    ∀ writer ∈ bindings, writePermission ∈ writer.rolePermissions →
      ∀ pattern ∈ writer.allowPatterns, globCovers path pattern = false

theorem AccessBinding.reads_of_permission (held : readPermission ∈ binding.rolePermissions) : binding.reads = true := by
  unfold AccessBinding.reads scopeHasOrgFsPermissions
  exact Bool.or_eq_true_iff.mpr (.inr (contains_iff_mem.mpr held))

theorem AccessBinding.writes_of_permission (held : writePermission ∈ binding.rolePermissions) :
    binding.writes = true := by
  unfold AccessBinding.writes scopeHasOrgFsPermissions
  exact Bool.or_eq_true_iff.mpr (.inl (contains_iff_mem.mpr held))

section

variable {bindings : List AccessBinding} {path : Text}

section

variable (meet : ReadingsMeet bindings path)
include meet

theorem mountReads_evaluated (reads : MountReads bindings path) : EvaluatorReads bindings path := by
  obtain ⟨binding, member, reads, pattern, given, covered⟩ := reads
  by_cases same : readPermission ∈ binding.rolePermissions ∧ globCovers path pattern = true
  · obtain ⟨held, hit⟩ := same
    exact ⟨binding, member, held, pattern, mem_append_left _ given, hit⟩
  · apply meet.readOnlyInMount binding member reads pattern given covered
    rwa [not_and_or, Bool.not_eq_true] at same

theorem evaluatorReads_mounted (reads : EvaluatorReads bindings path) : MountReads bindings path := by
  obtain ⟨binding, member, held, pattern, given, hit⟩ := reads
  by_cases same : mountCovers path pattern = true ∧ pattern ∈ binding.allowPatterns
  · obtain ⟨covered, allows⟩ := same
    exact ⟨binding, member, AccessBinding.reads_of_permission held, pattern, allows, covered⟩
  · apply meet.readOnlyInEvaluator binding member held pattern given hit
    rwa [not_and_or, Bool.not_eq_true] at same

theorem mountWrites_evaluated (writes : MountWrites bindings path) (free : ¬ Restricted bindings path) :
    EvaluatorWrites bindings path := by
  obtain ⟨binding, member, writes, pattern, given, covered⟩ := writes
  by_cases same : writePermission ∈ binding.rolePermissions ∧ globCovers path pattern = true
  · obtain ⟨held, hit⟩ := same
    exact ⟨binding, member, held, pattern, given, hit⟩
  · rw [not_and_or, Bool.not_eq_true] at same
    exact (meet.writeOnlyInMount binding member writes pattern given covered same).resolve_left free

theorem evaluatorWrites_mounted (writes : EvaluatorWrites bindings path) :
    MountWrites bindings path ∧ ¬ Restricted bindings path := by
  obtain ⟨binding, member, held, pattern, given, hit⟩ := writes
  constructor
  · by_cases covered : mountCovers path pattern = true
    · exact ⟨binding, member, AccessBinding.writes_of_permission held, pattern, given, covered⟩
    · exact meet.writeOnlyInEvaluator binding member held pattern given hit (Bool.not_eq_true _ ▸ covered)
  · rintro ⟨other, inBindings, restricts⟩
    have missed := meet.overlap other inBindings restricts binding member held pattern given
    rw [hit] at missed
    cases missed

end

/-- The mount lets a job reach what the evaluator admits exactly when the two readings of
the patterns make up for each other. -/
theorem mount_agrees_iff (bindings : List AccessBinding) (path : Text) :
    MountAgrees bindings path ↔ ReadingsMeet bindings path := by
  constructor
  · rintro ⟨readable, writable⟩
    rw [derived_readable, evaluatorReads_iff] at readable
    rw [derived_writable, evaluatorWrites_iff] at writable
    constructor
    · intro binding member reads pattern given covered _
      exact readable.mp ⟨binding, member, reads, pattern, given, covered⟩
    · intro binding member held pattern given hit _
      exact readable.mpr ⟨binding, member, held, pattern, given, hit⟩
    · intro binding member writes pattern given covered _
      by_cases restricted : Restricted bindings path
      · exact .inl restricted
      · exact .inr (writable.mp ⟨⟨binding, member, writes, pattern, given, covered⟩, restricted⟩)
    · intro binding member held pattern given hit _
      exact (writable.mpr ⟨binding, member, held, pattern, given, hit⟩).1
    · intro binding member restricts writer inBindings held pattern given
      rw [Bool.eq_false_iff]
      intro hit
      have written := writable.mpr ⟨writer, inBindings, held, pattern, given, hit⟩
      exact written.2 ⟨binding, member, restricts⟩
  · intro meet
    constructor
    · rw [derived_readable, evaluatorReads_iff]
      exact ⟨mountReads_evaluated meet, evaluatorReads_mounted meet⟩
    · rw [derived_writable, evaluatorWrites_iff]
      constructor
      · rintro ⟨writes, free⟩
        exact mountWrites_evaluated meet writes free
      · exact evaluatorWrites_mounted meet

end

def docsReader : AccessBinding where
  rolePermissions := ["orgfs:read".toList]
  scopeJson := some { orgfs := some { readOnlyPrefixes := some ["/docs/**".toList] } }

theorem read_only_scope_not_mounted : ¬ MountAgrees [docsReader] "/docs/a".toList := by
  intro agrees
  have admitted : EvaluatorAdmits [docsReader] readPermission .read "/docs/a".toList :=
    ⟨docsReader, mem_cons_self, mem_cons_self, by decide +kernel⟩
  obtain ⟨mounted, -⟩ := agrees.readable.mpr admitted
  exact mounted (by decide +kernel)

end EveHorizon.OrgFs
