import EveHorizon.Access.Scope
import EveHorizon.OrgFs.Mount

/-!
# The mount of a job

The orchestrator flattens the access bindings of a job's actor, or the scope of its token,
into one context; the worker reads the context as the spec of the job's mount.
-/

namespace EveHorizon.OrgFs

open List
open Access (AccessBindingScope PrefixScope)

structure AccessBinding where
  rolePermissions : List Text
  scopeJson : Option AccessBindingScope := none

abbrev OrgFsMountContext : Type := OrgFsMountSpec

def noOrgFsMount : OrgFsMountContext := emptySpec

def normalizeScopedPrefix (scopePrefix : Text) : Option Text :=
  let trimmed := Text.trim scopePrefix
  if trimmed.isEmpty then none
  else
    prefixOfBase (Text.endsWith wildcardEnding trimmed)
      (posixNormalize (rooted (rawPrefixBase trimmed)))

def matchesScopedPrefix (pathValue scopePrefix : Text) : Bool :=
  matchesPrefix pathValue scopePrefix

def normalizeScopedPrefixes (raw : Option (List Text)) : List Text :=
  Text.sortedSet ((raw.getD []).filterMap normalizeScopedPrefix)

structure OrgFsPermissions where
  read : Bool
  write : Bool

def scopeHasOrgFsPermissions (permissions : List Text) : OrgFsPermissions :=
  let write := permissions.contains "orgfs:write".toList || permissions.contains "orgfs:admin".toList
  { read := write || permissions.contains "orgfs:read".toList
    write := write }

structure MountSets where
  readable : List Text := []
  writable : List Text := []
  explicitReadOnly : List Text := []

def meetsAllowed (allowPrefixes : List Text) (readOnly : Text) : Bool :=
  allowPrefixes.any fun allow =>
    matchesScopedPrefix (scopePrefixBasePath readOnly) allow ||
      matchesScopedPrefix (scopePrefixBasePath allow) readOnly

def addBinding (sets : MountSets) (binding : AccessBinding) : MountSets :=
  let perms := scopeHasOrgFsPermissions binding.rolePermissions
  if perms.read then
    match binding.scopeJson.bind AccessBindingScope.orgfs with
    | none => sets
    | some orgfsScope =>
      let allowPrefixes := normalizeScopedPrefixes orgfsScope.allowPrefixes
      if allowPrefixes.isEmpty then sets
      else
        { readable := sets.readable ++ allowPrefixes
          writable := if perms.write then sets.writable ++ allowPrefixes else sets.writable
          explicitReadOnly :=
            (if perms.write then sets.explicitReadOnly
              else sets.explicitReadOnly ++ allowPrefixes) ++
            (normalizeScopedPrefixes orgfsScope.readOnlyPrefixes).filter
              (meetsAllowed allowPrefixes) }
  else sets

def deriveOrgFsMountContext (bindings : List AccessBinding) : OrgFsMountContext :=
  let sets := bindings.foldl addBinding {}
  if sets.readable.isEmpty then noOrgFsMount
  else
    { mode := if sets.writable.isEmpty then .read else .write
      allowPrefixes := Text.sortedSet sets.readable
      readOnlyPrefixes := Text.sortedSet
        (sets.explicitReadOnly ++ sets.readable.filter fun scopePrefix =>
          !sets.writable.contains scopePrefix) }

def deriveOrgFsMountContextFromTokenScope (scope : Option AccessBindingScope) : OrgFsMountContext :=
  match scope.bind AccessBindingScope.orgfs with
  | none => noOrgFsMount
  | some orgfsScope =>
    let allowPrefixes := normalizeScopedPrefixes orgfsScope.allowPrefixes
    let readOnlyPrefixes := normalizeScopedPrefixes orgfsScope.readOnlyPrefixes
    if allowPrefixes.isEmpty && readOnlyPrefixes.isEmpty then noOrgFsMount
    else
      { mode := if allowPrefixes.isEmpty then .read else .write
        allowPrefixes := Text.sortedSet (allowPrefixes ++ readOnlyPrefixes)
        readOnlyPrefixes := readOnlyPrefixes }

def OrgFsMountMode.name : OrgFsMountMode → Text
  | .none => "none".toList
  | .read => "read".toList
  | .write => "write".toList

@[simp] theorem mountMode_name (mode : OrgFsMountMode) : mountMode (some mode.name) = mode := by
  cases mode <;> decide

variable (context : OrgFsMountContext)

def OrgFsMountContext.raw : RawSpec :=
  .object (some context.mode.name) (.array (context.allowPrefixes.map some))
    (.array (context.readOnlyPrefixes.map some))

def mountSpec : OrgFsMountSpec :=
  normalizeOrgFsMountSpec (OrgFsMountContext.raw context)

def MakesReadable (spec : OrgFsMountSpec) (path : Text) : Prop :=
  spec.mode ≠ .none ∧ ∃ scopePrefix ∈ spec.allowPrefixes, matchesPrefix path scopePrefix = true

/-- The mount allows writing and no read-only prefix covers the path. -/
def MakesWritable (spec : OrgFsMountSpec) (path : Text) : Prop :=
  spec.mode = .write ∧ (∃ scopePrefix ∈ spec.allowPrefixes, matchesPrefix path scopePrefix = true) ∧
    ∀ readOnly ∈ spec.readOnlyPrefixes, matchesPrefix path readOnly = false

def covers (path scopePrefix : Text) : Bool := (normalizePrefix scopePrefix).any (matchesPrefix path ·)

variable {path scopePrefix : Text}

theorem covers_iff : covers path scopePrefix = true ↔ ∃ normalized, normalizePrefix scopePrefix = some normalized ∧
        matchesPrefix path normalized = true := by
  rw [covers, Option.any_eq_true]

theorem matchesPrefix_iff :
    matchesPrefix path scopePrefix = true ↔ scopePrefix = wildcardEnding ∨ path = scopePrefixBasePath scopePrefix ∨
        scopePrefixBasePath scopePrefix ++ ['/'] <+: path := by
  unfold matchesPrefix
  by_cases whole : scopePrefix = wildcardEnding
  · simp [whole]
  · simp [whole, Text.startsWith]

theorem bases_meet {first second : Text} (toFirst : path = first ∨ first ++ ['/'] <+: path)
    (toSecond : path = second ∨ second ++ ['/'] <+: path) :
    (first = second ∨ second ++ ['/'] <+: first) ∨ second = first ∨ first ++ ['/'] <+: second := by
  rcases toFirst with rfl | below
  · exact .inl toSecond
  · rcases toSecond with rfl | beyond
    · exact .inr (.inr below)
    · rcases Nat.lt_trichotomy first.length second.length with shorter | same | longer
      · have whole : second <+: path := (prefix_append second ['/']).trans beyond
        refine .inr (.inr (prefix_of_prefix_length_le below whole ?_))
        rw [length_append, length_singleton]
        omega
      · have leading : first <+: path := (prefix_append first ['/']).trans below
        have other : second <+: path := (prefix_append second ['/']).trans beyond
        have within := prefix_of_prefix_length_le leading other same.le
        exact .inl (.inl (within.eq_of_length same))
      · have whole : first <+: path := (prefix_append first ['/']).trans below
        refine .inl (.inr (prefix_of_prefix_length_le beyond whole ?_))
        rw [length_append, length_singleton]
        omega

theorem intersectsPrefix_of_matches {a b : Text} (first : matchesPrefix path a = true)
    (second : matchesPrefix path b = true) : intersectsPrefix a b = true := by
  rw [intersectsPrefix, Bool.or_eq_true, matchesPrefix_iff, matchesPrefix_iff]
  rcases matchesPrefix_iff.mp first with whole | toFirst
  · exact .inr (.inl whole)
  · rcases matchesPrefix_iff.mp second with whole | toSecond
    · exact .inl (.inl whole)
    · exact (bases_meet toFirst toSecond).imp .inr .inr

variable {prefixes : List Text}

theorem mem_normalizePrefixList {normalized : Text} :
    normalized ∈ normalizePrefixList (.array (prefixes.map some)) ↔
      ∃ scopePrefix ∈ prefixes, normalizePrefix scopePrefix = some normalized := by
  simp [normalizePrefixList]

theorem exists_covers_iff :
    (∃ normalized ∈ normalizePrefixList (.array (prefixes.map some)), matchesPrefix path normalized = true) ↔
      ∃ scopePrefix ∈ prefixes, covers path scopePrefix = true := by
  constructor
  · rintro ⟨normalized, member, hit⟩
    obtain ⟨scopePrefix, given, found⟩ := mem_normalizePrefixList.mp member
    exact ⟨scopePrefix, given, covers_iff.mpr ⟨normalized, found, hit⟩⟩
  · rintro ⟨scopePrefix, given, hit⟩
    obtain ⟨normalized, found, hit⟩ := covers_iff.mp hit
    exact ⟨normalized, mem_normalizePrefixList.mpr ⟨scopePrefix, given, found⟩, hit⟩

theorem mountSpec_eq : mountSpec context =
      if context.mode = .none ∨
          (normalizePrefixList (.array (context.allowPrefixes.map some))).isEmpty = true then emptySpec
      else
        { mode := context.mode
          allowPrefixes := normalizePrefixList (.array (context.allowPrefixes.map some))
          readOnlyPrefixes :=
            (normalizePrefixList (.array (context.readOnlyPrefixes.map some))).filter fun readOnly =>
              (normalizePrefixList (.array (context.allowPrefixes.map some))).any
                (intersectsPrefix readOnly ·) } := by
  simp only [mountSpec, OrgFsMountContext.raw, normalizeOrgFsMountSpec, mountMode_name, Bool.or_eq_true,
    decide_eq_true_eq]

theorem makesReadable_iff {context : OrgFsMountContext} : MakesReadable (mountSpec context) path ↔
      context.mode ≠ .none ∧ ∃ scopePrefix ∈ context.allowPrefixes, covers path scopePrefix = true := by
  rw [MakesReadable, mountSpec_eq, ← exists_covers_iff]
  split
  · next without =>
      constructor
      · rintro ⟨mode, -⟩
        exact absurd rfl mode
      · rintro ⟨mode, normalized, member, -⟩
        rcases without with none | empty
        · exact absurd none mode
        · rw [isEmpty_iff.mp empty] at member
          cases member
  · rfl

theorem makesWritable_iff {context : OrgFsMountContext} : MakesWritable (mountSpec context) path ↔
      context.mode = .write ∧ (∃ scopePrefix ∈ context.allowPrefixes, covers path scopePrefix = true) ∧
        ¬ ∃ readOnly ∈ context.readOnlyPrefixes, covers path readOnly = true := by
  rw [MakesWritable, mountSpec_eq, ← exists_covers_iff, ← exists_covers_iff]
  split
  · next without =>
      constructor
      · rintro ⟨mode, -⟩
        cases mode
      · rintro ⟨mode, ⟨normalized, member, -⟩, -⟩
        rcases without with none | empty
        · rw [mode] at none
          cases none
        · rw [isEmpty_iff.mp empty] at member
          cases member
  · constructor
    · rintro ⟨mode, ⟨allow, member, hit⟩, free⟩
      refine ⟨mode, ⟨allow, member, hit⟩, ?_⟩
      rintro ⟨readOnly, given, covered⟩
      have kept := free readOnly (mem_filter.mpr ⟨given, any_eq_true.mpr
        ⟨allow, member, intersectsPrefix_of_matches covered hit⟩⟩)
      rw [covered] at kept
      cases kept
    · rintro ⟨mode, allowed, free⟩
      refine ⟨mode, allowed, fun readOnly member => ?_⟩
      rw [Bool.eq_false_iff]
      exact fun covered => free ⟨readOnly, (mem_filter.mp member).1, covered⟩

variable (binding : AccessBinding)

def AccessBinding.allowed : List Text :=
  normalizeScopedPrefixes
    ((binding.scopeJson.bind AccessBindingScope.orgfs).bind PrefixScope.allowPrefixes)

def AccessBinding.readOnly : List Text :=
  (normalizeScopedPrefixes ((binding.scopeJson.bind AccessBindingScope.orgfs).bind PrefixScope.readOnlyPrefixes)).filter
      (meetsAllowed binding.allowed)

def AccessBinding.reads : Bool :=
  (scopeHasOrgFsPermissions binding.rolePermissions).read

def AccessBinding.writes : Bool :=
  (scopeHasOrgFsPermissions binding.rolePermissions).write

theorem AccessBinding.reads_of_writes {binding : AccessBinding} (writes : binding.writes = true) :
    binding.reads = true := by
  unfold AccessBinding.reads scopeHasOrgFsPermissions
  exact Bool.or_eq_true_iff.mpr (.inl writes)

theorem AccessBinding.readOnly_of_empty {binding : AccessBinding} (empty : binding.allowed = []) :
    binding.readOnly = [] := by
  rw [AccessBinding.readOnly, empty, filter_eq_nil_iff]
  intro scopePrefix _
  simp [meetsAllowed]

theorem addBinding_eq (sets : MountSets) (binding : AccessBinding) : addBinding sets binding =
      if binding.reads then
        { readable := sets.readable ++ binding.allowed
          writable := sets.writable ++ if binding.writes then binding.allowed else []
          explicitReadOnly :=
            sets.explicitReadOnly ++ (if binding.writes then [] else binding.allowed) ++
              binding.readOnly }
      else sets := by
  unfold addBinding
  change (if binding.reads = true then _ else _) = _
  split
  · cases found : binding.scopeJson.bind AccessBindingScope.orgfs with
    | none =>
      have empty : binding.allowed = [] := by
        rw [AccessBinding.allowed, found]
        rfl
      simp [empty, AccessBinding.readOnly_of_empty empty]
    | some orgfsScope =>
      have allowed : normalizeScopedPrefixes orgfsScope.allowPrefixes = binding.allowed := by
        rw [AccessBinding.allowed, found]
        rfl
      have readOnly : (normalizeScopedPrefixes orgfsScope.readOnlyPrefixes).filter
          (meetsAllowed binding.allowed) = binding.readOnly := by
        rw [AccessBinding.readOnly, found]
        rfl
      simp only [allowed, readOnly]
      split
      · next empty =>
          have empty := isEmpty_iff.mp empty
          simp [empty, AccessBinding.readOnly_of_empty empty]
      · change MountSets.mk _ (if binding.writes = true then _ else _)
          ((if binding.writes = true then _ else _) ++ _) = _
        split <;> simp
  · rfl

theorem mem_foldl {Item State : Type} {step : State → Item → State} {collected : State → List Text}
    {entry : Text} (contributes : Item → Prop) (each : ∀ state item, entry ∈ collected (step state item) ↔
      entry ∈ collected state ∨ contributes item) (items : List Item) (state : State) :
    entry ∈ collected (items.foldl step state) ↔ entry ∈ collected state ∨ ∃ item ∈ items, contributes item := by
  induction items generalizing state with
  | nil => simp
  | cons item items ih => rw [foldl_cons, ih, each, exists_mem_cons_iff, or_assoc]

variable {bindings : List AccessBinding}

theorem mem_readable : scopePrefix ∈ (bindings.foldl addBinding {}).readable ↔
      ∃ binding ∈ bindings, binding.reads = true ∧ scopePrefix ∈ binding.allowed := by
  rw [mem_foldl fun binding => binding.reads = true ∧ scopePrefix ∈ binding.allowed]
  · simp
  · intro sets binding
    rw [addBinding_eq]
    split <;> simp [*]

theorem mem_writable : scopePrefix ∈ (bindings.foldl addBinding {}).writable ↔
      ∃ binding ∈ bindings, binding.writes = true ∧ scopePrefix ∈ binding.allowed := by
  rw [mem_foldl fun binding => binding.writes = true ∧ scopePrefix ∈ binding.allowed]
  · simp
  · intro sets binding
    rw [addBinding_eq]
    split
    · split <;> simp [*]
    · next blind =>
        have mute : binding.writes ≠ true := fun writes => blind (AccessBinding.reads_of_writes writes)
        simp [mute]

theorem mem_explicitReadOnly :
    scopePrefix ∈ (bindings.foldl addBinding {}).explicitReadOnly ↔ ∃ binding ∈ bindings, binding.reads = true ∧
        ((binding.writes = false ∧ scopePrefix ∈ binding.allowed) ∨ scopePrefix ∈ binding.readOnly) := by
  rw [mem_foldl fun binding => binding.reads = true ∧
    ((binding.writes = false ∧ scopePrefix ∈ binding.allowed) ∨ scopePrefix ∈ binding.readOnly)]
  · simp
  · intro sets binding
    rw [addBinding_eq]
    split
    · split <;> simp [*]
    · simp [*]

end EveHorizon.OrgFs
