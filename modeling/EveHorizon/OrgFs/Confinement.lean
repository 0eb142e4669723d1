import EveHorizon.OrgFs.Untouched

/-!
# What a mount gives access to

Paths of the mount lead to what the prefixes of its spec cover, and writes through the
mount reach the org's files behind the prefixes that are mounted as links.
-/

namespace EveHorizon.OrgFs

open FileSystem List

def Under (scopePrefix : Text) (path : Path) : Prop := baseNames scopePrefix <+: path

def Visible (tree : Tree) (workspacePath path : Path) : Prop :=
  (stat tree (mountTarget workspacePath ++ path)).isOk = true

def WriteReaches (tree : Tree) (workspacePath orgRoot path file : Path) : Prop :=
  locate tree (mountTarget workspacePath ++ path) = .ok (orgRoot ++ file)

def DeclaresWritable (spec : OrgFsMountSpec) (path : Path) : Prop :=
  spec.mode = .write ∧ ∀ readOnly ∈ spec.readOnlyPrefixes, matchesPrefix (pathText path) readOnly = false

/-- Only paths under the prefixes are visible, only files under allow prefixes are written,
and under a read-only prefix only what is declared writable. -/
structure Confined (spec : OrgFsMountSpec) (tree : Tree) (workspacePath orgRoot : Path) : Prop where
  visible : ∀ path, CleanPath path → Visible tree workspacePath path →
    ∃ scopePrefix ∈ spec.allowPrefixes ++ spec.readOnlyPrefixes, Under scopePrefix path
  writes : ∀ path file, CleanPath path → WriteReaches tree workspacePath orgRoot path file →
    ∃ scopePrefix ∈ spec.allowPrefixes, Under scopePrefix file
  readOnly : ∀ path file, CleanPath path → WriteReaches tree workspacePath orgRoot path file →
    (∃ scopePrefix ∈ spec.readOnlyPrefixes, Under scopePrefix file) → DeclaresWritable spec file

def OrgUnlinked (start : Tree) (orgRoot path : Path) : Prop :=
  ∀ leading, leading <+: path → ∀ target, start (orgRoot ++ leading) ≠ some (.link target)

/-- Visible are the paths under allow prefixes and the directories on the way to them. A
write at a path of the mount reaches the org only under an allow prefix; it reaches the
file of that path unless a link of the org leads elsewhere, and the file is one that is
declared writable. -/
structure ConfinedPaths (spec : OrgFsMountSpec) (start tree : Tree) (workspacePath orgRoot : Path) : Prop where
  visible : ∀ path, CleanPath path → Visible tree workspacePath path → path = [] ∨
    ∃ scopePrefix ∈ spec.allowPrefixes, Under scopePrefix path ∨ path <+: baseNames scopePrefix
  writes : ∀ path file, CleanPath path → WriteReaches tree workspacePath orgRoot path file →
    (∃ scopePrefix ∈ spec.allowPrefixes, Under scopePrefix path) ∧
      (OrgUnlinked start orgRoot path → file = path ∧ DeclaresWritable spec path)

def ReadOnlyOutside (spec : OrgFsMountSpec) : Prop :=
  ∀ scopePrefix ∈ spec.allowPrefixes, Linked spec scopePrefix →
    ∀ readOnly ∈ spec.readOnlyPrefixes, matchesPrefix (scopePrefixBasePath readOnly) scopePrefix = false

section

variable {spec : OrgFsMountSpec} {start tree : Tree} {workspacePath orgRoot : Path}
variable {mounted : List Text}

section

variable (apart : Apart start workspacePath orgRoot)
include apart

section

variable (contained : Contained spec start workspacePath orgRoot mounted tree)
include contained

theorem first_link (path : Path) :
    Unlinked tree (mountTarget workspacePath ++ path) ∨ ∃ leading rest target, path = leading ++ rest ∧
        tree (mountTarget workspacePath ++ leading) = some (.link target) ∧
        Unlinked tree (mountTarget workspacePath ++ leading).dropLast ∧
        ∃ scopePrefix ∈ mounted, LinkOf spec start orgRoot scopePrefix leading target := by
  rcases unlinked_or_first_link tree (mountTarget workspacePath ++ path) with
    unlinked | ⟨leading, rest, target, split, nonempty, link, before⟩
  · exact .inl unlinked
  · have within : leading <+: mountTarget workspacePath ++ path := ⟨rest, split.symm⟩
    have inMount : mountTarget workspacePath <+: leading := by
      rcases prefix_or_prefix_of_prefix within (prefix_append _ _) with above | below
      · rcases prefix_concat_iff.mp above with same | inWorkspace
        · rw [same]
          exact prefix_refl _
        · obtain ⟨mode, directory⟩ := workspace_directory apart contained inWorkspace nonempty
          rw [directory] at link
          cases link
      · exact below
    obtain ⟨inside, rfl⟩ := inMount
    rw [append_assoc] at split
    have source := contained.inside inside
    rw [link] at source
    exact .inr ⟨inside, rest, target, append_cancel_left split, link, before, source.2 target rfl⟩

variable {path : Path}

theorem visible_confined (clean : CleanPath path) (visible : Visible tree workspacePath path) : path = [] ∨
      ∃ scopePrefix ∈ mounted, Under scopePrefix path ∨ path <+: baseNames scopePrefix := by
  rcases first_link apart contained path with
    unlinked | ⟨leading, rest, target, rfl, -, -, scopePrefix, member, below, rfl, -⟩
  · unfold Visible stat at visible
    cases located : locate tree (mountTarget workspacePath ++ path) with
    | error _ =>
      rw [located] at visible
      cases visible
    | ok location =>
      cases locate_unlinked (mountTarget_ordinary apart clean) unlinked located
      rw [located] at visible
      have present := contained.inside path
      cases here : tree (mountTarget workspacePath ++ path) with
      | none =>
        have lookup : tree.lookup (mountTarget workspacePath ++ path) = none := by
          cases whole : mountTarget workspacePath ++ path with
          | nil => simp [mountTarget] at whole
          | cons name names => rw [← here, whole]; rfl
        simp [bind, Except.bind, lookup] at visible
        cases visible
      | some entry =>
        rw [here] at present
        exact present.1
  · exact .inr ⟨scopePrefix, member, .inl ⟨below ++ rest, by simp⟩⟩

omit contained in
theorem org_ordinary (clean : CleanPath path) : Ordinary (orgRoot ++ path) := by
  intro name member
  rcases mem_append.mp member with inOrg | inPath
  · exact apart.orgOrdinary name inOrg
  · exact clean.ordinary name inPath

omit contained in
theorem org_unlinked (unlinked : OrgUnlinked start orgRoot path) : Unlinked start (orgRoot ++ path) := by
  intro leading within nonempty target
  rcases prefix_or_prefix_of_prefix within (prefix_append _ _) with above | ⟨rest, rfl⟩
  · exact apart.orgUnlinked leading above nonempty target
  · exact unlinked rest ((prefix_append_right_inj _).mp within) target

theorem org_unlinked_now (unlinked : OrgUnlinked start orgRoot path) : Unlinked tree (orgRoot ++ path) := by
  intro leading within nonempty target
  have outside : ¬ mountTarget workspacePath <+: leading := by
    intro inMount
    exact org_outside apart (prefix_append orgRoot path) (inMount.trans within)
  rw [contained.outside leading outside]
  exact org_unlinked apart unlinked leading within nonempty target

variable {file : Path}

theorem write_under (clean : CleanPath path) (reaches : WriteReaches tree workspacePath orgRoot path file) :
    ∃ scopePrefix ∈ mounted, Under scopePrefix path := by
  rcases first_link apart contained path with
    unlinked | ⟨leading, rest, target, rfl, -, -, scopePrefix, member, below, rfl, -⟩
  · have here := locate_unlinked (mountTarget_ordinary apart clean) unlinked reaches
    exact absurd ⟨path, here.symm⟩ (org_outside apart (prefix_append orgRoot file))
  · exact ⟨scopePrefix, member, ⟨below ++ rest, by simp⟩⟩

theorem write_direct (clean : CleanPath path) (reaches : WriteReaches tree workspacePath orgRoot path file)
    (unlinked : OrgUnlinked start orgRoot path) :
    file = path ∧ ∃ scopePrefix ∈ mounted, Linked spec scopePrefix ∧ Under scopePrefix path := by
  rcases first_link apart contained path with
    free | ⟨leading, rest, target, rfl, link, before, scopePrefix, member, below, rfl, source⟩
  · have here := locate_unlinked (mountTarget_ordinary apart clean) free reaches
    exact absurd ⟨path, here.symm⟩ (org_outside apart (prefix_append orgRoot file))
  · rcases source with ⟨linked, rfl, rfl⟩ | ⟨origin, original, placed, kept⟩
    · refine ⟨?_, scopePrefix, member, linked, ⟨rest, by simp⟩⟩
      rw [append_nil] at link before reaches unlinked clean ⊢
      have leadingClean : CleanPath (baseNames scopePrefix) := fun name member => clean name (mem_append_left _ member)
      unfold WriteReaches locate linkLimit at reaches
      rw [← append_assoc] at reaches
      have onward := follow_at_link (mountTarget_ordinary apart leadingClean)
        (by simp [mountTarget]) before link reaches
      rw [append_assoc] at onward
      have here := follow_unlinked (org_ordinary apart clean) (org_unlinked_now apart contained unlinked) onward
      exact append_cancel_left here
    · -- the org has a link at the same path
      have onPath : baseNames scopePrefix <+: baseNames scopePrefix ++ below ++ rest := ⟨below ++ rest, by simp⟩
      have baseClean : CleanPath (baseNames scopePrefix) := fun name member => clean name (onPath.subset member)
      have baseUnlinked : Unlinked start (orgRoot ++ baseNames scopePrefix) :=
        org_unlinked apart fun shorter within => unlinked shorter (within.trans onPath)
      have here := place_unlinked (org_ordinary apart baseClean)
        (baseUnlinked.of_prefix (List.dropLast_prefix _)) placed
      rw [here, append_assoc] at kept
      exact absurd kept (unlinked _ (prefix_append _ _) original)

end

end

theorem joined_starts (path : Path) : joined path = [] ∨ ∃ rest, joined path = '/' :: rest := by
  cases path with
  | nil => exact .inl rfl
  | cons name path => exact .inr ⟨name ++ joined path, rfl⟩

variable {scopePrefix : Text}

theorem matchesPrefix_of_base {pathValue : Text} (named : scopePrefix ≠ wildcardEnding) :
    matchesPrefix pathValue scopePrefix = true ↔ pathValue = scopePrefixBasePath scopePrefix ∨
        scopePrefixBasePath scopePrefix ++ ['/'] <+: pathValue := by
  simp [matchesPrefix, named, Text.startsWith]

theorem covers_base_or_below {base rest : Text} {readOnly : Text} (boundary : rest = [] ∨ ∃ tail, rest = '/' :: tail)
    (covers : matchesPrefix (base ++ rest) readOnly = true) : matchesPrefix base readOnly = true ∨
      scopePrefixBasePath readOnly = base ∨ base ++ ['/'] <+: scopePrefixBasePath readOnly := by
  by_cases any : readOnly = wildcardEnding
  · subst any
    exact .inl (by simp [matchesPrefix])
  · rw [matchesPrefix_of_base any] at covers ⊢
    have above : scopePrefixBasePath readOnly <+: base ++ rest := by
      rcases covers with same | longer
      · exact same ▸ prefix_refl _
      · exact (prefix_append _ _).trans longer
    rcases prefix_or_prefix_of_prefix above (prefix_append base rest) with shorter | ⟨tail, longer⟩
    · rcases covers with same | covers
      · -- the prefix is the path itself, so nothing stands behind the base
        have lengths := shorter.length_le
        rw [← same, length_append] at lengths
        have empty : rest = [] := eq_nil_of_length_eq_zero (by omega)
        rw [empty, append_nil] at same
        exact .inl (.inl same)
      · rcases prefix_or_prefix_of_prefix covers (prefix_append base rest) with
          within | ⟨tail, exceeds⟩
        · exact .inl (.inr within)
        · have lengths := shorter.length_le
          have total := congrArg List.length exceeds
          simp only [length_append, length_singleton] at total
          by_cases level : (scopePrefixBasePath readOnly).length = base.length
          · exact .inr (.inl (shorter.eq_of_length level))
          · have empty : tail = [] := eq_nil_of_length_eq_zero (by omega)
            rw [empty, append_nil] at exceeds
            exact .inl (.inr (exceeds ▸ prefix_refl _))
    · by_cases level : tail = []
      · rw [level, append_nil] at longer
        exact .inr (.inl longer.symm)
      · right
        right
        rw [← longer] at above ⊢
        have onward := (prefix_append_right_inj base).mp above
        rcases boundary with empty | ⟨more, slashed⟩
        · rw [empty, prefix_nil] at onward
          exact absurd onward level
        · cases tail with
          | nil => exact absurd rfl level
          | cons first tail =>
            rw [slashed, cons_prefix_cons] at onward
            rw [onward.1]
            exact ⟨tail, by simp⟩

theorem mode_of_member {rawSpec : RawSpec} (member : scopePrefix ∈ (normalizeOrgFsMountSpec rawSpec).allowPrefixes) :
    (normalizeOrgFsMountSpec rawSpec).mode ≠ .none := by
  cases rawSpec with
  | notObject => cases member
  | object mode allowPrefixes readOnlyPrefixes =>
    simp only [normalizeOrgFsMountSpec] at member ⊢
    split at member
    · cases member
    · next active =>
        rw [if_neg active]
        simp only [Bool.or_eq_true, decide_eq_true_eq, not_or] at active
        exact active.1

theorem linked_declaresWritable (normal : NormalBase (scopePrefixBasePath scopePrefix))
    (active : spec.mode ≠ .none) (member : scopePrefix ∈ spec.allowPrefixes)
    (linked : Linked spec scopePrefix) (outside : ReadOnlyOutside spec)
    (under : Under scopePrefix path) : DeclaresWritable spec path := by
  have writable := linked.writable
  unfold prefixMode at writable
  split at writable
  · cases writable
  · next notRead =>
      split at writable
      · cases writable
      · next uncovered =>
          constructor
          · cases mode : spec.mode with
            | none => exact absurd mode active
            | read => exact absurd mode notRead
            | write => rfl
          · intro readOnly inReadOnly
            by_contra covered
            rw [Bool.not_eq_false] at covered
            by_cases root : baseNames scopePrefix = []
            · rw [(linked.root root).2] at inReadOnly
              cases inReadOnly
            · have base : scopePrefixBasePath scopePrefix = joined (baseNames scopePrefix) := by
                rw [normal.eq_pathText (linked.slashless root)]
                exact pathText_eq_joined root
              obtain ⟨rest, rfl⟩ := under
              have text : pathText (baseNames scopePrefix ++ rest) =
                  scopePrefixBasePath scopePrefix ++ joined rest := by
                rw [pathText_eq_joined (by simp [root]), joined_append, base]
              rw [text] at covered
              have named : scopePrefix ≠ wildcardEnding := by
                rintro rfl
                exact root rootNames
              rcases covers_base_or_below (joined_starts rest) covered with above | inside
              · exact uncovered (any_eq_true.mpr ⟨readOnly, inReadOnly, above⟩)
              · have within := (matchesPrefix_of_base named).mpr inside
                rw [outside scopePrefix member linked readOnly inReadOnly] at within
                cases within

/-- A mount gives access to what its prefixes cover, for every org and every spec in which
no prefix clashes with an earlier one and no read-only prefix lies within a linked one. -/
theorem mount_confines_paths {rawSpec : RawSpec} (apart : Apart start workspacePath orgRoot)
    (noClash : NoClash (normalizeOrgFsMountSpec rawSpec) start orgRoot)
    (outside : ReadOnlyOutside (normalizeOrgFsMountSpec rawSpec)) :
    ConfinedPaths (normalizeOrgFsMountSpec rawSpec) start
      (materializeScopedOrgFsMount workspacePath orgRoot rawSpec start).2 workspacePath orgRoot := by
  have contained := materialize_contained apart noClash
  constructor
  · intro path clean visible
    exact visible_confined apart contained clean visible
  · intro path file clean reaches
    refine ⟨write_under apart contained clean reaches, ?_⟩
    intro unlinked
    obtain ⟨same, scopePrefix, member, linked, under⟩ := write_direct apart contained clean reaches unlinked
    exact ⟨same, linked_declaresWritable (allowPrefixes_normal member) (mode_of_member member)
      member linked outside under⟩

end

theorem split_mount_confines_paths : ConfinedPaths (normalizeOrgFsMountSpec splitSpec) (Tree.ofList twoDirectories)
      (materializeScopedOrgFsMount workPath orgPath splitSpec (Tree.ofList twoDirectories)).2 workPath orgPath := by
  apply mount_confines_paths
  · exact apart_ofList (by decide) (by decide +kernel)
  · exact split_noClash
  · have allow : (normalizeOrgFsMountSpec splitSpec).allowPrefixes =
        ["/a/**".toList, "/c/**".toList] := by decide +kernel
    have readOnly : (normalizeOrgFsMountSpec splitSpec).readOnlyPrefixes = ["/c/**".toList] := by
      decide +kernel
    intro scopePrefix member linked covered inReadOnly
    rw [readOnly, mem_singleton] at inReadOnly
    subst inReadOnly
    rw [allow] at member
    rcases mem_cons.mp member with rfl | rest
    · decide +kernel
    · cases mem_singleton.mp rest
      exact absurd linked.writable (by decide +kernel)

def nestedSpec : RawSpec := writeSpec ["/a/b/**"] []

def nestedDirectory : List (Path × Entry) :=
  [(pathOf ["work"], .directory 0o755), (pathOf ["org"], .directory 0o755),
    (pathOf ["org", "a"], .directory 0o755), (pathOf ["org", "a", "b"], .directory 0o755)]

def linkedSpec : RawSpec := writeSpec ["/a/**"] []

def linkedDirectory : List (Path × Entry) :=
  [(pathOf ["work"], .directory 0o755), (pathOf ["org"], .directory 0o755), (pathOf ["org", "a"], .directory 0o755),
    (pathOf ["org", "a", "x"], .link ⟨true, pathOf ["org", "s"]⟩),
    (pathOf ["org", "s"], .directory 0o755), (pathOf ["org", "s", "f"], .file "x".toList 0o644)]

/-- A directory on the way to a prefix is visible, and a link of the org leads a write out
of the prefix. -/
theorem mount_shows_ancestor_and_follows_link : ¬ Confined (normalizeOrgFsMountSpec nestedSpec)
        (materializeScopedOrgFsMount workPath orgPath nestedSpec (Tree.ofList nestedDirectory)).2 workPath orgPath ∧
      ¬ Confined (normalizeOrgFsMountSpec linkedSpec)
        (materializeScopedOrgFsMount workPath orgPath linkedSpec (Tree.ofList linkedDirectory)).2 workPath orgPath := by
  constructor
  · intro confined
    obtain ⟨scopePrefix, member, under⟩ := confined.visible (pathOf ["a"])
      (by unfold CleanPath CleanName; decide) (by unfold Visible; decide +kernel)
    have prefixes : (normalizeOrgFsMountSpec nestedSpec).allowPrefixes ++
        (normalizeOrgFsMountSpec nestedSpec).readOnlyPrefixes = ["/a/b/**".toList] := by
      decide +kernel
    rw [prefixes, mem_singleton] at member
    subst member
    exact absurd under (by unfold Under; decide +kernel)
  · intro confined
    obtain ⟨scopePrefix, member, under⟩ := confined.writes (pathOf ["a", "x", "f"])
      (pathOf ["s", "f"]) (by unfold CleanPath CleanName; decide)
      (by unfold WriteReaches; decide +kernel)
    have prefixes : (normalizeOrgFsMountSpec linkedSpec).allowPrefixes = ["/a/**".toList] := by
      decide +kernel
    rw [prefixes, mem_singleton] at member
    subst member
    exact absurd under (by unfold Under; decide +kernel)

end EveHorizon.OrgFs
