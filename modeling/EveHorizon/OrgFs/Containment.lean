import EveHorizon.OrgFs.Prefixes

/-!
# What a mount changes

As long as no prefix is mounted through a link that an earlier one has left, everything
outside the mount directory stays as it was, and every link in it comes from one of the
mounted prefixes.
-/

namespace EveHorizon.OrgFs

open FileSystem List

def mountTarget (workspacePath : Path) : Path := workspacePath ++ [".org".toList]

def baseNames (scopePrefix : Text) : Path := names (scopePrefixBasePath scopePrefix)

def AgreeOutside (directory : Path) (tree other : Tree) : Prop :=
  ∀ path, ¬ directory <+: path → tree path = other path

/-- A path leads to the same place outside the mount directory, whatever that holds. -/
structure Settled (start : Tree) (target path : Path) : Prop where
  same : ∀ tree, AgreeOutside target tree start →
    locate tree path = locate start path ∧ place tree path = place start path
  located : ∀ location, locate start path = .ok location → ¬ target <+: location
  placed : ∀ location, place start path = .ok location → ¬ target <+: location

/-- The workspace is a directory that is reached without links. The org's root is reached
without links, and no path of the org leads into the mount directory. -/
structure Apart (tree : Tree) (workspacePath orgRoot : Path) : Prop where
  workspaceOrdinary : Ordinary workspacePath
  workspace : ∀ leading, leading <+: workspacePath → leading ≠ [] → ∃ mode, tree leading = some (.directory mode)
  orgOrdinary : Ordinary orgRoot
  orgUnlinked : Unlinked tree orgRoot
  mountOutside : ¬ orgRoot <+: mountTarget workspacePath
  orgOutside : ¬ mountTarget workspacePath <+: orgRoot
  settled : ∀ base, CleanPath base → Settled tree (mountTarget workspacePath) (orgRoot ++ base)

theorem settled_of_unlinked {tree : Tree} {orgRoot target : Path} (orgOrdinary : Ordinary orgRoot)
    (orgUnlinked : Unlinked tree orgRoot) (noLinks : ∀ base target, tree (orgRoot ++ base) ≠ some (.link target))
    (outside : ∀ base, ¬ target <+: orgRoot ++ base) {base : Path} (clean : CleanPath base) :
    Settled tree target (orgRoot ++ base) := by
  have ordinary : Ordinary (orgRoot ++ base) := by
    intro name member
    rcases mem_append.mp member with inOrg | inBase
    · exact orgOrdinary name inOrg
    · exact clean.ordinary name inBase
  have unlinked : Unlinked tree (orgRoot ++ base) := by
    intro leading within nonempty link
    rcases prefix_or_prefix_of_prefix within (prefix_append _ _) with above | ⟨rest, rfl⟩
    · exact orgUnlinked leading above nonempty link
    · exact noLinks rest link
  constructor
  · intro other agree
    have same : ∀ leading, leading <+: orgRoot ++ base → leading ≠ [] → other leading = tree leading :=
      fun leading within _ => agree leading fun inTarget => outside base (inTarget.trans within)
    exact ⟨locate_congr ordinary unlinked same, place_congr ordinary unlinked same⟩
  · intro location found
    rw [locate_unlinked ordinary unlinked found]
    exact outside base
  · intro location found
    rw [place_unlinked ordinary (unlinked.of_prefix (List.dropLast_prefix _)) found]
    exact outside base

structure Linked (spec : OrgFsMountSpec) (scopePrefix : Text) : Prop where
  writable : prefixMode spec scopePrefix = .write
  root : baseNames scopePrefix = [] → spec.mode = .write ∧ spec.readOnlyPrefixes = []
  slashless : baseNames scopePrefix ≠ [] → Text.endsWith ['/'] (scopePrefixBasePath scopePrefix) = false

section

variable (spec : OrgFsMountSpec) (start : Tree) (workspacePath orgRoot : Path)

/-- A link of the mount directory: a writable prefix, or a link of the org that was copied
with a prefix. -/
def LinkOf (scopePrefix : Text) (rest : Path) (target : LinkTarget) : Prop :=
  ∃ below, rest = baseNames scopePrefix ++ below ∧
    ((Linked spec scopePrefix ∧ below = [] ∧ target = ⟨true, orgRoot ++ rest⟩) ∨
      ∃ origin original, place start (orgRoot ++ baseNames scopePrefix) = .ok origin ∧
        start (origin ++ below) = some (.link original))

def Allowed (mounted : List Text) (rest : Path) : Option Entry → Prop
  | none => True
  | some entry =>
    (rest = [] ∨ ∃ scopePrefix ∈ mounted, baseNames scopePrefix <+: rest ∨ rest <+: baseNames scopePrefix) ∧
    ∀ target, entry = .link target → ∃ scopePrefix ∈ mounted, LinkOf spec start orgRoot scopePrefix rest target

/-- Nothing has changed outside the mount directory, and in it stands only what the
mounted prefixes account for. -/
structure Contained (mounted : List Text) (tree : Tree) : Prop where
  outside : AgreeOutside (mountTarget workspacePath) tree start
  inside : ∀ rest, Allowed spec start orgRoot mounted rest (tree (mountTarget workspacePath ++ rest))

end

section

variable {spec : OrgFsMountSpec} {start : Tree} {workspacePath orgRoot : Path}
variable {mounted : List Text} {tree changed : Tree} {more : List Text}

theorem Allowed.mono {rest : Path} {entry : Option Entry} (allowed : Allowed spec start orgRoot mounted rest entry)
    (included : mounted ⊆ more) : Allowed spec start orgRoot more rest entry := by
  cases entry with
  | none => trivial
  | some entry =>
    obtain ⟨present, links⟩ := allowed
    constructor
    · rcases present with root | ⟨scopePrefix, member, near⟩
      · exact .inl root
      · exact .inr ⟨scopePrefix, included member, near⟩
    · intro target isLink
      obtain ⟨scopePrefix, member, link⟩ := links target isLink
      exact ⟨scopePrefix, included member, link⟩

theorem Contained.mono (contained : Contained spec start workspacePath orgRoot mounted tree)
    (included : mounted ⊆ more) :
    Contained spec start workspacePath orgRoot more tree :=
  ⟨contained.outside, fun rest => (contained.inside rest).mono included⟩

theorem Contained.change (contained : Contained spec start workspacePath orgRoot mounted tree)
    (changes : ∀ path, changed path = tree path ∨ ∃ rest, path = mountTarget workspacePath ++ rest ∧
        Allowed spec start orgRoot mounted rest (changed path)) :
    Contained spec start workspacePath orgRoot mounted changed := by
  constructor
  · intro path outside
    rcases changes path with same | ⟨rest, inside, -⟩
    · rw [same, contained.outside path outside]
    · exact absurd ⟨rest, inside.symm⟩ outside
  · intro rest
    rcases changes (mountTarget workspacePath ++ rest) with same | ⟨other, inside, allowed⟩
    · rw [same]
      exact contained.inside rest
    · cases append_cancel_left inside
      exact allowed

structure Mounting (spec : OrgFsMountSpec) (start : Tree) (workspacePath orgRoot : Path)
    (mounted : List Text) (path : Path) (tree : Tree) : Prop where
  contained : Contained spec start workspacePath orgRoot mounted tree
  unlinked : Unlinked tree path.dropLast

variable {path : Path}

theorem not_prefix_dropLast {leading : Path} (nonempty : path ≠ []) (within : leading <+: path.dropLast) :
    ¬ path <+: leading := by
  intro above
  have shorter := (above.trans within).length_le
  have positive := length_pos_of_ne_nil nonempty
  rw [length_dropLast] at shorter
  omega

theorem Mounting.change {scopePrefix : Text} (mounting : Mounting spec start workspacePath orgRoot mounted
      (mountTarget workspacePath ++ baseNames scopePrefix) tree)
    (outside : ∀ path, ¬ mountTarget workspacePath ++ baseNames scopePrefix <+: path → changed path = tree path)
    (inside : ∀ below, Allowed spec start orgRoot mounted (baseNames scopePrefix ++ below)
      (changed (mountTarget workspacePath ++ baseNames scopePrefix ++ below))) :
    Mounting spec start workspacePath orgRoot mounted (mountTarget workspacePath ++ baseNames scopePrefix) changed := by
  constructor
  · apply mounting.contained.change
    intro path
    by_cases below : mountTarget workspacePath ++ baseNames scopePrefix <+: path
    · obtain ⟨rest, rfl⟩ := below
      exact .inr ⟨baseNames scopePrefix ++ rest, by simp, inside rest⟩
    · exact .inl (outside path below)
  · intro leading within nonempty target
    have nonroot : mountTarget workspacePath ++ baseNames scopePrefix ≠ [] := by simp [mountTarget]
    rw [outside leading (not_prefix_dropLast nonroot within)]
    exact mounting.unlinked leading within nonempty target

theorem mountTarget_ordinary (apart : Apart start workspacePath orgRoot) (clean : CleanPath path) :
    Ordinary (mountTarget workspacePath ++ path) := by
  intro name member
  rcases mem_append.mp member with inTarget | inPath
  · rcases mem_append.mp inTarget with inWorkspace | last
    · exact apart.workspaceOrdinary name inWorkspace
    · rw [mem_singleton.mp last]
      decide
  · exact clean.ordinary name inPath

section

variable (spec start workspacePath orgRoot mounted) in
abbrev KeepsMounting (scopePrefix : Text) (effect : Effect Unit) : Prop :=
  Effect.Leads
    (Mounting spec start workspacePath orgRoot mounted (mountTarget workspacePath ++ baseNames scopePrefix))
    (Mounting spec start workspacePath orgRoot mounted (mountTarget workspacePath ++ baseNames scopePrefix))
    effect

variable {scopePrefix : Text} {slash : Bool}

theorem rm_mounting (slash : Bool) (apart : Apart start workspacePath orgRoot)
    (clean : CleanPath (baseNames scopePrefix)) :
    KeepsMounting spec start workspacePath orgRoot mounted scopePrefix
      (rm (mountTarget workspacePath ++ baseNames scopePrefix) slash) := by
  intro tree mounting
  rcases rm_unlinked (mountTarget_ordinary apart clean) mounting.unlinked with
    same | removed
  · rw [same]
    exact mounting
  · rw [removed]
    apply mounting.change
    · intro path other
      simp [Tree.remove, other]
    · intro below
      have gone : tree.remove (mountTarget workspacePath ++ baseNames scopePrefix)
          (mountTarget workspacePath ++ baseNames scopePrefix ++ below) = none := by
        simp [Tree.remove]
      rw [gone]
      trivial

section

variable (apart : Apart start workspacePath orgRoot)
include apart

theorem mkdir_mounting (member : scopePrefix ∈ mounted) :
    KeepsMounting spec start workspacePath orgRoot mounted scopePrefix
      (mkdir (mountTarget workspacePath ++ baseNames scopePrefix).dropLast) := by
  intro tree mounting
  have grown := mkdir_unlinked mounting.unlinked
  constructor
  · apply mounting.contained.change
    intro path
    rcases grown path with same | ⟨within, nonempty, missing, made⟩
    · exact .inl same
    · have onPath := within.trans (List.dropLast_prefix _)
      rcases prefix_or_prefix_of_prefix onPath (prefix_append _ _) with
        above | ⟨rest, rfl⟩
      · rcases prefix_concat_iff.mp above with same | inWorkspace
        · refine .inr ⟨[], by simpa [mountTarget] using same, ?_⟩
          rw [made]
          refine ⟨.inl rfl, ?_⟩
          intro target isLink
          cases isLink
        · obtain ⟨mode, directory⟩ := apart.workspace path inWorkspace nonempty
          have outside : ¬ mountTarget workspacePath <+: path := by
            intro below
            have shorter := (below.trans inWorkspace).length_le
            rw [mountTarget, length_append, length_singleton] at shorter
            omega
          rw [mounting.contained.outside path outside, directory] at missing
          cases missing
      · refine .inr ⟨rest, rfl, ?_⟩
        rw [made]
        refine ⟨.inr ⟨scopePrefix, member, .inr ?_⟩, ?_⟩
        · exact (prefix_append_right_inj _).mp onPath
        · intro target isLink
          cases isLink
  · intro leading within nonempty target
    rcases grown leading with same | ⟨-, -, -, made⟩
    · rw [same]
      exact mounting.unlinked leading within nonempty target
    · rw [made]
      simp

omit apart in
theorem symlink_mounting (slash : Bool) (apart : Apart start workspacePath orgRoot)
    (clean : CleanPath (baseNames scopePrefix)) (member : scopePrefix ∈ mounted)
    (linked : slash = false → Linked spec scopePrefix) :
    KeepsMounting spec start workspacePath orgRoot mounted scopePrefix (symlink (orgRoot ++ baseNames scopePrefix)
        (mountTarget workspacePath ++ baseNames scopePrefix) slash) := by
  intro tree mounting
  rcases symlink_unlinked (mountTarget_ordinary apart clean) mounting.unlinked with same | ⟨slashless, made⟩
  · rw [same]
    exact mounting
  · rw [made]
    apply mounting.change
    · intro path other
      have elsewhere : path ≠ mountTarget workspacePath ++ baseNames scopePrefix := by
        rintro rfl
        exact other (prefix_refl _)
      simp [Tree.set, elsewhere]
    · intro below
      by_cases here : below = []
      · subst here
        simp only [append_nil, Tree.set, if_true]
        refine ⟨.inr ⟨scopePrefix, member, .inl (prefix_refl _)⟩, ?_⟩
        intro target isLink
        refine ⟨scopePrefix, member, [], (append_nil _).symm, .inl ⟨linked slashless, rfl, ?_⟩⟩
        rw [Entry.link.injEq] at isLink
        exact isLink.symm
      · have kept := mounting.contained.inside (baseNames scopePrefix ++ below)
        rw [← append_assoc] at kept
        simpa [Tree.set, here] using kept

section

variable (clean : CleanPath (baseNames scopePrefix))
include clean

theorem copied_link (contained : Contained spec start workspacePath orgRoot mounted tree) {origin below : Path}
    {original : LinkTarget} (found : place tree (orgRoot ++ baseNames scopePrefix) = .ok origin)
    (free : ∀ mode, origin <+: mountTarget workspacePath ++ baseNames scopePrefix →
      tree origin ≠ some (.directory mode)) (link : tree (origin ++ below) = some (.link original)) :
    place start (orgRoot ++ baseNames scopePrefix) = .ok origin ∧ start (origin ++ below) = some (.link original) := by
  have settled := apart.settled (baseNames scopePrefix) clean
  have same := (settled.same tree contained.outside).2
  rw [same] at found
  have elsewhere := settled.placed origin found
  refine ⟨found, ?_⟩
  rw [← contained.outside (origin ++ below), link]
  intro inMount
  rcases prefix_or_prefix_of_prefix inMount (prefix_append origin below) with
    above | within
  · exact elsewhere above
  · -- the origin lies above the mount directory and is a directory of the workspace's path
    rcases prefix_concat_iff.mp within with same | inWorkspace
    · exact elsewhere (by rw [same]; exact prefix_refl _)
    · have rooted : orgRoot ++ baseNames scopePrefix ≠ [] := by
        intro empty
        exact apart.mountOutside (by rw [(append_eq_nil_iff.mp empty).1]; exact nil_prefix)
      obtain ⟨mode, directory⟩ := apart.workspace origin inWorkspace (place_ne_nil rooted found)
      rw [← contained.outside origin elsewhere] at directory
      exact free mode (within.trans (prefix_append _ _)) directory

theorem cp_mounting (member : scopePrefix ∈ mounted) :
    KeepsMounting spec start workspacePath orgRoot mounted scopePrefix (cp (orgRoot ++ baseNames scopePrefix)
        (mountTarget workspacePath ++ baseNames scopePrefix) slash) := by
  intro tree mounting
  rcases cp_unlinked (mountTarget_ordinary apart clean) mounting.unlinked with same | ⟨origin, found, free, made⟩
  · rw [same]
    exact mounting
  · rw [made]
    apply mounting.change
    · intro path other
      simp [Tree.copy, other]
    · intro below
      have copied : tree.copy (orgRoot ++ baseNames scopePrefix) origin
          (mountTarget workspacePath ++ baseNames scopePrefix)
          (mountTarget workspacePath ++ baseNames scopePrefix ++ below) = (tree (origin ++ below)).map
              (Entry.copied (orgRoot ++ baseNames scopePrefix ++ below).dropLast) := by
        simp [Tree.copy]
      rw [copied]
      cases here : tree (origin ++ below) with
      | none => trivial
      | some entry =>
        refine ⟨.inr ⟨scopePrefix, member, .inl (prefix_append _ _)⟩, ?_⟩
        intro target isLink
        cases entry with
        | directory mode | file content mode => cases isLink
        | link original =>
          obtain ⟨settled, kept⟩ := copied_link apart clean mounting.contained found free here
          exact ⟨scopePrefix, member, below, rfl, .inr ⟨origin, original, settled, kept⟩⟩

theorem chmod_mounting :
    KeepsMounting spec start workspacePath orgRoot mounted scopePrefix
      (chmodTreeReadOnly (mountTarget workspacePath ++ baseNames scopePrefix)) := by
  intro tree mounting
  rcases chmodTree_unlinked (mountTarget_ordinary apart clean) mounting.unlinked with same | made
  · rw [chmodTreeReadOnly, same]
    exact mounting
  · rw [chmodTreeReadOnly, made]
    apply mounting.change
    · intro path other
      simp [Tree.chmod, other]
    · intro below
      have kept := mounting.contained.inside (baseNames scopePrefix ++ below)
      rw [← append_assoc] at kept
      have changed : tree.chmod makePathReadOnly (mountTarget workspacePath ++ baseNames scopePrefix)
          (mountTarget workspacePath ++ baseNames scopePrefix ++ below) =
            (tree (mountTarget workspacePath ++ baseNames scopePrefix ++ below)).map
              (Entry.chmod makePathReadOnly) := by
        simp [Tree.chmod]
      rw [changed]
      cases here : tree (mountTarget workspacePath ++ baseNames scopePrefix ++ below) with
      | none => trivial
      | some entry =>
        rw [here] at kept
        refine ⟨kept.1, ?_⟩
        intro target isLink
        apply kept.2 target
        cases entry with
        | directory mode | file content mode => cases isLink
        | link original => exact isLink

theorem copyReadOnly_mounting (member : scopePrefix ∈ mounted) :
    KeepsMounting spec start workspacePath orgRoot mounted scopePrefix (copyReadOnly (orgRoot ++ baseNames scopePrefix)
        (mountTarget workspacePath ++ baseNames scopePrefix) slash) := by
  apply (rm_mounting slash apart clean).bind _ (fun _ holds => holds)
  intro _
  apply (mkdir_mounting apart member).bind _ (fun _ holds => holds)
  intro _
  apply (cp_mounting apart clean member).bind _ (fun _ holds => holds)
  intro _
  exact chmod_mounting apart clean

theorem symlinkWritable_mounting (member : scopePrefix ∈ mounted) (linked : slash = false → Linked spec scopePrefix) :
    KeepsMounting spec start workspacePath orgRoot mounted scopePrefix
      (symlinkWritable (orgRoot ++ baseNames scopePrefix)
        (mountTarget workspacePath ++ baseNames scopePrefix) slash) := by
  apply (rm_mounting slash apart clean).bind _ (fun _ holds => holds)
  intro _
  apply (mkdir_mounting apart member).bind _ (fun _ holds => holds)
  intro _
  exact symlink_mounting slash apart clean member linked

end

end

end

end

end EveHorizon.OrgFs
