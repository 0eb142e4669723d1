import EveHorizon.OrgFs.Containment

/-!
# The org's own files

A prefix whose path in the mount leads through a link is removed and mounted again behind
that link.
-/

namespace EveHorizon.OrgFs

open FileSystem List
open Effect (Fails Leads andThen ask leads_pure)

def Found (start : Tree) (orgRoot : Path) (scopePrefix : Text) : Prop :=
  (resolveScopedPath orgRoot (scopePrefixBasePath scopePrefix)).any
    (fun sourcePath => (stat start sourcePath).isOk) = true

instance (start : Tree) (orgRoot : Path) (scopePrefix : Text) : Decidable (Found start orgRoot scopePrefix) :=
  inferInstanceAs (Decidable (_ = true))

/-- After the root nothing is mounted, and a link is not made at a path with a closing
slash. -/
def EndsMount (spec : OrgFsMountSpec) (start : Tree) (orgRoot : Path) (scopePrefix : Text) : Prop :=
  Found start orgRoot scopePrefix ∧ (baseNames scopePrefix = [] ∨ prefixMode spec scopePrefix = .write ∧
      Text.endsWith ['/'] (scopePrefixBasePath scopePrefix) = true)

instance (spec : OrgFsMountSpec) (start : Tree) (orgRoot : Path) (scopePrefix : Text) :
    Decidable (EndsMount spec start orgRoot scopePrefix) :=
  inferInstanceAs (Decidable (_ ∧ _))

def reachedPrefixes (spec : OrgFsMountSpec) (start : Tree) (orgRoot : Path) : List Text → List Text
  | [] => []
  | scopePrefix :: rest =>
    if EndsMount spec start orgRoot scopePrefix then [scopePrefix]
    else scopePrefix :: reachedPrefixes spec start orgRoot rest

structure Clash (spec : OrgFsMountSpec) (start : Tree) (orgRoot : Path) (earlier later : Text) : Prop where
  foundEarlier : Found start orgRoot earlier
  foundLater : Found start orgRoot later
  named : baseNames earlier ≠ []
  below : baseNames earlier <+: baseNames later
  proper : baseNames earlier ≠ baseNames later
  link : Linked spec earlier ∨ ∃ origin rest original, place start (orgRoot ++ baseNames earlier) = .ok origin ∧
      baseNames earlier ++ rest <+: baseNames later ∧ baseNames earlier ++ rest ≠ baseNames later ∧
      start (origin ++ rest) = some (.link original)

def NoClash (spec : OrgFsMountSpec) (start : Tree) (orgRoot : Path) : Prop :=
  (reachedPrefixes spec start orgRoot (orderedPrefixes spec)).Pairwise fun earlier later =>
    ¬ Clash spec start orgRoot earlier later

def OrgUntouched (start tree : Tree) (orgRoot : Path) : Prop :=
  ∀ path, orgRoot <+: path → tree path = start path

section

variable {spec : OrgFsMountSpec} {start : Tree} {workspacePath orgRoot : Path}
variable {mounted : List Text} {tree : Tree} {target path : Path}

theorem stat_settled (settled : Settled start target path) (agree : AgreeOutside target tree start) :
    stat tree path = stat start path := by
  unfold stat
  rw [(settled.same tree agree).1]
  cases found : locate start path with
  | error _ => rfl
  | ok location =>
    have same : tree.lookup location = start.lookup location := by
      cases location with
      | nil => rfl
      | cons name rest => exact agree _ (settled.located _ found)
    simp only [bind, Except.bind, same]

theorem resolveScopedPath_eq {basePath : Text} {sourcePath : Path}
    (found : resolveScopedPath orgRoot basePath = some sourcePath) : sourcePath = orgRoot ++ names basePath := by
  unfold resolveScopedPath at found
  split at found
  · next root =>
      cases found
      rw [root]
      simp [names, segments]
      decide
  · split at found
    · next empty =>
        cases found
        simp [empty]
    · next parts =>
        split at found
        · cases found
        · cases found
          rw [parts]

section

variable (apart : Apart start workspacePath orgRoot)
include apart

section

variable (contained : Contained spec start workspacePath orgRoot mounted tree)
include contained

variable {leading : Path}

theorem workspace_directory (within : leading <+: workspacePath) (nonempty : leading ≠ []) :
    ∃ mode, tree leading = some (.directory mode) := by
  have outside : ¬ mountTarget workspacePath <+: leading := by
    intro below
    have shorter := (below.trans within).length_le
    rw [mountTarget, length_append, length_singleton] at shorter
    omega
  rw [contained.outside leading outside]
  exact apart.workspace leading within nonempty

theorem workspace_unlinked : Unlinked tree workspacePath := by
  intro leading within nonempty target
  obtain ⟨mode, directory⟩ := workspace_directory apart contained within nonempty
  simp [directory]

theorem workspace_present (within : leading <+: workspacePath) (nonempty : leading ≠ []) : tree leading ≠ none := by
  obtain ⟨mode, directory⟩ := workspace_directory apart contained within nonempty
  simp [directory]

variable {scopePrefix : Text}

theorem path_unlinked (named : baseNames scopePrefix ≠ []) (found : Found start orgRoot scopePrefix)
    (earlier : ∀ other ∈ mounted, baseNames other ≠ [] ∧ Found start orgRoot other ∧
      ¬ Clash spec start orgRoot other scopePrefix) :
    Unlinked tree (mountTarget workspacePath ++ baseNames scopePrefix).dropLast := by
  intro leading within nonempty target link
  rw [dropLast_append_of_ne_nil named] at within
  rcases prefix_or_prefix_of_prefix within (prefix_append _ _) with above | ⟨rest, rfl⟩
  · rcases prefix_concat_iff.mp above with same | inWorkspace
    · have atTarget := contained.inside []
      rw [append_nil, mountTarget, ← same, link] at atTarget
      obtain ⟨other, member, below, empty, -⟩ := atTarget.2 target rfl
      exact (earlier other member).1 (append_eq_nil_iff.mp empty.symm).1
    · exact workspace_unlinked apart contained leading inWorkspace nonempty target link
  · have inside := contained.inside rest
    rw [link] at inside
    obtain ⟨other, member, below, rfl, source⟩ := inside.2 target rfl
    obtain ⟨otherNamed, otherFound, noClash⟩ := earlier other member
    have onPath : baseNames other ++ below <+: (baseNames scopePrefix).dropLast := (prefix_append_right_inj _).mp within
    have shorter := onPath.trans (List.dropLast_prefix _)
    have proper : baseNames other ++ below ≠ baseNames scopePrefix := by
      intro same
      exact not_prefix_dropLast named onPath (same ▸ prefix_refl _)
    apply noClash
    refine ⟨otherFound, found, otherNamed, (prefix_append _ _).trans shorter, ?_, ?_⟩
    · intro same
      have bound := onPath.length_le
      rw [length_append, length_dropLast, same] at bound
      have positive := length_pos_of_ne_nil named
      omega
    · rcases source with ⟨linked, -, -⟩ | ⟨origin, original, placed, kept⟩
      · exact .inl linked
      · exact .inr ⟨origin, below, original, placed, shorter, proper, kept⟩

end

theorem mountPrefix_contained (normal : NormalBase (scopePrefixBasePath scopePrefix))
    (named : baseNames scopePrefix ≠ []) (found : Found start orgRoot scopePrefix)
    (earlier : ∀ other ∈ mounted, baseNames other ≠ [] ∧ Found start orgRoot other ∧
      ¬ Clash spec start orgRoot other scopePrefix) : Leads (Contained spec start workspacePath orgRoot mounted)
      (Contained spec start workspacePath orgRoot (scopePrefix :: mounted))
      (mountPrefix spec scopePrefix (orgRoot ++ baseNames scopePrefix) (mountTarget workspacePath)) := by
  have clean : CleanPath (baseNames scopePrefix) := normal.clean_names
  intro tree contained
  have mounting : Mounting spec start workspacePath orgRoot (scopePrefix :: mounted)
      (mountTarget workspacePath ++ baseNames scopePrefix) tree :=
    ⟨contained.mono (subset_cons_self _ _), path_unlinked apart contained named found earlier⟩
  unfold mountPrefix
  cases mode : prefixMode spec scopePrefix with
  | read =>
    exact (copyReadOnly_mounting apart clean mem_cons_self tree mounting).contained
  | write =>
    refine (symlinkWritable_mounting apart clean mem_cons_self ?_ tree mounting).contained
    intro slashless
    exact ⟨mode, fun root => absurd root named, fun _ => slashless⟩

theorem mountRoot_contained (root : baseNames scopePrefix = []) (active : spec.mode ≠ .none) :
    Leads (Contained spec start workspacePath orgRoot mounted)
      (Contained spec start workspacePath orgRoot (scopePrefix :: mounted))
      (mountRoot spec scopePrefix orgRoot (mountTarget workspacePath)) := by
  have clean : CleanPath (baseNames scopePrefix) := root ▸ cleanPath_nil
  intro tree contained
  have mounting : Mounting spec start workspacePath orgRoot (scopePrefix :: mounted)
      (mountTarget workspacePath ++ baseNames scopePrefix) tree := by
    refine ⟨contained.mono (subset_cons_self _ _), ?_⟩
    rw [root, append_nil, mountTarget, dropLast_concat]
    exact workspace_unlinked apart contained
  have copied : Mounting spec start workspacePath orgRoot (scopePrefix :: mounted)
      (mountTarget workspacePath ++ baseNames scopePrefix)
      (copyReadOnly (orgRoot ++ baseNames scopePrefix)
        (mountTarget workspacePath ++ baseNames scopePrefix) false tree).2 :=
    copyReadOnly_mounting apart clean mem_cons_self tree mounting
  unfold mountRoot
  split
  · rw [root, append_nil, append_nil] at copied
    exact copied.contained
  · next unprotected =>
      split
      · rw [root, append_nil, append_nil] at copied
        exact copied.contained
      · next writable =>
          have mode : spec.mode = .write := by
            cases found : spec.mode with
            | none => exact absurd found active
            | read => exact absurd (by simp [prefixMode, found]) writable
            | write => rfl
          have linked : Linked spec scopePrefix := by
            refine ⟨?_, fun _ => ⟨mode, ?_⟩, fun named => absurd root named⟩
            · cases found : prefixMode spec scopePrefix with
              | read => exact absurd found writable
              | write => rfl
            · by_contra present
              exact unprotected ⟨mode, present⟩
          have removing : Leads (Mounting spec start workspacePath orgRoot (scopePrefix :: mounted)
                (mountTarget workspacePath ++ baseNames scopePrefix))
              (Mounting spec start workspacePath orgRoot (scopePrefix :: mounted)
                (mountTarget workspacePath ++ baseNames scopePrefix))
              (do
                rm (mountTarget workspacePath ++ baseNames scopePrefix) false
                symlink (orgRoot ++ baseNames scopePrefix)
                  (mountTarget workspacePath ++ baseNames scopePrefix) false) := by
            apply (rm_mounting false apart clean).bind _ (fun _ holds => holds)
            intro _
            exact symlink_mounting false apart clean mem_cons_self (fun _ => linked)
          have reached := (removing tree mounting).contained
          rw [root, append_nil, append_nil] at reached
          exact reached

/-- What is mounted is named, was found and clashes with none of the later prefixes. -/
def Standing (spec : OrgFsMountSpec) (start : Tree) (orgRoot : Path) (mounted later : List Text) : Prop :=
  ∀ other ∈ mounted, baseNames other ≠ [] ∧ Found start orgRoot other ∧
    ∀ scopePrefix ∈ later, ¬ Clash spec start orgRoot other scopePrefix

variable {rest : List Text}

omit apart in
theorem Standing.tail (standing : Standing spec start orgRoot mounted (scopePrefix :: rest)) :
    Standing spec start orgRoot mounted rest := by
  intro other member
  obtain ⟨named, found, free⟩ := standing other member
  exact ⟨named, found, fun next inRest => free next (mem_cons_of_mem _ inRest)⟩

omit apart in
theorem Standing.push (standing : Standing spec start orgRoot mounted (scopePrefix :: rest))
    (named : baseNames scopePrefix ≠ []) (found : Found start orgRoot scopePrefix)
    (free : ∀ next ∈ rest, ¬ Clash spec start orgRoot scopePrefix next) :
    Standing spec start orgRoot (scopePrefix :: mounted) rest := by
  intro other member
  rcases mem_cons.mp member with rfl | kept
  · exact ⟨named, found, free⟩
  · exact standing.tail other kept

omit apart in
theorem mem_reachedPrefixes_head (scopePrefix : Text) (rest : List Text) :
    scopePrefix ∈ reachedPrefixes spec start orgRoot (scopePrefix :: rest) := by
  rw [reachedPrefixes]
  split <;> simp

omit apart in
theorem reachedPrefixes_sublist {prefixes : List Text} :
    (reachedPrefixes spec start orgRoot prefixes).Sublist prefixes := by
  induction prefixes with
  | nil => exact List.Sublist.slnil
  | cons scopePrefix rest ih =>
    rw [reachedPrefixes]
    split
    · exact (nil_sublist rest).cons_cons scopePrefix
    · exact ih.cons_cons scopePrefix

section

variable (same : stat tree (orgRoot ++ baseNames scopePrefix) = stat start (orgRoot ++ baseNames scopePrefix))
include same

omit apart in
theorem mountPrefixes_missing (missing : ¬ Found start orgRoot scopePrefix) :
    mountPrefixes spec orgRoot target (scopePrefix :: rest) tree = mountPrefixes spec orgRoot target rest tree := by
  rw [mountPrefixes]
  unfold Found at missing
  cases resolved : resolveScopedPath orgRoot (scopePrefixBasePath scopePrefix) with
  | none => rfl
  | some sourcePath =>
    rw [resolved, Option.any_some] at missing
    have source : sourcePath = orgRoot ++ baseNames scopePrefix := resolveScopedPath_eq resolved
    rw [← source] at same
    simp [bind, andThen, ask, same, missing]

omit apart in
theorem mountPrefixes_found (found : Found start orgRoot scopePrefix) :
    mountPrefixes spec orgRoot target (scopePrefix :: rest) tree = (if scopePrefixBasePath scopePrefix = ['/'] then do
        mountRoot spec scopePrefix (orgRoot ++ baseNames scopePrefix) target
        pure 1
      else do
        mountPrefix spec scopePrefix (orgRoot ++ baseNames scopePrefix) target
        let mounted ← mountPrefixes spec orgRoot target rest
        pure (mounted + 1) : Effect Nat) tree := by
  rw [mountPrefixes]
  unfold Found at found
  cases resolved : resolveScopedPath orgRoot (scopePrefixBasePath scopePrefix) with
  | none => simp [resolved] at found
  | some sourcePath =>
    rw [resolved, Option.any_some] at found
    have source : sourcePath = orgRoot ++ baseNames scopePrefix := resolveScopedPath_eq resolved
    rw [← source] at same ⊢
    simp [bind, andThen, ask, same, found]

end

omit apart in
theorem mountPrefix_fails {sourcePath : Path} (mode : prefixMode spec scopePrefix = .write)
    (slash : Text.endsWith ['/'] (scopePrefixBasePath scopePrefix) = true) :
    Fails (mountPrefix spec scopePrefix sourcePath target) := by
  unfold mountPrefix symlinkWritable
  simp only [mode, slash]
  exact Fails.bind fun _ => Fails.bind fun _ => symlink_slash_fails

theorem mountPrefixes_contained (active : spec.mode ≠ .none) {prefixes : List Text}
    (normal : ∀ scopePrefix ∈ prefixes, NormalBase (scopePrefixBasePath scopePrefix))
    (noClash : (reachedPrefixes spec start orgRoot prefixes).Pairwise fun earlier later =>
      ¬ Clash spec start orgRoot earlier later)
    (standing : Standing spec start orgRoot mounted (reachedPrefixes spec start orgRoot prefixes)) :
    Leads (Contained spec start workspacePath orgRoot mounted)
      (Contained spec start workspacePath orgRoot (prefixes ++ mounted))
      (mountPrefixes spec orgRoot (mountTarget workspacePath) prefixes) := by
  induction prefixes generalizing mounted with
  | nil => exact leads_pure 0
  | cons scopePrefix rest ih =>
    have headNormal := normal scopePrefix mem_cons_self
    have restNormal := fun other member => normal other (mem_cons_of_mem _ member)
    have widened : ∀ changed, Contained spec start workspacePath orgRoot (scopePrefix :: mounted)
        changed → Contained spec start workspacePath orgRoot (scopePrefix :: rest ++ mounted)
          changed := by
      intro changed contained
      apply contained.mono
      intro other member
      simp only [cons_append, mem_cons, mem_append] at member ⊢
      tauto
    intro tree contained
    have same := stat_settled (apart.settled (baseNames scopePrefix) headNormal.clean_names) contained.outside
    by_cases found : Found start orgRoot scopePrefix
    · rw [mountPrefixes_found same found]
      by_cases root : scopePrefixBasePath scopePrefix = ['/']
      · have empty : baseNames scopePrefix = [] := headNormal.eq_root_iff.mp root
        rw [if_pos root, empty, append_nil]
        have leads : Leads (Contained spec start workspacePath orgRoot mounted)
            (Contained spec start workspacePath orgRoot (scopePrefix :: mounted))
            (do
              mountRoot spec scopePrefix orgRoot (mountTarget workspacePath)
              pure 1) :=
          Leads.bind (mountRoot_contained apart empty active)
            (fun _ => leads_pure 1) (fun _ holds => holds)
        exact widened _ (leads tree contained)
      · have named : baseNames scopePrefix ≠ [] := fun empty =>
          root (headNormal.eq_root_iff.mpr empty)
        have first := mountPrefix_contained apart headNormal named found
          (fun other member => ⟨(standing other member).1, (standing other member).2.1,
            (standing other member).2.2 scopePrefix (mem_reachedPrefixes_head _ _)⟩)
        rw [if_neg root]
        by_cases ends : EndsMount spec start orgRoot scopePrefix
        · have failing : Fails (mountPrefix spec scopePrefix
              (orgRoot ++ baseNames scopePrefix) (mountTarget workspacePath)) := by
            rcases ends.2 with empty | ⟨mode, slash⟩
            · exact absurd empty named
            · exact mountPrefix_fails mode slash
          exact widened _ (Leads.bind_fails first failing tree contained)
        · rw [reachedPrefixes, if_neg ends] at noClash standing
          obtain ⟨headFree, restFree⟩ := pairwise_cons.mp noClash
          have second : Leads (Contained spec start workspacePath orgRoot (scopePrefix :: mounted))
              (Contained spec start workspacePath orgRoot (scopePrefix :: rest ++ mounted))
              (mountPrefixes spec orgRoot (mountTarget workspacePath) rest) := by
            intro changed reached
            apply (ih restNormal restFree (standing.push named found headFree) changed reached).mono
            intro other member
            simp only [cons_append, mem_cons, mem_append] at member ⊢
            tauto
          have leads := Leads.bind first
            (fun _ => Leads.bind second (fun count => leads_pure (count + 1)) (fun _ holds => holds))
            widened
          exact leads tree contained
    · have goes : ¬ EndsMount spec start orgRoot scopePrefix := fun ends => found ends.1
      rw [reachedPrefixes, if_neg goes] at noClash standing
      rw [mountPrefixes_missing same found]
      apply (ih restNormal (pairwise_cons.mp noClash).2 standing.tail tree contained).mono
      exact subset_cons_self _ _

omit apart in
theorem makeDirectories_existing {current : Path}
    (existing : Along (fun here => ∃ mode, tree here = some (.directory mode)) current path) :
    makeDirectories current path tree = (.ok (), tree) := by
  induction path generalizing current with
  | nil => rfl
  | cons name rest ih =>
    obtain ⟨mode, directory⟩ := existing.head
    rw [makeDirectories]
    simp only [directory]
    exact ih existing.tail

theorem mkdir_workspace : mkdir workspacePath start = (.ok (), start) :=
  makeDirectories_existing apart.workspace

theorem rm_target :
    rm (mountTarget workspacePath) false start = (.ok (), start.remove (mountTarget workspacePath)) := by
  rw [rm, mountTarget, place_concat _ apart.workspaceOrdinary apart.workspace]

omit apart in
theorem removed_contained :
    Contained spec start workspacePath orgRoot [] (start.remove (mountTarget workspacePath)) := by
  constructor
  · intro path outside
    simp [Tree.remove, outside]
  · intro rest
    have gone : start.remove (mountTarget workspacePath) (mountTarget workspacePath ++ rest) = none := by
      simp [Tree.remove]
    rw [gone]
    trivial

theorem mkdir_target_contained : Leads (Contained spec start workspacePath orgRoot [])
      (Contained spec start workspacePath orgRoot []) (mkdir (mountTarget workspacePath)) := by
  intro tree contained
  have unlinked : Unlinked tree (mountTarget workspacePath) := by
    intro leading within nonempty target link
    rcases prefix_concat_iff.mp within with same | inWorkspace
    · have inside := contained.inside []
      rw [append_nil, mountTarget, ← same, link] at inside
      obtain ⟨_, missing, _⟩ := inside.2 target rfl
      cases missing
    · exact workspace_unlinked apart contained leading inWorkspace nonempty target link
  have grown := mkdir_unlinked unlinked
  apply contained.change
  intro path
  rcases grown path with same | ⟨within, nonempty, missing, made⟩
  · exact .inl same
  · rcases prefix_concat_iff.mp within with same | inWorkspace
    · refine .inr ⟨[], by rw [append_nil]; exact same, ?_⟩
      rw [made]
      refine ⟨.inl rfl, ?_⟩
      intro target isLink
      cases isLink
    · exact absurd missing (workspace_present apart contained inWorkspace nonempty)

omit apart in
theorem rootNames : baseNames wildcardEnding = [] := by
  decide

theorem root_mounting (contained : Contained spec start workspacePath orgRoot mounted tree) :
    Mounting spec start workspacePath orgRoot mounted (mountTarget workspacePath ++ baseNames wildcardEnding) tree := by
  refine ⟨contained, ?_⟩
  rw [rootNames, append_nil, mountTarget, dropLast_concat]
  exact workspace_unlinked apart contained

omit apart in
theorem isFullMount_linked (full : isFullMount spec = true) :
    spec.allowPrefixes = [wildcardEnding] ∧ Linked spec wildcardEnding := by
  simp only [isFullMount, Bool.and_eq_true, beq_iff_eq, List.isEmpty_iff] at full
  obtain ⟨⟨allow, mode⟩, readOnly⟩ := full
  refine ⟨allow, ?_, fun _ => ⟨mode, readOnly⟩, fun named => absurd rootNames named⟩
  simp [prefixMode, mode, readOnly]

theorem mountScoped_contained (active : spec.mode ≠ .none)
    (normal : ∀ scopePrefix ∈ spec.allowPrefixes, NormalBase (scopePrefixBasePath scopePrefix))
    (noClash : NoClash spec start orgRoot) : Leads (Contained spec start workspacePath orgRoot [])
      (Contained spec start workspacePath orgRoot spec.allowPrefixes)
      (mountScoped spec orgRoot (mountTarget workspacePath)) := by
  have grows : ∀ tree, Contained spec start workspacePath orgRoot [] tree →
      Contained spec start workspacePath orgRoot spec.allowPrefixes tree :=
    fun tree contained => contained.mono (nil_subset _)
  have ignored : ∀ result : Mounted, Leads (Contained spec start workspacePath orgRoot [])
      (Contained spec start workspacePath orgRoot spec.allowPrefixes) (pure result) :=
    fun result => (leads_pure result).imp (fun _ holds => holds) grows
  apply Leads.bind (Effect.leads_ask _) _ grows
  intro root
  cases root with
  | error _ => exact ignored _
  | ok entry =>
    cases entry with
    | file _ _ | link _ => exact ignored _
    | directory _ =>
      simp only
      split
      · next full =>
          obtain ⟨allow, linked⟩ := isFullMount_linked full
          refine Leads.bind ?_ (fun _ => leads_pure _) (fun _ holds => holds)
          intro tree contained
          have clean : CleanPath (baseNames wildcardEnding) := rootNames ▸ cleanPath_nil
          have reached := symlink_mounting false apart clean (by simp [allow]) (fun _ => linked) tree
            (root_mounting apart (grows tree contained))
          rw [rootNames, append_nil, append_nil] at reached
          exact reached.contained
      · have prefixes : Leads (Contained spec start workspacePath orgRoot [])
            (Contained spec start workspacePath orgRoot spec.allowPrefixes)
            (mountPrefixes spec orgRoot (mountTarget workspacePath) (orderedPrefixes spec)) := by
          intro tree contained
          apply (mountPrefixes_contained apart active (fun scopePrefix member =>
            normal scopePrefix ((mem_insertionSort _).mp member)) noClash
            (fun other missing => by cases missing) tree contained).mono
          intro scopePrefix member
          rw [append_nil] at member
          exact (mem_insertionSort _).mp member
        apply Leads.bind (mkdir_target_contained apart) _ grows
        intro _
        apply Leads.bind prefixes _ (fun _ holds => holds)
        intro mountedEntries
        split
        · refine Leads.bind ?_ (fun _ => leads_pure _) (fun _ holds => holds)
          intro tree contained
          have clean : CleanPath (baseNames wildcardEnding) := rootNames ▸ cleanPath_nil
          have reached := rm_mounting false apart clean tree (root_mounting apart contained)
          rw [rootNames, append_nil] at reached
          exact reached.contained
        · exact leads_pure _

theorem materialize_contained {rawSpec : RawSpec} (noClash : NoClash (normalizeOrgFsMountSpec rawSpec) start orgRoot) :
    Contained (normalizeOrgFsMountSpec rawSpec) start workspacePath orgRoot
      (normalizeOrgFsMountSpec rawSpec).allowPrefixes
      (materializeScopedOrgFsMount workspacePath orgRoot rawSpec start).2 := by
  have target : workspacePath ++ [".org".toList] = mountTarget workspacePath := rfl
  simp only [materializeScopedOrgFsMount, bind, andThen, mkdir_workspace apart, target, rm_target apart]
  split
  · exact removed_contained.mono (nil_subset _)
  · next active =>
      exact mountScoped_contained apart active (fun _ => allowPrefixes_normal) noClash _
        removed_contained

theorem org_outside (inOrg : orgRoot <+: path) : ¬ mountTarget workspacePath <+: path := by
  intro inMount
  rcases prefix_or_prefix_of_prefix inOrg inMount with within | within
  · exact apart.mountOutside within
  · exact apart.orgOutside within

end

/-- Where no prefix clashes with an earlier one, every file of the org stays as it was. -/
theorem org_untouched_of_no_clash {rawSpec : RawSpec} (apart : Apart start workspacePath orgRoot)
    (noClash : NoClash (normalizeOrgFsMountSpec rawSpec) start orgRoot) :
    OrgUntouched start (materializeScopedOrgFsMount workspacePath orgRoot rawSpec start).2 orgRoot := by
  intro path inOrg
  exact (materialize_contained apart noClash).outside path (org_outside apart inOrg)

end

def pathOf (names : List String) : Path := names.map String.toList

def workPath : Path := pathOf ["work"]

def orgPath : Path := pathOf ["org"]

def writeSpec (allow readOnly : List String) : RawSpec :=
  .object (some "write".toList) (.array (allow.map fun text => some text.toList))
    (.array (readOnly.map fun text => some text.toList))

def twoDirectories : List (Path × Entry) :=
  [(pathOf ["work"], .directory 0o755), (pathOf ["org"], .directory 0o755),
    (pathOf ["org", "a"], .directory 0o755), (pathOf ["org", "a", "f"], .file "x".toList 0o644),
    (pathOf ["org", "c"], .directory 0o755), (pathOf ["org", "c", "g"], .file "y".toList 0o644)]

theorem apart_ofList {entries : List (Path × Entry)} (noLinks : ∀ entry ∈ entries, entry.2.isLink = false)
    (workspace : (Tree.ofList entries workPath).any Entry.isDirectory = true) :
    Apart (Tree.ofList entries) workPath orgPath := by
  have apart : ∀ base, ¬ mountTarget workPath <+: orgPath ++ base := by
    intro base within
    have heads : workPath <+: orgPath ++ base := (prefix_append _ _).trans within
    have first := (cons_prefix_cons.mp heads).1
    exact absurd first (by decide)
  constructor
  · unfold Ordinary
    decide
  · intro leading within nonempty
    have whole : leading = workPath := by
      rcases prefix_concat_iff.mp (show leading <+: [] ++ ["work".toList] from within) with
        same | empty
      · exact same
      · exact absurd (prefix_nil.mp empty) nonempty
    subst whole
    cases here : Tree.ofList entries workPath with
    | none => simp [here] at workspace
    | some entry =>
      cases entry with
      | directory mode => exact ⟨mode, rfl⟩
      | file content mode | link target => simp [here, Entry.isDirectory] at workspace
  · unfold Ordinary
    decide
  · intro leading _ _ target
    exact ofList_no_link noLinks leading target
  · decide
  · decide
  · intro base clean
    exact settled_of_unlinked (by unfold Ordinary; decide)
      (fun leading _ _ target => ofList_no_link noLinks leading target)
      (fun base target => ofList_no_link noLinks _ target) apart clean

def splitSpec : RawSpec := writeSpec ["/a/**", "/c/**"] ["/c/**"]

theorem split_noClash : NoClash (normalizeOrgFsMountSpec splitSpec) (Tree.ofList twoDirectories) orgPath := by
  have order : orderedPrefixes (normalizeOrgFsMountSpec splitSpec) =
      ["/a/**".toList, "/c/**".toList] := by decide +kernel
  rw [NoClash, order]
  refine List.Pairwise.sublist reachedPrefixes_sublist (pairwise_pair.mpr ?_)
  intro clash
  exact absurd clash.below (by decide +kernel)

theorem split_mount_leaves_org : OrgUntouched (Tree.ofList twoDirectories)
      (materializeScopedOrgFsMount workPath orgPath splitSpec (Tree.ofList twoDirectories)).2 orgPath :=
  org_untouched_of_no_clash (apart_ofList (by decide) (by decide +kernel)) split_noClash

def withinSpec : RawSpec := writeSpec ["/a/**", "/a/b/**"] []

def twoLevels : List (Path × Entry) :=
  [(pathOf ["work"], .directory 0o755), (pathOf ["org"], .directory 0o755),
    (pathOf ["org", "a"], .directory 0o755), (pathOf ["org", "a", "b"], .directory 0o755),
    (pathOf ["org", "a", "b", "f"], .file "x".toList 0o644)]

/-- The inner prefix is removed behind the link of the outer one. -/
theorem nested_mount_removes_org_directory : ¬ OrgUntouched (Tree.ofList twoLevels)
      (materializeScopedOrgFsMount workPath orgPath withinSpec (Tree.ofList twoLevels)).2 orgPath := by
  intro untouched
  have kept := untouched (pathOf ["org", "a", "b", "f"]) ⟨pathOf ["a", "b", "f"], by decide⟩
  exact absurd kept (by decide +kernel)

end EveHorizon.OrgFs
