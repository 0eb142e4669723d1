import EveHorizon.OrgFs.Mount

/-!
# Normalized prefixes

The base path of a normalized prefix is the text of a path of ordinary names, up to a
closing slash.
-/

namespace EveHorizon.OrgFs

open FileSystem List

def CleanName (name : Text) : Prop := name ≠ [] ∧ '/' ∉ name ∧ name ≠ ['.'] ∧ name ≠ ['.', '.']

def CleanPath (path : Path) : Prop := ∀ name ∈ path, CleanName name

def joined (path : Path) : Text := path.flatMap fun name => '/' :: name

variable {path : Path}

theorem pathText_eq_joined (nonempty : path ≠ []) : pathText path = joined path := by
  simp [pathText, joined, nonempty]

theorem joined_cons (name : Text) (path : Path) : joined (name :: path) = '/' :: (name ++ joined path) := rfl

theorem joined_append (first second : Path) : joined (first ++ second) = joined first ++ joined second :=
  flatMap_append

theorem cleanPath_nil : CleanPath [] := by
  intro name member
  cases member

theorem CleanPath.ordinary (clean : CleanPath path) : Ordinary path :=
  fun name member => ⟨(clean name member).2.2.1, (clean name member).2.2.2⟩

variable {name : Text}

theorem mem_names {text : Text} (member : name ∈ names text) : name ≠ [] ∧ '/' ∉ name := by
  obtain ⟨segment, nonempty⟩ := mem_filter.mp member
  exact ⟨by simpa using nonempty, Text.separator_not_mem_part segment⟩

theorem segments_joined (slashless : '/' ∉ name) (clean : CleanPath path) :
    segments (name ++ joined path) = name :: path := by
  induction path generalizing name with
  | nil =>
    simp only [joined, flatMap_nil, append_nil]
    exact splitOn_eq_singleton slashless
  | cons next path ih =>
    have later := ih (clean next mem_cons_self).2.1 (fun name member => clean name (mem_cons_of_mem _ member))
    unfold segments at later ⊢
    rw [joined_cons, splitOn_append_cons_self_of_not_mem slashless, later]

theorem segments_joined_slash (slashless : '/' ∉ name) (clean : CleanPath path) :
    segments (name ++ joined path ++ ['/']) = name :: path ++ [[]] := by
  induction path generalizing name with
  | nil =>
    simp only [joined, flatMap_nil, append_nil]
    exact splitOn_append_cons_self_of_not_mem slashless []
  | cons next path ih =>
    have later := ih (clean next mem_cons_self).2.1 (fun name member => clean name (mem_cons_of_mem _ member))
    unfold segments at later ⊢
    rw [joined_cons, append_assoc, cons_append, splitOn_append_cons_self_of_not_mem slashless, later]
    rfl

section

variable (clean : CleanPath path)
include clean

theorem filter_clean : path.filter (fun segment => !segment.isEmpty) = path := by
  rw [filter_eq_self]
  intro name member
  simpa using (clean name member).1

theorem names_joined : names (joined path) = path := by
  have parts := segments_joined not_mem_nil clean
  rw [nil_append] at parts
  simp [names, parts, filter_clean clean]

theorem names_joined_slash : names (joined path ++ ['/']) = path := by
  have parts := segments_joined_slash not_mem_nil clean
  rw [nil_append] at parts
  simp [names, parts, filter_clean clean]

theorem names_pathText : names (pathText path) = path := by
  by_cases empty : path = []
  · subst empty
    decide
  · rw [pathText_eq_joined empty, names_joined clean]

omit clean in
theorem intercalate_cons (name : Text) (path : Path) : ['/'].intercalate (name :: path) = name ++ joined path := by
  induction path generalizing name with
  | nil => simp [joined]
  | cons next path ih => rw [intercalate_cons_cons, ih, joined_cons]; simp

theorem stripSlashes_joined : stripSlashes (joined path) = joined path := by
  unfold stripSlashes
  rw [rdropWhile_eq_self_iff]
  intro nonempty last
  cases path using List.reverseRecOn with
  | nil => exact nonempty rfl
  | append_singleton path name =>
    obtain ⟨named, slashless, -, -⟩ := clean name (by simp)
    have shape : joined (path ++ [name]) = joined path ++ ['/'] ++ name := by simp [joined]
    simp only [shape, getLast_append_right named, beq_iff_eq] at last
    exact slashless (last ▸ getLast_mem named)

theorem stripSlashes_joined_slash : stripSlashes (joined path ++ ['/']) = joined path := by
  unfold stripSlashes
  rw [rdropWhile_concat_pos _ _ _ (by simp)]
  exact stripSlashes_joined clean

omit clean in
theorem joined_ne_nil (nonempty : path ≠ []) : joined path ≠ [] := by
  cases path with
  | nil => exact absurd rfl nonempty
  | cons name path => simp [joined_cons]

/-- The text of a path, or of a path with a closing slash. -/
def NormalBase (base : Text) : Prop :=
  ∃ path, CleanPath path ∧ (base = pathText path ∨ (path ≠ [] ∧ base = joined path ++ ['/']))

omit clean in
theorem resolveFrom_clean {directory : Path} (clean : CleanPath directory)
    (slashless : ∀ name ∈ path, name ≠ [] ∧ '/' ∉ name) : CleanPath (resolveFrom directory path) := by
  unfold resolveFrom
  induction path generalizing directory with
  | nil => exact clean
  | cons name path ih =>
    rw [foldl_cons]
    apply ih
    · split
      · exact clean
      · split
        · exact fun other member => clean other ((List.dropLast_prefix directory).subset member)
        · next here above =>
            intro other member
            rcases mem_append.mp member with kept | added
            · exact clean other kept
            · cases mem_singleton.mp added
              have plain := slashless name mem_cons_self
              exact ⟨plain.1, plain.2, here, above⟩
    · exact fun other member => slashless other (mem_cons_of_mem _ member)

omit clean in
theorem posixNormalize_normal (text : Text) : NormalBase (posixNormalize text) := by
  have clean : CleanPath (resolveFrom [] (names text)) :=
    resolveFrom_clean cleanPath_nil (fun _ member => mem_names member)
  refine ⟨_, clean, ?_⟩
  unfold posixNormalize
  cases resolved : resolveFrom [] (names text) with
  | nil => exact .inl rfl
  | cons name path =>
    simp only [isEmpty_cons, Bool.false_eq_true, if_false]
    split
    · exact .inr ⟨cons_ne_nil _ _, by rw [pathText_eq_joined (cons_ne_nil _ _)]⟩
    · exact .inl (append_nil _)

theorem scopePrefixBasePath_wildcard : scopePrefixBasePath (joined path ++ wildcardEnding) = pathText path := by
  by_cases empty : path = []
  · subst empty
    decide
  · have nonempty := joined_ne_nil empty
    have other : joined path ++ wildcardEnding ≠ wildcardEnding := by
      intro same
      exact nonempty (append_left_eq_self.mp same)
    have ending : Text.endsWith wildcardEnding (joined path ++ wildcardEnding) = true :=
      isSuffixOf_iff_suffix.mpr (suffix_append _ _)
    have stripped : (joined path ++ wildcardEnding).dropLast.dropLast.dropLast = joined path := by
      simp [wildcardEnding]
    simp only [scopePrefixBasePath, if_neg other, ending, if_true, stripped,
      stripSlashes_joined clean, List.isEmpty_iff, nonempty, if_false, pathText_eq_joined empty]

theorem joined_of_wildcard {text : Text} (ending : joined path = text ++ wildcardEnding) :
    ∃ shorter, CleanPath shorter ∧ text = joined shorter := by
  have parts := segments_joined not_mem_nil clean
  rw [nil_append, ending] at parts
  have split : segments (text ++ wildcardEnding) = segments text ++ [['*', '*']] :=
    splitOn_append_cons_self text ['*', '*']
  rw [split] at parts
  cases first : segments text with
  | nil => exact absurd first (splitOn_ne_nil _ _)
  | cons name shorter =>
    rw [first, cons_append, List.cons.injEq] at parts
    refine ⟨shorter, ?_, ?_⟩
    · intro other member
      apply clean other
      rw [← parts.2]
      exact mem_append_left _ member
    · calc text = ['/'].intercalate (segments text) := (intercalate_splitOn '/').symm
        _ = joined shorter := by rw [first, parts.1, intercalate_cons, nil_append]

end

variable {base : Text}

theorem scopePrefixBasePath_normal (normal : NormalBase base) : NormalBase (scopePrefixBasePath base) := by
  by_cases ending : Text.endsWith wildcardEnding base = true
  · obtain ⟨text, shape⟩ := isSuffixOf_iff_suffix.mp ending
    obtain ⟨path, clean, plain | ⟨nonempty, slashed⟩⟩ := normal
    · by_cases empty : path = []
      · subst empty
        rw [plain] at ending
        exact absurd ending (by decide)
      · rw [pathText_eq_joined empty] at plain
        obtain ⟨shorter, kept, same⟩ := joined_of_wildcard clean (plain.symm.trans shape.symm)
        rw [← shape, same, scopePrefixBasePath_wildcard kept]
        exact ⟨shorter, kept, .inl rfl⟩
    · have last := congrArg List.getLast? (shape.trans slashed)
      simp [wildcardEnding] at last
  · have other : base ≠ wildcardEnding := by
      rintro rfl
      exact ending (by decide)
    rw [scopePrefixBasePath, if_neg other, if_neg ending]
    exact normal

variable {normalized : Text}

theorem prefixOfBase_normal {wildcard : Bool} (normal : NormalBase base)
    (found : prefixOfBase wildcard base = some normalized) : NormalBase (scopePrefixBasePath normalized) := by
  unfold prefixOfBase at found
  split at found
  · cases found
  · split at found
    · cases found
      split
      · exact ⟨[], cleanPath_nil, .inl (by decide)⟩
      · next other =>
          obtain ⟨path, clean, plain | ⟨nonempty, slashed⟩⟩ := normal
          · have nonempty : path ≠ [] := by
              rintro rfl
              exact other plain
            rw [plain, pathText_eq_joined nonempty, stripSlashes_joined clean, scopePrefixBasePath_wildcard clean]
            exact ⟨path, clean, .inl rfl⟩
          · rw [slashed, stripSlashes_joined_slash clean, scopePrefixBasePath_wildcard clean]
            exact ⟨path, clean, .inl rfl⟩
    · cases found
      split
      · exact ⟨[], cleanPath_nil, .inl (by decide)⟩
      · exact scopePrefixBasePath_normal normal

theorem normalizePrefix_normal {value : Text} (found : normalizePrefix value = some normalized) :
    NormalBase (scopePrefixBasePath normalized) := by
  simp only [normalizePrefix] at found
  split at found
  · cases found
  · split at found
    · cases found
    · exact prefixOfBase_normal (posixNormalize_normal _) found

theorem allowPrefixes_normal {rawSpec : RawSpec} {scopePrefix : Text}
    (member : scopePrefix ∈ (normalizeOrgFsMountSpec rawSpec).allowPrefixes) :
    NormalBase (scopePrefixBasePath scopePrefix) := by
  cases rawSpec with
  | notObject => cases member
  | object mode allowPrefixes readOnlyPrefixes =>
    simp only [normalizeOrgFsMountSpec] at member
    split at member
    · cases member
    · cases allowPrefixes with
      | notArray => cases member
      | array items =>
        simp only [normalizePrefixList, Text.mem_sortedSet, mem_filterMap] at member
        obtain ⟨item, -, bound⟩ := member
        obtain ⟨value, -, found⟩ := Option.bind_eq_some_iff.mp bound
        exact normalizePrefix_normal found

theorem NormalBase.clean_names (normal : NormalBase base) : CleanPath (names base) := by
  obtain ⟨path, clean, plain | ⟨-, slashed⟩⟩ := normal
  · rwa [plain, names_pathText clean]
  · rwa [slashed, names_joined_slash clean]

theorem NormalBase.eq_root_iff (normal : NormalBase base) : base = ['/'] ↔ names base = [] := by
  constructor
  · rintro rfl
    decide
  · intro empty
    obtain ⟨path, clean, plain | ⟨nonempty, slashed⟩⟩ := normal
    · rw [plain, names_pathText clean] at empty
      rw [plain, empty]
      rfl
    · rw [slashed, names_joined_slash clean] at empty
      exact absurd empty nonempty

theorem NormalBase.eq_pathText (normal : NormalBase base)
    (slashless : Text.endsWith ['/'] base = false) : base = pathText (names base) := by
  obtain ⟨path, clean, plain | ⟨-, slashed⟩⟩ := normal
  · rw [plain, names_pathText clean]
  · have ending : Text.endsWith ['/'] base = true := by
      rw [slashed]
      exact isSuffixOf_iff_suffix.mpr (suffix_append _ _)
    rw [ending] at slashless
    cases slashless

end EveHorizon.OrgFs
