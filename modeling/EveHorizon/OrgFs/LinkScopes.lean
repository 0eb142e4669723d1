import EveHorizon.Library.Slugs
import EveHorizon.OrgFs.Reads

/-!
# The scope of a link

The prefixes that a link allows, and when they stay under its remote path.
-/

namespace EveHorizon.OrgFs

open Checks List
open Text (trim startsWith endsWith isSpace StartsWithOrEmpty)

def strippedPath (path : Text) : Text := if stripSlashes path = [] then ['/'] else stripSlashes path

def isPathWithinRemotePath (candidatePath remotePath : Text) : Bool :=
  if remotePath = ['/'] then true
  else
    strippedPath candidatePath == strippedPath remotePath ||
      startsWith (strippedPath remotePath ++ ['/']) (strippedPath candidatePath)

def isPathAllowedByScope (pathValue : Text) (allowPrefixes : List Text) : Bool :=
  allowPrefixes.any fun scopePrefix =>
    if scopePrefix = wildcardEnding then true
    else if endsWith wildcardEnding scopePrefix then
      pathValue == scopePrefixBasePath scopePrefix || startsWith (scopePrefixBasePath scopePrefix ++ ['/']) pathValue
    else pathValue == scopePrefix

def defaultAllowPrefix (remotePath : Text) : Text :=
  if remotePath = ['/'] then wildcardEnding else stripSlashes remotePath ++ wildcardEnding

def beforeWildcard (value : Text) : Text := value.dropLast.dropLast.dropLast

def normalizeAllowPrefix (remotePath raw : Text) : Except ReadError Text :=
  let value := trim raw
  if value = [] then .error (.api 400 "fs_scope_invalid".toList "Scope prefix cannot be empty".toList)
  else if endsWith wildcardEnding value then do
    let normalizedBase ← normalizePath (if beforeWildcard value = [] then ['/'] else beforeWildcard value)
    let normalizedPrefix :=
      if normalizedBase = ['/'] then wildcardEnding else stripSlashes normalizedBase ++ wildcardEnding
    if isPathWithinRemotePath (scopePrefixBasePath normalizedPrefix) remotePath then .ok normalizedPrefix
    else .error (.api 400 "fs_scope_out_of_root".toList "Scope prefix must stay under remote_path".toList)
  else do
    let normalizedBase ← normalizePath value
    if isPathWithinRemotePath normalizedBase remotePath then .ok normalizedBase
    else .error (.api 400 "fs_scope_out_of_root".toList "Scope prefix must stay under remote_path".toList)

/-- The elements of a set in the order in which they were added. -/
def added (values : List Text) : List Text := values.reverse.dedup.reverse

def scopeSource (rawPrefixes : Option (List Text)) (remotePath : Text) : List Text :=
  match rawPrefixes with
  | some (first :: rest) => first :: rest
  | some [] | none => [defaultAllowPrefix remotePath]

def normalizeAllowPrefixes (rawPrefixes : Option (List Text)) (remotePath : Text) : Except ReadError (List Text) := do
  let normalized ← (scopeSource rawPrefixes remotePath).mapM (normalizeAllowPrefix remotePath)
  return if added normalized = [] then [defaultAllowPrefix remotePath] else added normalized

section

variable {path found remotePath : Text}

theorem normalizePath_eq_ok_iff : normalizePath path = .ok found ↔
    found = rooted (trim path) ∧ trim path ≠ [] ∧ climbs found = false := by
  change (if (trim path).isEmpty = true then Except.error _ else
    if climbs (rooted (trim path)) = true then Except.error _ else .ok (rooted (trim path))) = _ ↔ _
  by_cases empty : trim path = []
  · simp [empty]
  · by_cases up : climbs (rooted (trim path)) = true
    · simp only [empty, up, List.isEmpty_iff, if_false, if_true]
      refine iff_of_false nofun fun named => ?_
      rw [named.1, up] at named
      cases named.2.2
    · simp only [empty, up, List.isEmpty_iff, if_false, Bool.false_eq_true, Except.ok.injEq, not_false_eq_true, Ne,
        true_and]
      constructor
      · rintro rfl
        exact ⟨rfl, Bool.eq_false_of_not_eq_true up⟩
      · exact fun named => named.1.symm

theorem rooted_of_slash (slash : path.head? = some '/') : rooted path = path := by
  obtain ⟨rest, rfl⟩ := head?_eq_some_iff.mp slash
  exact if_pos (by simp [startsWith])

theorem head?_rooted (path : Text) : (rooted path).head? = some '/' := by
  unfold rooted
  split
  · next slash =>
    obtain ⟨rest, rfl⟩ := isPrefixOf_iff_prefix.mp slash
    rfl
  · rfl

theorem normalizePath_eq_self (slash : path.head? = some '/') (trimmed : trim path = path)
    (level : climbs path = false) : normalizePath path = .ok path := by
  rw [normalizePath_eq_ok_iff, trimmed, rooted_of_slash slash]
  refine ⟨rfl, ?_, level⟩
  rintro rfl
  cases slash

theorem trim_of_slash (slash : path.head? = some '/')
    (ending : ∀ last, path.getLast? = some last → isSpace last = false) : trim path = path := by
  refine Text.trim_eq_self (fun first isFirst => ?_) ending
  rw [slash, Option.some.injEq] at isFirst
  exact isFirst ▸ by decide

theorem trim_rooted (nonempty : trim path ≠ []) : trim (rooted (trim path)) = rooted (trim path) := by
  refine trim_of_slash (head?_rooted _) fun last isLast => ?_
  unfold rooted at isLast
  split at isLast
  · exact Text.getLast?_trim isLast
  · rw [getLast?_cons_of_ne_nil nonempty] at isLast
    exact Text.getLast?_trim isLast

/-- A path that is accepted starts at the root, climbs nowhere, and is read back as it is. -/
theorem normalizePath_settles (path : Text) :
    (normalizePath path >>= normalizePath) = normalizePath path ∧ ∀ found, normalizePath path = .ok found →
      found.head? = some '/' ∧ climbs found = false := by
  cases accepted : normalizePath path with
  | error message => exact ⟨rfl, fun _ impossible => by cases impossible⟩
  | ok found =>
    obtain ⟨rfl, nonempty, level⟩ := normalizePath_eq_ok_iff.mp accepted
    refine ⟨normalizePath_eq_self (head?_rooted _) (trim_rooted nonempty) level, ?_⟩
    rintro _ ⟨⟩
    exact ⟨head?_rooted _, level⟩

theorem climbs_stripSlashes (level : climbs path = false) : climbs (stripSlashes path) = false := by
  have whole := rdropWhile_append_rtakeWhile (p := (· == '/')) (l := path)
  cases slashes : path.rtakeWhile (· == '/') with
  | nil =>
    rw [slashes, append_nil] at whole
    rwa [stripSlashes, whole]
  | cons slash rest =>
    have isSlash := mem_rtakeWhile_imp (show slash ∈ path.rtakeWhile (· == '/') from slashes ▸ mem_cons_self)
    obtain rfl := beq_iff_eq.mp isSlash
    rw [slashes] at whole
    rw [← whole, climbs, segments, splitOn_append_cons_self, contains_eq_mem, decide_eq_false_iff_not,
      mem_append, not_or] at level
    simpa [climbs, segments, stripSlashes] using level.1

theorem below_iff {base value : Text} : (value == base || startsWith (base ++ ['/']) value) = true ↔
    ∃ rest, value = base ++ rest ∧ StartsWithOrEmpty '/' rest := by
  rw [Bool.or_eq_true, beq_iff_eq, startsWith, isPrefixOf_iff_prefix]
  constructor
  · rintro (rfl | ⟨rest, rfl⟩)
    · exact ⟨[], by simp, .inl rfl⟩
    · exact ⟨'/' :: rest, by simp, .inr rfl⟩
  · rintro ⟨rest, rfl, rfl | slash⟩
    · simp
    · obtain ⟨rest, rfl⟩ := head?_eq_some_iff.mp slash
      exact .inr ⟨rest, by simp⟩

theorem within_iff : isPathWithinRemotePath path remotePath = true ↔ remotePath = ['/'] ∨
    ∃ rest, strippedPath path = strippedPath remotePath ++ rest ∧ StartsWithOrEmpty '/' rest := by
  unfold isPathWithinRemotePath
  split
  · next root => simp [root]
  · next deep => simp only [below_iff, deep, false_or]

theorem stripSlashes_idem (path : Text) : stripSlashes (stripSlashes path) = stripSlashes path :=
  Text.stripEnd_eq_self (Text.getLast?_stripEnd path)

theorem strippedPath_ne_nil (path : Text) : strippedPath path ≠ [] := by
  unfold strippedPath
  split
  · exact cons_ne_nil _ _
  · assumption

theorem strippedPath_append {base rest : Text} (stripped : stripSlashes base = base) (nonempty : base ≠ [])
    (slash : StartsWithOrEmpty '/' rest) :
    ∃ kept, strippedPath (base ++ rest) = base ++ kept ∧ StartsWithOrEmpty '/' kept := by
  have ending : base.getLast? ≠ some '/' := stripped ▸ Text.getLast?_stripEnd base
  have whole : stripSlashes (base ++ rest) = base ++ stripSlashes rest := Text.stripEnd_append ending rest
  refine ⟨stripSlashes rest, by rw [strippedPath, whole, if_neg (by simp [nonempty])], ?_⟩
  obtain ⟨trailing, same⟩ := @Text.stripEnd_begins '/' rest
  cases kept : stripSlashes rest with
  | nil => exact .inl rfl
  | cons first others =>
    rw [show Text.stripEnd '/' rest = _ from kept] at same
    rcases slash with rfl | slash
    · cases same
    · rw [← same] at slash
      exact .inr slash

end

/-- What is before the wildcard, from the root and without the slashes that end it. -/
def wildcardBase (raw : Text) : Text := stripSlashes (rooted (trim (beforeWildcard (trim raw))))

def StandsForRoot (raw : Text) : Prop :=
  trim raw = ['*', '*'] ∨ (endsWith wildcardEnding (trim raw) = true ∧ wildcardBase raw = [])

def EndsBlank (raw : Text) : Prop :=
  endsWith wildcardEnding (trim raw) = true ∧ ∃ last ∈ (wildcardBase raw).getLast?, isSpace last = true

section

variable {remotePath raw accepted base : Text}

@[simp] theorem beforeWildcard_append (base : Text) : beforeWildcard (base ++ wildcardEnding) = base := by
  simp [beforeWildcard, wildcardEnding, dropLast_append_of_ne_nil]

@[simp] theorem endsWith_append (base : Text) : endsWith wildcardEnding (base ++ wildcardEnding) = true :=
  isSuffixOf_iff_suffix.mpr (suffix_append _ _)

theorem scopePrefixBasePath_append (stripped : stripSlashes base = base) :
    scopePrefixBasePath (base ++ wildcardEnding) = if base = [] then ['/'] else base := by
  unfold scopePrefixBasePath
  by_cases empty : base = []
  · simp [empty]
  · have shorter := beforeWildcard_append base
    unfold beforeWildcard at shorter
    simp [empty, shorter, stripped]

theorem trim_beforeWildcard_ne_nil :
    trim (if beforeWildcard (trim raw) = [] then ['/'] else beforeWildcard (trim raw)) ≠ [] := by
  split
  · decide
  · next nonempty =>
    obtain ⟨first, rest, shape⟩ := exists_cons_of_ne_nil nonempty
    have begins : beforeWildcard (trim raw) <+: trim raw :=
      ((List.dropLast_prefix _).trans (List.dropLast_prefix _)).trans (List.dropLast_prefix _)
    obtain ⟨ending, whole⟩ := begins
    have visible : isSpace first = false := by
      refine Text.head?_trimmed (show (trim raw).head? = some first from ?_)
      rw [← whole, shape]
      rfl
    rw [shape, trim, dropWhile_cons_of_neg (by simp [visible])]
    intro empty
    have kept := @Text.head?_rdropWhile isSpace (first :: rest) first rfl visible
    rw [empty] at kept
    cases kept

theorem normalizeAllowPrefix_eq_ok_iff : normalizeAllowPrefix remotePath raw = .ok accepted ↔ trim raw ≠ [] ∧
    ((endsWith wildcardEnding (trim raw) = true ∧ climbs (rooted (trim (beforeWildcard (trim raw)))) = false ∧
        accepted = wildcardBase raw ++ wildcardEnding ∧
        isPathWithinRemotePath (scopePrefixBasePath accepted) remotePath = true) ∨
      (endsWith wildcardEnding (trim raw) = false ∧ accepted = rooted (trim raw) ∧
        climbs accepted = false ∧ isPathWithinRemotePath accepted remotePath = true)) := by
  unfold normalizeAllowPrefix
  dsimp only
  by_cases empty : trim raw = []
  · simp [empty]
  · rw [if_neg empty]
    have wild {base : Text} : (if base = ['/'] then wildcardEnding else stripSlashes base ++ wildcardEnding) =
        stripSlashes base ++ wildcardEnding := by
      split
      · next root => rw [root]; rfl
      · rfl
    have whole : rooted (trim (if beforeWildcard (trim raw) = [] then ['/'] else beforeWildcard (trim raw))) =
        rooted (trim (beforeWildcard (trim raw))) := by
      split
      · next none => rw [none]; rfl
      · rfl
    split
    · next ends =>
      simp only [bind_eq_ok, normalizePath_eq_ok_iff, whole, wild, ends, empty, trim_beforeWildcard_ne_nil, true_and,
        not_false_eq_true, Ne, Bool.true_eq_false, false_and, or_false]
      constructor
      · rintro ⟨base, ⟨isBase, level⟩, within⟩
        subst base
        split at within
        · next under =>
          have isAccepted := Except.ok.inj within
          subst accepted
          exact ⟨level, rfl, under⟩
        · cases within
      · rintro ⟨level, isAccepted, within⟩
        subst accepted
        exact ⟨_, ⟨rfl, level⟩, if_pos within⟩
    · next tame =>
      have again : trim (trim raw) = trim raw :=
        Text.trim_eq_self (fun _ => Text.head?_trimmed) fun _ => Text.getLast?_trim
      simp only [bind_eq_ok, normalizePath_eq_ok_iff, Bool.eq_false_of_not_eq_true tame, empty, again, true_and,
        not_false_eq_true, Ne, Bool.false_eq_true, false_and, false_or]
      constructor
      · rintro ⟨base, ⟨isBase, level⟩, within⟩
        subst base
        split at within
        · next under =>
          have isAccepted := Except.ok.inj within
          subst accepted
          exact ⟨rfl, level, under⟩
        · cases within
      · rintro ⟨isAccepted, level, within⟩
        subst accepted
        exact ⟨_, ⟨rfl, level⟩, if_pos within⟩

theorem accepted_eq_wildcard_iff (normalized : normalizeAllowPrefix remotePath raw = .ok accepted) :
    accepted = wildcardEnding ↔ StandsForRoot raw := by
  obtain ⟨_, ⟨wild, _, isAccepted, _⟩ | ⟨tame, isAccepted, _, _⟩⟩ := normalizeAllowPrefix_eq_ok_iff.mp normalized <;>
    subst accepted
  · have other : trim raw ≠ ['*', '*'] := fun same => absurd (same ▸ wild) (by decide)
    simp [StandsForRoot, other, wild]
  · simp only [StandsForRoot, tame, Bool.false_eq_true, false_and, or_false]
    unfold rooted
    split
    · next slash =>
      refine iff_of_false (fun same => ?_) fun same => ?_
      · rw [same] at tame
        cases tame
      · rw [same] at slash
        cases slash
    · simp [wildcardEnding]

theorem endsWith_rooted (tame : endsWith wildcardEnding (trim raw) = false)
    (other : rooted (trim raw) ≠ wildcardEnding) : endsWith wildcardEnding (rooted (trim raw)) = false := by
  unfold rooted at other ⊢
  split
  · exact tame
  · next slashless =>
    rw [if_neg slashless] at other
    rw [Bool.eq_false_iff]
    intro ends
    rcases suffix_cons_iff.mp (isSuffixOf_iff_suffix.mp ends) with same | later
    · exact other same.symm
    · exact absurd (isSuffixOf_iff_suffix.mpr later) (Bool.eq_false_iff.mp tame)

theorem head?_wildcardBase (nonempty : wildcardBase raw ≠ []) : (wildcardBase raw).head? = some '/' := by
  obtain ⟨trailing, whole⟩ := rdropWhile_prefix (· == '/') (rooted (trim (beforeWildcard (trim raw))))
  rw [← head?_rooted (trim (beforeWildcard (trim raw))), ← whole, head?_append_of_ne_nil]
  · rfl
  · exact nonempty

theorem normalizeAllowPrefix_again_iff (normalized : normalizeAllowPrefix remotePath raw = .ok accepted)
    (root : accepted = wildcardEnding → remotePath = ['/']) :
    normalizeAllowPrefix remotePath accepted = .ok accepted ↔ ¬ EndsBlank raw := by
  obtain ⟨nonempty, ⟨wild, level, isAccepted, within⟩ | ⟨tame, isAccepted, level, within⟩⟩ :=
    normalizeAllowPrefix_eq_ok_iff.mp normalized <;> subst accepted
  · have trimmed : trim (wildcardBase raw ++ wildcardEnding) = wildcardBase raw ++ wildcardEnding := by
      apply trim_of_slash
      · by_cases empty : wildcardBase raw = []
        · rw [empty]
          rfl
        · rw [head?_append_of_ne_nil _ empty, head?_wildcardBase empty]
      · intro last isLast
        rw [getLast?_append_of_ne_nil _ (by simp [wildcardEnding])] at isLast
        cases isLast
        decide
    have again : wildcardBase (wildcardBase raw ++ wildcardEnding) =
        stripSlashes (rooted (trim (wildcardBase raw))) := by
      rw [wildcardBase, trimmed, beforeWildcard_append]
    rw [normalizeAllowPrefix_eq_ok_iff, trimmed, again, beforeWildcard_append, endsWith_append]
    simp only [within, append_cancel_right_eq, Bool.true_eq_false, false_and, or_false, and_true, true_and]
    constructor
    · intro kept blank
      obtain ⟨_, last, isLast, space⟩ := blank
      have some_base : wildcardBase raw ≠ [] := fun empty => by simp [empty] at isLast
      have first : (trim (wildcardBase raw)).head? = some '/' := by
        obtain ⟨rest, shape⟩ := head?_eq_some_iff.mp (head?_wildcardBase some_base)
        rw [shape, trim, dropWhile_cons_of_neg (by decide)]
        exact Text.head?_rdropWhile rfl (by decide)
      have same := kept.2.2
      rw [rooted_of_slash first] at same
      have whole : trim (wildcardBase raw) = wildcardBase raw :=
        (Text.trim_sublist _).eq_of_length_le ((congrArg List.length same).trans_le
          (List.rdropWhile_prefix _ _).length_le)
      rw [← whole] at isLast
      exact absurd (Text.getLast?_trim isLast) (by simp [space])
    · intro kept
      have trimmedBase : trim (wildcardBase raw) = wildcardBase raw := by
        by_cases empty : wildcardBase raw = []
        · rw [empty]
          rfl
        · refine trim_of_slash (head?_wildcardBase empty) fun last isLast => ?_
          exact Bool.eq_false_of_not_eq_true fun space => kept ⟨wild, last, isLast, space⟩
      rw [trimmedBase]
      by_cases empty : wildcardBase raw = []
      · rw [empty]
        exact ⟨by simp [wildcardEnding], by decide, rfl⟩
      · rw [rooted_of_slash (head?_wildcardBase empty)]
        exact ⟨by simp [wildcardEnding], climbs_stripSlashes level, (stripSlashes_idem _).symm⟩
  · have kept : ¬ EndsBlank raw := fun blank => absurd blank.1 (by simp [tame])
    refine iff_of_true ?_ kept
    by_cases whole : rooted (trim raw) = wildcardEnding
    · rw [whole, root whole]
      decide +kernel
    · refine normalizeAllowPrefix_eq_ok_iff.mpr ?_
      rw [trim_rooted nonempty]
      exact ⟨fun empty => by simpa [empty] using head?_rooted (trim raw), .inr
        ⟨endsWith_rooted tame whole, (rooted_of_slash (head?_rooted _)).symm, level, within⟩⟩

theorem within_of_allowed {value : Text} (normalized : normalizeAllowPrefix remotePath raw = .ok accepted)
    (root : accepted = wildcardEnding → remotePath = ['/']) (allowed : isPathAllowedByScope value [accepted] = true) :
    isPathWithinRemotePath value remotePath = true := by
  by_cases whole : remotePath = ['/']
  · simp [isPathWithinRemotePath, whole]
  · have deep := mt root whole
    unfold isPathAllowedByScope at allowed
    simp only [any_cons, any_nil, Bool.or_false, deep, if_false] at allowed
    obtain ⟨nonempty, ⟨_, _, isAccepted, within⟩ | ⟨tame, isAccepted, _, within⟩⟩ :=
      normalizeAllowPrefix_eq_ok_iff.mp normalized <;> subst accepted
    · have some_base : wildcardBase raw ≠ [] := fun empty => deep (by rw [empty]; rfl)
      have stripped : stripSlashes (wildcardBase raw) = wildcardBase raw := stripSlashes_idem _
      rw [scopePrefixBasePath_append stripped, if_neg some_base] at within allowed
      rw [endsWith_append, if_pos rfl, below_iff] at allowed
      obtain ⟨rest, isValue, slash⟩ := allowed
      subst value
      obtain ⟨kept, below, keptSlash⟩ := strippedPath_append stripped some_base slash
      rw [within_iff, or_iff_right whole, strippedPath, stripped, if_neg some_base] at within
      obtain ⟨between, isBelow, isSlash⟩ := within
      rw [within_iff, below, isBelow, append_assoc]
      refine .inr ⟨_, rfl, ?_⟩
      rcases isSlash with rfl | first
      · exact keptSlash
      · exact .inr (by rw [head?_append, first]; rfl)
    · rw [endsWith_rooted tame deep] at allowed
      simp only [Bool.false_eq_true, if_false, beq_iff_eq] at allowed
      exact allowed ▸ within

theorem root_of_within (normalized : normalizeAllowPrefix remotePath raw = .ok wildcardEnding)
    (within : isPathWithinRemotePath ['/', 'x'] remotePath = true) : remotePath = ['/'] := by
  by_contra deep
  have other : isPathWithinRemotePath ['/'] remotePath = true ∨
      isPathWithinRemotePath wildcardEnding remotePath = true := by
    obtain ⟨_, ⟨_, _, _, within⟩ | ⟨_, _, _, within⟩⟩ := normalizeAllowPrefix_eq_ok_iff.mp normalized
    · exact .inl within
    · exact .inr within
  simp only [within_iff, deep, false_or] at within other
  obtain ⟨first, trail, shape⟩ := exists_cons_of_ne_nil (strippedPath_ne_nil remotePath)
  rw [shape] at within other
  obtain ⟨rest, whole, slash⟩ := within
  obtain ⟨rfl, same⟩ := cons_eq_cons.mp (show '/' :: ['x'] = first :: (trail ++ rest) from whole)
  have isTrail : trail = ['x'] := by
    cases trail with
    | nil =>
      cases same
      exact absurd slash (by simp [StartsWithOrEmpty])
    | cons second trail =>
      obtain ⟨rfl, empty⟩ := cons_eq_cons.mp same
      rw [(append_eq_nil_iff.mp empty.symm).1]
  subst isTrail
  rcases other with ⟨_, same, _⟩ | ⟨_, same, _⟩
  · cases same
  · cases same

end

/-- What the link allows is under its remote path, and its scope is the scope of itself. -/
def StaysUnderRoot (linkPath : Text) (rawPrefixes : Option (List Text)) : Prop :=
  ∀ remotePath allowPrefixes, normalizePath linkPath = .ok remotePath →
    normalizeAllowPrefixes rawPrefixes remotePath = .ok allowPrefixes →
    (∀ path value, normalizePath path = .ok value → isPathAllowedByScope value allowPrefixes = true →
      isPathWithinRemotePath value remotePath = true) ∧
    normalizeAllowPrefixes (some allowPrefixes) remotePath = .ok allowPrefixes

theorem normalizeAllowPrefixes_eq_ok {rawPrefixes : Option (List Text)} {remotePath : Text} {allowPrefixes : List Text}
    (normalized : normalizeAllowPrefixes rawPrefixes remotePath = .ok allowPrefixes) :
    ∃ results, List.Forall₂ (fun raw result => normalizeAllowPrefix remotePath raw = .ok result)
      (scopeSource rawPrefixes remotePath) results ∧ allowPrefixes = added results ∧ added results ≠ [] := by
  obtain ⟨results, ran, normalized⟩ := bind_eq_ok.mp normalized
  have each := mapM_eq_ok.mp ran
  have nonempty : added results ≠ [] := by
    intro empty
    have short := each.length_eq
    rw [added, reverse_eq_nil_iff, dedup_eq_nil, reverse_eq_nil_iff] at empty
    rw [empty] at short
    unfold scopeSource at short
    split at short
    · cases short
    · cases short
    · cases short
  rw [if_neg nonempty] at normalized
  cases normalized
  exact ⟨results, each, rfl, nonempty⟩

/-- A link's scope stays under its remote path, and is kept when it is normalized again, exactly when only a
link of the whole root has a prefix that stands for the root and no base of a wildcard ends in a blank. -/
theorem stays_under_root_iff (linkPath : Text) (rawPrefixes : Option (List Text)) :
    StaysUnderRoot linkPath rawPrefixes ↔ ∀ remotePath allowPrefixes, normalizePath linkPath = .ok remotePath →
      normalizeAllowPrefixes rawPrefixes remotePath = .ok allowPrefixes →
      ∀ raw ∈ scopeSource rawPrefixes remotePath, (StandsForRoot raw → remotePath = ['/']) ∧ ¬ EndsBlank raw := by
  refine forall₄_congr fun remotePath allowPrefixes named normalized => ?_
  obtain ⟨results, each, rfl, nonempty⟩ := normalizeAllowPrefixes_eq_ok normalized
  have mem_added {accepted : Text} : accepted ∈ added results ↔ accepted ∈ results := by simp [added]
  have source : scopeSource (some (added results)) remotePath = added results := by
    obtain ⟨first, rest, shape⟩ := exists_cons_of_ne_nil nonempty
    rw [shape]
    rfl
  constructor
  · rintro ⟨contained, again⟩ raw member
    obtain ⟨accepted, present, isAccepted⟩ := related_of_mem each member
    have root : accepted = wildcardEnding → remotePath = ['/'] := by
      rintro rfl
      refine root_of_within isAccepted (contained _ ['/', 'x'] (by decide : normalizePath ['/', 'x'] = _) ?_)
      exact any_eq_true.mpr ⟨wildcardEnding, mem_added.mpr present, if_pos rfl⟩
    refine ⟨fun stands => root ((accepted_eq_wildcard_iff isAccepted).mpr stands), ?_⟩
    rw [← normalizeAllowPrefix_again_iff isAccepted root]
    obtain ⟨others, eachOther, same, _⟩ := normalizeAllowPrefixes_eq_ok again
    rw [source] at eachOther
    have sub : (added others).reverse.Sublist others.reverse := by
      rw [added, reverse_reverse]
      exact dedup_sublist _
    have whole : added others = others := by
      refine reverse_injective (sub.eq_of_length ?_)
      rw [length_reverse, length_reverse, ← same, eachOther.length_eq]
    rw [whole] at same
    rw [← same] at eachOther
    exact forall₂_same.mp eachOther _ (mem_added.mpr present)
  · intro conditions
    have accept : ∀ accepted ∈ added results, ∃ raw, normalizeAllowPrefix remotePath raw = .ok accepted ∧
        (accepted = wildcardEnding → remotePath = ['/']) ∧ ¬ EndsBlank raw := by
      intro accepted member
      obtain ⟨raw, present, isAccepted⟩ := related_of_mem each.flip (mem_added.mp member)
      obtain ⟨root, tame⟩ := conditions raw present
      exact ⟨raw, isAccepted, fun whole => root ((accepted_eq_wildcard_iff isAccepted).mp whole), tame⟩
    constructor
    · intro path value _ allowed
      obtain ⟨accepted, member, allowed⟩ := any_eq_true.mp allowed
      obtain ⟨raw, isAccepted, root, _⟩ := accept accepted member
      exact within_of_allowed isAccepted root (any_eq_true.mpr ⟨accepted, mem_singleton_self _, allowed⟩)
    · have ran : (added results).mapM (normalizeAllowPrefix remotePath) = .ok (added results) := by
        refine mapM_eq_ok.mpr (forall₂_same.mpr fun accepted member => ?_)
        obtain ⟨raw, isAccepted, root, tame⟩ := accept accepted member
        exact (normalizeAllowPrefix_again_iff isAccepted root).mpr tame
      have again : added (added results) = added results := by
        simp only [added, reverse_reverse, dedup_idem]
      rw [normalizeAllowPrefixes, source]
      refine bind_eq_ok.mpr ⟨_, ran, ?_⟩
      rw [again, if_neg nonempty]
      rfl

/-- A link of `//` has no other default than the whole root. -/
theorem double_slash_allows_root : ¬ ∀ linkPath rawPrefixes, StaysUnderRoot linkPath rawPrefixes := by
  intro stays
  have contained := stays ['/', '/'] none ['/', '/'] [wildcardEnding] (by decide +kernel) (by decide +kernel)
  exact absurd (contained.1 ['/', 'x'] ['/', 'x'] (by decide +kernel) (by decide +kernel)) (by decide +kernel)

end EveHorizon.OrgFs
