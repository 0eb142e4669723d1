import EveHorizon.Kubernetes.Injectivity
import EveHorizon.Library.Checks

/-!
# Names and label values are valid

What the derivations of names and label values return is valid, and a valid name is its own
derivation.
-/

namespace EveHorizon.Kubernetes

open List

def isAlphanumeric (char : Char) : Bool := isLowerLetter char || isDigit char

def isOutsideLabel (char : Char) : Bool :=
  !(isAlphanumeric char || char == '-' || char == '_' || char == '.')

def normalizedLabel (value : Text) : Text :=
  Text.stripEnd '-' (((Text.replaceRuns isOutsideLabel '-' (toLowerCase value)).dropWhile
    (!isAlphanumeric ·)).rdropWhile (!isAlphanumeric ·))

def toK8sLabelValue (value label : Text) : Except Text Text :=
  if normalizedLabel value = [] then .error ("Invalid ".toList ++ label ++ " label value: ".toList ++ value)
  else if 63 < (normalizedLabel value).length then
    .ok (((normalizedLabel value).take 63).rdropWhile fun found => found == '-' || found == '_' || found == '.')
  else .ok (normalizedLabel value)

/-- `slice(0, stop)`, where a negative stop counts from the end. -/
def sliceTo (text : Text) (stop : Int) : Text :=
  if 0 ≤ stop then text.take stop.toNat else text.take (text.length + stop).toNat

def appendK8sSuffix (base suffix label : Text) : Except Text Text := do
  let normalizedSuffix ← toK8sName suffix label
  let reserved := normalizedSuffix.length + 1
  let trimmedBase := Text.stripEnd '-' (sliceTo base (63 - reserved))
  let combined := trimmedBase ++ '-' :: normalizedSuffix
  if trimmedBase = [] ∨ 63 < combined.length then
    .error ("Invalid ".toList ++ label ++ " name from ".toList ++ base ++ '-' :: suffix)
  else .ok combined

variable {name : Text}

theorem IsK8sName.normalized_eq (valid : IsK8sName name) : normalized name = name := by
  have lower : toLowerCase name = name := by
    refine toLowerCase_eq_self fun found member => ?_
    have inside := valid.alphabet found member
    by_cases dash : found = '-'
    · rw [dash]
      rfl
    · simp only [isOutside, dash, decide_false, Bool.or_false, Bool.not_eq_false'] at inside
      exact (isOutside_of_lower inside).2.2
  have kept : name.map (fun found => if isOutside found then '-' else found) = name := by
    have same : ∀ found ∈ name, (if isOutside found then '-' else found) = id found :=
      fun found member => by simp [valid.alphabet found member]
    rw [map_congr_left same, map_id]
  rw [normalized, lower, Text.slug_eq, kept, valid.single, Text.stripStart_eq_self valid.start,
    Text.stripEnd_eq_self valid.ending]

theorem IsK8sName.toK8sName_eq (valid : IsK8sName name) (label : Text) : toK8sName name label = .ok name := by
  rw [toK8sName, valid.normalized_eq, if_neg valid.nonempty, if_neg (Nat.not_lt.mpr valid.short)]

theorem IsK8sName.join {left right : Text} (valid : IsK8sName left) (valid' : IsK8sName right)
    (short : left.length + right.length ≤ 62) : IsK8sName (left ++ '-' :: right) where
  alphabet := by
    intro found member
    rcases mem_append.mp member with first | second
    · exact valid.alphabet found first
    · rcases mem_cons.mp second with rfl | later
      · decide
      · exact valid'.alphabet found later
  nonempty := by simp
  start := by
    rw [head?_append_of_ne_nil _ valid.nonempty]
    exact valid.start
  ending := by
    rw [getLast?_append_of_ne_nil _ (cons_ne_nil _ _), getLast?_cons_of_ne_nil valid'.nonempty]
    exact valid'.ending
  single := Text.squeeze_join valid.single valid.ending valid'.single valid'.start
  short := by
    rw [length_append, length_cons]
    omega

theorem IsK8sName.cut (valid : IsK8sName name) {bound : Nat} (room : 1 ≤ bound) (short : bound ≤ 63) :
    IsK8sName (Text.stripEnd '-' (name.take bound)) :=
  .stripEnd_take valid.alphabet valid.nonempty valid.start valid.single room short

theorem combined_isK8sName {env component : Text} (valid : IsK8sName env) (valid' : IsK8sName component) :
    IsK8sName ((shown env component).1 ++ '-' :: (shown env component).2) := by
  unfold shown
  split
  · next short =>
    rw [length_append, length_cons] at short
    dsimp only
    exact valid.join valid' (by omega)
  · have left := (@Text.stripEnd_begins '-' (env.take 31)).length_le.trans (length_take_le 31 env)
    have right := (@Text.stripEnd_begins '-' (component.take 31)).length_le.trans (length_take_le 31 component)
    exact (valid.cut (by decide) (by decide)).join (valid'.cut (by decide) (by decide)) (Nat.add_le_add left right)

theorem appended_isK8sName {base suffix label : Text} (valid : IsK8sName base)
    (appended : appendK8sSuffix base suffix label = .ok name) : IsK8sName name := by
  unfold appendK8sSuffix at appended
  rw [Checks.bind_eq_ok] at appended
  obtain ⟨ending, named, appended⟩ := appended
  dsimp only at appended
  split at appended
  · cases appended
  · next fits =>
    cases appended
    push Not at fits
    obtain ⟨nonempty, short⟩ := fits
    obtain ⟨bound, within, cut⟩ : ∃ bound ≤ 63, sliceTo base (63 - (ending.length + 1 : Nat)) = base.take bound := by
      have whole := valid.short
      unfold sliceTo
      split
      · exact ⟨_, by omega, rfl⟩
      · exact ⟨_, by omega, rfl⟩
    rw [cut] at nonempty short ⊢
    rw [length_append, length_cons] at short
    have room : 1 ≤ bound := by
      rw [Nat.one_le_iff_ne_zero]
      rintro rfl
      exact nonempty rfl
    exact (valid.cut room within).join (toK8sName_isK8sName named) (by omega)

structure IsLabelValue (value : Text) : Prop where
  alphabet : ∀ found ∈ value, isOutsideLabel found = false
  start : ∃ first ∈ value.head?, isAlphanumeric first = true
  ending : ∃ last ∈ value.getLast?, isAlphanumeric last = true
  short : value.length ≤ 63

theorem toK8sLabelValue_isLabelValue {value label : Text} (named : toK8sLabelValue value label = .ok name) :
    IsLabelValue name := by
  let inner := ((Text.replaceRuns isOutsideLabel '-' (toLowerCase value)).dropWhile (!isAlphanumeric ·)).rdropWhile
    (!isAlphanumeric ·)
  have ending {last : Char} (isLast : inner.getLast? = some last) : isAlphanumeric last = true := by
    simpa using Text.getLast?_rdropWhile isLast
  have whole : normalizedLabel value = inner := Text.stripEnd_eq_self fun dash => absurd (ending dash) (by decide)
  have inLabel : ∀ found ∈ inner, isOutsideLabel found = false := by
    intro found member
    exact Text.mem_replaceRuns (by decide) ((dropWhile_sublist _).subset ((List.rdropWhile_prefix _ _).subset member))
  unfold toK8sLabelValue at named
  rw [whole] at named
  split at named
  · cases named
  · next nonempty =>
    obtain ⟨last, isLast⟩ := Option.ne_none_iff_exists'.mp (mt getLast?_eq_none_iff.mp nonempty)
    obtain ⟨first, isFirst⟩ := Option.ne_none_iff_exists'.mp (mt head?_eq_none_iff.mp nonempty)
    have start : isAlphanumeric first = true := by
      simpa using Text.head?_trimmed isFirst
    split at named
    · rw [Except.ok.injEq] at named
      subst named
      have sameFirst : ((inner.take 63).rdropWhile fun found => found == '-' || found == '_' || found == '.').head? =
          some first := by
        apply Text.head?_rdropWhile
        · rw [head?_take, if_neg (by decide), isFirst]
        · have plain : ∀ {found}, isAlphanumeric found = true →
              (found == '-' || found == '_' || found == '.') = false := by
            intro found alphanumeric
            rw [Bool.eq_false_iff]
            intro mark
            simp only [Bool.or_eq_true, beq_iff_eq] at mark
            rcases mark with (rfl | rfl) | rfl <;> exact absurd alphanumeric (by decide)
          exact plain start
      obtain ⟨last, isLast⟩ := Option.ne_none_iff_exists'.mp (mt getLast?_eq_none_iff.mp (ne_nil_of_mem
        (mem_of_mem_head? sameFirst)))
      have within : last ∈ inner := mem_of_mem_take ((List.rdropWhile_prefix _ _).subset (mem_of_mem_getLast? isLast))
      refine ⟨?_, ⟨first, sameFirst, start⟩, ⟨last, isLast, ?_⟩, ?_⟩
      · intro found member
        exact inLabel found (mem_of_mem_take ((List.rdropWhile_prefix _ _).subset member))
      · have kept := Text.getLast?_rdropWhile isLast
        have inside := inLabel last within
        simp only [isOutsideLabel, Bool.or_assoc, Bool.not_eq_false'] at inside
        rw [Bool.or_assoc] at kept
        rwa [kept, Bool.or_false] at inside
      · exact (List.rdropWhile_prefix _ _).length_le.trans (length_take_le _ _)
    · next fits =>
      rw [Except.ok.injEq] at named
      subst named
      exact ⟨inLabel, ⟨first, isFirst, start⟩, ⟨last, isLast, ending isLast⟩, Nat.not_lt.mp fits⟩

/-- What is derived is valid and is kept when it is derived again. -/
theorem derived_names_valid :
    (∀ value label name, toK8sName value label = .ok name → IsK8sName name ∧ ∀ label, toK8sName name label = .ok name) ∧
    (∀ value label name, toK8sLabelValue value label = .ok name → IsLabelValue name) ∧
    (∀ env component label, IsSlug env → IsSlug component → ∃ name, combineK8sName env component label = .ok name ∧
      IsK8sName name ∧ ∀ label, toK8sName name label = .ok name) ∧
    ∀ base suffix label name, IsSlug base → appendK8sSuffix base suffix label = .ok name →
      IsK8sName name ∧ ∀ label, toK8sName name label = .ok name := by
  have kept : ∀ {name}, IsK8sName name → IsK8sName name ∧ ∀ label, toK8sName name label = .ok name :=
    fun valid => ⟨valid, valid.toK8sName_eq⟩
  refine ⟨fun _ _ _ named => kept (toK8sName_isK8sName named), fun _ _ _ => toK8sLabelValue_isLabelValue, ?_, ?_⟩
  · intro env component label envSlug componentSlug
    obtain ⟨_, _, named⟩ := envSlug
    obtain ⟨_, _, named'⟩ := componentSlug
    exact ⟨_, combineK8sName_eq (toK8sName_isK8sName named') label,
      kept (combined_isK8sName (toK8sName_isK8sName named) (toK8sName_isK8sName named'))⟩
  · intro base suffix label name baseSlug appended
    obtain ⟨_, _, named⟩ := baseSlug
    exact kept (appended_isK8sName (toK8sName_isK8sName named) appended)

end EveHorizon.Kubernetes
