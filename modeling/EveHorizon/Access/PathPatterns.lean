import EveHorizon.Access.Delegation

/-!
# What path patterns mean

The language of a path pattern, and when the expression compiled from it agrees: the dot of the
expression stands for no line terminator.
-/

namespace EveHorizon.Access

/-- The paths a pattern with stars stands for; two stars stand for any text that `deep` allows. -/
def Denotes (deep : Text → Prop) : Text → Text → Prop
  | [], path => path = []
  | '*' :: '*' :: pattern, path =>
    ∃ any rest, path = any ++ rest ∧ deep any ∧ Denotes deep pattern rest
  | '*' :: pattern, path =>
    ∃ segment rest, path = segment ++ rest ∧ '/' ∉ segment ∧ Denotes deep pattern rest
  | char :: pattern, path => ∃ rest, path = char :: rest ∧ Denotes deep pattern rest

def Means (deep : Text → Prop) (pattern path : Text) : Prop :=
  if '*' ∈ pattern then Denotes deep pattern path
  else path = pattern ∨
    ∃ rest, path = pattern ++ rest ∧ (pattern.getLast? = some '/' ∨ rest.head? = some '/')

def OneLine (text : Text) : Prop := ∀ found ∈ text, RegExp.isLineTerminator found = false

variable {pattern path : Text}

theorem accepts_iff_denotes : RegExp.accepts (wildcardItems pattern) path = true ↔ Denotes OneLine pattern path := by
  fun_induction wildcardItems pattern generalizing path with
  | case1 => simp [RegExp.accepts, Denotes]
  | case2 pattern ih =>
    simp only [RegExp.accepts, RegExp.acceptsMany_iff, ih, Denotes, OneLine, RegExp.Atom.accepts, Bool.not_eq_true']
  | case3 pattern single ih =>
    rw [Denotes]
    · simp only [RegExp.accepts, RegExp.acceptsMany_iff, ih, RegExp.Atom.accepts, bne_iff_ne]
      constructor
      · rintro ⟨segment, rest, whole, free, onward⟩
        exact ⟨segment, rest, whole, fun member => free _ member rfl, onward⟩
      · rintro ⟨segment, rest, whole, free, onward⟩
        exact ⟨segment, rest, whole, fun found member same => free (same ▸ member), onward⟩
    · exact single
  | case4 char pattern paired single ih =>
    rw [Denotes]
    · cases path with
      | nil => simp [RegExp.accepts]
      | cons found rest =>
        simp only [RegExp.accepts, RegExp.Atom.accepts, Bool.and_eq_true, beq_iff_eq, ih]
        constructor
        · rintro ⟨rfl, onward⟩
          exact ⟨rest, rfl, onward⟩
        · rintro ⟨rest, whole, onward⟩
          obtain ⟨rfl, rfl⟩ := List.cons_eq_cons.mp whole
          exact ⟨rfl, onward⟩
    · exact paired
    · exact single

theorem test_iff_denotes (pattern text : Text) :
    RegExp.test (wildcardPathToRegExpSource pattern) text = true ↔ Denotes OneLine pattern text := by
  rw [wildcardPathToRegExpSource_eq_render, RegExp.test_render (wildcardItems_renderable _), accepts_iff_denotes]

theorem endsWith_slash : Text.endsWith ['/'] pattern = true ↔ pattern.getLast? = some '/' := by
  rw [Text.endsWith, List.isSuffixOf_iff_suffix]
  constructor
  · rintro ⟨leading, rfl⟩
    exact List.getLast?_concat
  · intro last
    obtain ⟨leading, rfl⟩ := List.getLast?_eq_some_iff.mp last
    exact List.suffix_append _ _

theorem extended_iff : (path = pattern ∨ extendedPath pattern <+: path) ↔ path = pattern ∨
      ∃ rest, path = pattern ++ rest ∧ (pattern.getLast? = some '/' ∨ rest.head? = some '/') := by
  unfold extendedPath
  split
  · next closed =>
      have last := endsWith_slash.mp closed
      simp only [last, true_or, and_true]
      exact or_congr_right ⟨fun ⟨rest, whole⟩ => ⟨rest, whole.symm⟩, fun ⟨rest, whole⟩ => ⟨rest, whole.symm⟩⟩
  · next opened =>
      have last : pattern.getLast? ≠ some '/' := fun last => opened (endsWith_slash.mpr last)
      simp only [last, false_or]
      refine or_congr_right ⟨?_, ?_⟩
      · rintro ⟨rest, rfl⟩
        exact ⟨'/' :: rest, by simp, rfl⟩
      · rintro ⟨rest, rfl, slash⟩
        obtain ⟨rest, rfl⟩ := List.head?_eq_some_iff.mp slash
        exact ⟨rest, by simp⟩

theorem matchesPathPattern_iff_means (pattern path : Text) : matchesPathPattern pattern path = true ↔
      Means OneLine (normalizeScopedPath pattern) (normalizeScopedPath path) := by
  unfold Means
  split
  · next starred =>
      rw [← test_iff_denotes]
      simp [matchesPathPattern, starred]
  · next starless => rw [matchesPathPattern_plain starless, extended_iff]

theorem Denotes.mono {deep wider : Text → Prop} (within : ∀ text, deep text → wider text)
    (denoted : Denotes deep pattern path) : Denotes wider pattern path := by
  fun_induction Denotes deep pattern path with
  | case1 => exact denoted
  | case2 pattern path ih =>
    obtain ⟨any, rest, whole, allowed, onward⟩ := denoted
    exact ⟨any, rest, whole, within any allowed, ih rest onward⟩
  | case3 path pattern single ih =>
    obtain ⟨segment, rest, whole, free, onward⟩ := denoted
    rw [Denotes]
    · exact ⟨segment, rest, whole, free, ih rest onward⟩
    · exact single
  | case4 path char pattern paired single ih =>
    obtain ⟨rest, whole, onward⟩ := denoted
    rw [Denotes]
    · exact ⟨rest, whole, ih rest onward⟩
    · exact paired
    · exact single

theorem path_pattern_means_iff (pattern path : Text) : ((matchesPathPattern pattern path = true ↔
          Means (fun _ => True) (normalizeScopedPath pattern) (normalizeScopedPath path)) ↔
        (Means (fun _ => True) (normalizeScopedPath pattern) (normalizeScopedPath path) →
          Means OneLine (normalizeScopedPath pattern) (normalizeScopedPath path))) ∧
      ((RegExp.test (wildcardPathToRegExpSource pattern) path = true ↔ Denotes (fun _ => True) pattern path) ↔
        (Denotes (fun _ => True) pattern path → Denotes OneLine pattern path)) := by
  rw [matchesPathPattern_iff_means, test_iff_denotes]
  have denotes : ∀ pattern path, Denotes OneLine pattern path → Denotes (fun _ => True) pattern path :=
    fun _ _ => Denotes.mono fun _ _ => trivial
  have means : ∀ pattern path, Means OneLine pattern path → Means (fun _ => True) pattern path := by
    intro pattern path
    unfold Means
    split
    · exact denotes pattern path
    · exact id
  exact ⟨⟨Iff.mpr, fun readable => ⟨means _ _, readable⟩⟩, ⟨Iff.mpr, fun readable => ⟨denotes _ _, readable⟩⟩⟩

theorem two_lines_unmatched : ¬ ∀ pattern path, (matchesPathPattern pattern path = true ↔
    Means (fun _ => True) (normalizeScopedPath pattern) (normalizeScopedPath path)) := by
  intro agrees
  have denoted : Denotes (fun _ => True) "/docs/**".toList "/docs/a\nb".toList :=
    ⟨_, rfl, _, rfl, _, rfl, _, rfl, _, rfl, _, rfl, "a\nb".toList, [], rfl, trivial, rfl⟩
  have matched := (agrees "/docs/**".toList "/docs/a\nb".toList).mpr denoted
  exact absurd matched (by decide +kernel)

end EveHorizon.Access
