import EveHorizon.Library.Slugs

/-!
# Kubernetes names

How the slugs of organisations, projects, environments and components become the names of
namespaces and resources of the cluster.
-/

namespace EveHorizon.Kubernetes

variable (char : Char)

/-- The lower case of a character. Beyond ASCII only the two characters are written out whose
lower case has an ASCII letter: what else the lower case changes, a name leaves out before and
after. -/
def lowered : Text :=
  if 'A' ≤ char ∧ char ≤ 'Z' then [Char.ofNat (char.toNat + 32)]
  else if char.toNat = 0x212A then ['k']
  else if char.toNat = 0x130 then ['i', Char.ofNat 0x307]
  else [char]

def toLowerCase (text : Text) : Text := text.flatMap lowered

def isOutside : Bool :=
  !(('a' ≤ char && char ≤ 'z') || ('0' ≤ char && char ≤ '9') ||
    char = '-')

def normalized (value : Text) : Text := Text.slug isOutside '-' (toLowerCase value)

def invalidName (label value : Text) : Text := "Invalid ".toList ++ label ++ " name: ".toList ++ value

def toK8sName (value label : Text) : Except Text Text :=
  if normalized value = [] then .error (invalidName label value)
  else if 63 < (normalized value).length then
    .ok (Text.stripEnd '-' ((normalized value).take 63))
  else .ok (normalized value)

def combineK8sName (envSlug componentSlug label : Text) : Except Text Text :=
  let combined := envSlug ++ '-' :: componentSlug
  if combined.length ≤ 63 then .ok combined
  else
    let trimmedEnv := Text.stripEnd '-' (envSlug.take 31)
    let trimmedComponent := Text.stripEnd '-' (componentSlug.take 31)
    let trimmed := Text.stripEnd '-' (trimmedEnv ++ '-' :: trimmedComponent)
    if trimmed = [] then
      .error ("Invalid ".toList ++ label ++ " name from ".toList ++ envSlug ++ '-' :: componentSlug)
    else .ok trimmed

def namespaceSource (orgSlug projectSlug envName : Text) : Text :=
  "eve-".toList ++ orgSlug ++ '-' :: projectSlug ++ '-' :: envName

def deriveNamespace (orgSlug projectSlug envName : Text) (storedNamespace : Option Text) : Except Text Text :=
  match storedNamespace with
  | some (first :: rest) => toK8sName (first :: rest) "namespace".toList
  | some [] | none => toK8sName (namespaceSource orgSlug projectSlug envName) "namespace".toList

def isLetter : Bool :=
  ('a' ≤ char && char ≤ 'z') || ('A' ≤ char && char ≤ 'Z')

def isLowerLetter : Bool := 'a' ≤ char && char ≤ 'z'

def isDigit : Bool := '0' ≤ char && char ≤ '9'

def OrgSlugSchema : Text → Bool
  | [] => false
  | first :: rest =>
    isLowerLetter first && rest.all (fun found => isLowerLetter found || isDigit found) &&
      (1 ≤ rest.length && rest.length ≤ 11)

def SlugSchema : Text → Bool
  | [] => false
  | first :: rest =>
    isLetter first && rest.all (fun found => isLetter found || isDigit found) && (3 ≤ rest.length && rest.length ≤ 7)

def EnvironmentName (name : Text) : Bool := 1 ≤ name.length

/-- A name as the cluster takes it: lower-case letters, digits and single dashes, none at an
end, at most 63 characters. -/
structure IsK8sName (name : Text) : Prop where
  alphabet : ∀ found ∈ name, isOutside found = false
  nonempty : name ≠ []
  start : name.head? ≠ some '-'
  ending : name.getLast? ≠ some '-'
  single : Text.squeeze '-' name = name
  short : name.length ≤ 63

theorem alphabet_normalized (value : Text) : ∀ found ∈ normalized value, isOutside found = false := by
  intro found member
  rcases Text.mem_slug member with rfl | ⟨-, inside⟩
  · decide
  · exact inside

theorem head?_stripEnd_take {name : Text} {bound : Nat} (start : name.head? ≠ some '-')
    (room : 1 ≤ bound) : (Text.stripEnd '-' (name.take bound)).head? = name.head? := by
  obtain ⟨further, rfl⟩ := Nat.exists_eq_add_of_le' room
  have same : (name.take (further + 1)).head? = name.head? := by
    cases name <;> rfl
  rw [Text.head?_stripEnd (same ▸ start), same]

theorem IsK8sName.stripEnd_take {name : Text} {bound : Nat}
    (alphabet : ∀ found ∈ name, isOutside found = false) (nonempty : name ≠ [])
    (start : name.head? ≠ some '-') (single : Text.squeeze '-' name = name) (room : 1 ≤ bound)
    (short : bound ≤ 63) :
    IsK8sName (Text.stripEnd '-' (name.take bound)) where
  alphabet := by
    intro found member
    exact alphabet found (List.mem_of_mem_take ((Text.stripEnd_begins _).subset member))
  nonempty := by
    intro empty
    have first := head?_stripEnd_take start room
    rw [empty] at first
    exact nonempty (List.head?_eq_none_iff.mp first.symm)
  start := by
    rw [head?_stripEnd_take start room]
    exact start
  ending := Text.getLast?_stripEnd _
  single := Text.squeeze_beginning single ((Text.stripEnd_begins _).trans (List.take_prefix _ _))
  short := by
    have within := (@Text.stripEnd_begins '-' (name.take bound)).length_le
    have cut := List.length_take_le bound name
    omega

theorem toK8sName_isK8sName {value label name : Text} (named : toK8sName value label = .ok name) : IsK8sName name := by
  unfold toK8sName at named
  split at named
  · cases named
  · next nonempty =>
      split at named
      · cases named
        exact .stripEnd_take (alphabet_normalized value) nonempty (Text.head?_slug _)
          (Text.squeeze_slug _) (by decide) (le_refl _)
      · next fits =>
          cases named
          exact {
            alphabet := alphabet_normalized value
            nonempty
            start := Text.head?_slug _
            ending := Text.getLast?_slug _
            single := Text.squeeze_slug _
            short := by omega }

def shown (envSlug componentSlug : Text) : Text × Text :=
  if (envSlug ++ '-' :: componentSlug).length ≤ 63 then (envSlug, componentSlug)
  else (Text.stripEnd '-' (envSlug.take 31), Text.stripEnd '-' (componentSlug.take 31))

theorem combineK8sName_eq {envSlug componentSlug : Text} (component : IsK8sName componentSlug) (label : Text) :
    combineK8sName envSlug componentSlug label =
      .ok ((shown envSlug componentSlug).1 ++ '-' :: (shown envSlug componentSlug).2) := by
  unfold combineK8sName shown
  dsimp only
  split
  · rfl
  · have cut : IsK8sName (Text.stripEnd '-' (componentSlug.take 31)) :=
      .stripEnd_take component.alphabet component.nonempty component.start component.single
        (by decide) (by decide)
    have ending : (Text.stripEnd '-' (envSlug.take 31) ++
        '-' :: Text.stripEnd '-' (componentSlug.take 31)).getLast? ≠ some '-' := by
      rw [List.getLast?_append_of_ne_nil _ (List.cons_ne_nil _ _), List.getLast?_cons_of_ne_nil cut.nonempty]
      exact cut.ending
    rw [Text.stripEnd_eq_self ending, if_neg (by simp)]

end EveHorizon.Kubernetes
