import EveHorizon.Kubernetes.Names

/-!
# Which names coincide

A namespace determines its organisation, its project up to case and what is shown of the
environment's name.
-/

namespace EveHorizon.Kubernetes

open List

structure EnvironmentKey where
  orgSlug : Text
  projectSlug : Text
  envName : Text
  org_accepted : OrgSlugSchema orgSlug = true
  project_accepted : SlugSchema projectSlug = true
  env_accepted : EnvironmentName envName = true

def IsSlug (slug : Text) : Prop := ∃ value label, toK8sName value label = .ok slug

/-- What a namespace shows of the environment's name: its slug, cut to the room that
63 characters leave. -/
def environmentPart (orgSlug projectSlug envName : Text) : Text :=
  Text.stripEnd '-' ((normalized envName).take (57 - orgSlug.length - projectSlug.length))

variable {char : Char}

theorem ascii {P : Char → Prop} {bound : Nat} (each : ∀ code < bound, P (Char.ofNat code))
    (small : char.toNat < bound) : P char := by
  have found := each char.toNat small
  rwa [Char.ofNat_toNat] at found

theorem isOutside_of_lower (slug : (isLowerLetter char || isDigit char) = true) :
    isOutside char = false ∧ char ≠ '-' ∧ lowered char = [char] := by
  have small : char.toNat < 128 := by
    simp only [isLowerLetter, isDigit, Bool.or_eq_true, Bool.and_eq_true, decide_eq_true_eq] at slug
    have upper : char ≤ 'z' ∨ char ≤ '9' := slug.imp And.right And.right
    rcases upper with le | le
    · exact Nat.lt_of_le_of_lt (UInt32.le_iff_toNat_le.mp le) (by decide)
    · exact Nat.lt_of_le_of_lt (UInt32.le_iff_toNat_le.mp le) (by decide)
  revert slug
  exact ascii (P := fun found => (isLowerLetter found || isDigit found) = true →
    isOutside found = false ∧ found ≠ '-' ∧ lowered found = [found]) (by decide +kernel) small

theorem lowered_of_letter (slug : (isLetter char || isDigit char) = true) :
    ∃ lower, lowered char = [lower] ∧ (isLowerLetter lower || isDigit lower) = true := by
  have small : char.toNat < 128 := by
    simp only [isLetter, isDigit, Bool.or_eq_true, Bool.and_eq_true, decide_eq_true_eq] at slug
    have upper : (char ≤ 'z' ∨ char ≤ 'Z') ∨ char ≤ '9' :=
      slug.imp (Or.imp And.right And.right) And.right
    rcases upper with (le | le) | le
    · exact Nat.lt_of_le_of_lt (UInt32.le_iff_toNat_le.mp le) (by decide)
    · exact Nat.lt_of_le_of_lt (UInt32.le_iff_toNat_le.mp le) (by decide)
    · exact Nat.lt_of_le_of_lt (UInt32.le_iff_toNat_le.mp le) (by decide)
  have lower : ∀ found : Char, (isLetter found || isDigit found) = true → found.toNat < 128 →
      lowered found = [(lowered found).headD found] ∧ (isLowerLetter ((lowered found).headD found) ||
          isDigit ((lowered found).headD found)) = true := by
    intro found slug small
    revert slug
    exact ascii (P := fun found => (isLetter found || isDigit found) = true →
      lowered found = [(lowered found).headD found] ∧ (isLowerLetter ((lowered found).headD found) ||
          isDigit ((lowered found).headD found)) = true) (by decide +kernel) small
  exact ⟨_, lower char slug small⟩

theorem toLowerCase_append (left right : Text) : toLowerCase (left ++ right) = toLowerCase left ++ toLowerCase right :=
  flatMap_append

theorem toLowerCase_cons_dash (text : Text) : toLowerCase ('-' :: text) = '-' :: toLowerCase text := rfl

theorem toLowerCase_eq_self {text : Text} (lower : ∀ found ∈ text, lowered found = [found]) :
    toLowerCase text = text := by
  induction text with
  | nil => rfl
  | cons head rest ih =>
    have kept := ih fun found member => lower found (mem_cons_of_mem _ member)
    unfold toLowerCase at kept ⊢
    rw [flatMap_cons, lower head mem_cons_self, kept, singleton_append]

def Plain (text : Text) : Prop := ∀ found ∈ text, (isLowerLetter found || isDigit found) = true

namespace Plain

variable {text : Text}

theorem free (plain : Plain text) : '-' ∉ text :=
  fun member => (isOutside_of_lower (plain _ member)).2.1 rfl

theorem start (plain : Plain text) : text.head? ≠ some '-' :=
  fun first => plain.free (mem_of_mem_head? first)

theorem ending (plain : Plain text) : text.getLast? ≠ some '-' :=
  fun last => plain.free (mem_of_mem_getLast? last)

theorem toLowerCase_eq (plain : Plain text) : toLowerCase text = text :=
  toLowerCase_eq_self fun found member => (isOutside_of_lower (plain found member)).2.2

end Plain

theorem lower_of_letters {text : Text} (letters : ∀ found ∈ text, (isLetter found || isDigit found) = true) :
    Plain (toLowerCase text) ∧ (toLowerCase text).length = text.length := by
  induction text with
  | nil => exact ⟨fun _ member => absurd member not_mem_nil, rfl⟩
  | cons head rest ih =>
    obtain ⟨lower, single, plain⟩ := lowered_of_letter (letters head mem_cons_self)
    obtain ⟨others, same⟩ := ih fun found member => letters found (mem_cons_of_mem _ member)
    have shape : toLowerCase (head :: rest) = lower :: toLowerCase rest := by
      unfold toLowerCase
      rw [flatMap_cons, single, singleton_append]
    rw [shape]
    constructor
    · intro found member
      rcases mem_cons.mp member with rfl | later
      · exact plain
      · exact others found later
    · rw [length_cons, length_cons, same]

namespace EnvironmentKey

variable (key : EnvironmentKey)

theorem org_plain : Plain key.orgSlug ∧ 2 ≤ key.orgSlug.length ∧ key.orgSlug.length ≤ 12 := by
  have accepted := key.org_accepted
  unfold OrgSlugSchema at accepted
  split at accepted
  · cases accepted
  · next first rest shape =>
      rw [shape]
      simp only [Bool.and_eq_true, all_eq_true, decide_eq_true_eq] at accepted
      refine ⟨?_, by simp only [length_cons]; omega, by simp only [length_cons]; omega⟩
      intro found member
      rcases mem_cons.mp member with rfl | later
      · rw [accepted.1.1, Bool.true_or]
      · exact accepted.1.2 found later

theorem project_plain :
    Plain (toLowerCase key.projectSlug) ∧ (toLowerCase key.projectSlug).length = key.projectSlug.length ∧
      4 ≤ key.projectSlug.length ∧ key.projectSlug.length ≤ 8 := by
  have accepted := key.project_accepted
  unfold SlugSchema at accepted
  split at accepted
  · cases accepted
  · next first rest shape =>
      rw [shape]
      simp only [Bool.and_eq_true, all_eq_true, decide_eq_true_eq] at accepted
      have letters : ∀ found ∈ first :: rest, (isLetter found || isDigit found) = true := by
        intro found member
        rcases mem_cons.mp member with rfl | later
        · rw [accepted.1.1, Bool.true_or]
        · exact accepted.1.2 found later
      obtain ⟨plain, same⟩ := lower_of_letters letters
      exact ⟨plain, same, by simp only [length_cons]; omega,
        by simp only [length_cons]; omega⟩

def projectPart : Text := "eve".toList ++ '-' :: (key.orgSlug ++ '-' :: toLowerCase key.projectSlug)

theorem projectPart_length : key.projectPart.length = 5 + key.orgSlug.length + key.projectSlug.length := by
  have same := key.project_plain.2.1
  simp only [projectPart, length_append, length_cons, same]
  have eve : "eve".toList.length = 3 := rfl
  omega

theorem projectPart_ending : key.projectPart.getLast? ≠ some '-' := by
  have nonempty : toLowerCase key.projectSlug ≠ [] := by
    intro empty
    have same := key.project_plain.2
    rw [empty] at same
    simp only [length_nil] at same
    omega
  unfold projectPart
  rw [getLast?_append_of_ne_nil _ (cons_ne_nil _ _), getLast?_cons_of_ne_nil (by simp),
    getLast?_append_of_ne_nil _ (cons_ne_nil _ _),
    getLast?_cons_of_ne_nil nonempty]
  exact key.project_plain.1.ending

theorem toLowerCase_namespaceSource : toLowerCase (namespaceSource key.orgSlug key.projectSlug key.envName) =
      key.projectPart ++ '-' :: toLowerCase key.envName := by
  have eve : toLowerCase "eve-".toList = "eve".toList ++ ['-'] := by decide
  unfold namespaceSource projectPart
  simp only [toLowerCase_append, toLowerCase_cons_dash, eve, key.org_plain.1.toLowerCase_eq,
    append_assoc, cons_append, nil_append]

theorem normalized_namespaceSource : normalized (namespaceSource key.orgSlug key.projectSlug key.envName) =
      Text.attach '-' key.projectPart (normalized key.envName) := by
  obtain ⟨org, long, -⟩ := key.org_plain
  have project := key.project_plain.1
  unfold normalized
  rw [key.toLowerCase_namespaceSource]
  apply Text.slug_join
  · intro found member
    simp only [projectPart, mem_append, mem_cons] at member
    have eve : ∀ found ∈ "eve".toList, isOutside found = false := by
      have outside : ("eve".toList.all fun found => isOutside found == false) = true := by decide
      exact fun found member => beq_iff_eq.mp (all_eq_true.mp outside found member)
    rcases member with leading | rfl | inOrg | rfl | inProject
    · exact eve found leading
    · decide
    · exact (isOutside_of_lower (org found inOrg)).1
    · decide
    · exact (isOutside_of_lower (project found inProject)).1
  · decide
  · apply Text.squeeze_join (by decide) (by decide)
    · exact Text.squeeze_join (Text.squeeze_free org.free) org.ending (Text.squeeze_free project.free) project.start
    · obtain ⟨head, rest, shape⟩ := exists_cons_of_length_pos (by omega : 0 < key.orgSlug.length)
      have first := org.start
      rw [shape] at first ⊢
      exact first
  · simp [projectPart]
  · simp [projectPart]
  · exact key.projectPart_ending

theorem deriveNamespace_eq :
    deriveNamespace key.orgSlug key.projectSlug key.envName none = .ok (Text.attach '-' key.projectPart
        (environmentPart key.orgSlug key.projectSlug key.envName)) := by
  obtain ⟨-, -, orgShort⟩ := key.org_plain
  obtain ⟨-, -, -, projectShort⟩ := key.project_plain
  have long := key.projectPart_length
  have named : Text.attach '-' key.projectPart (normalized key.envName) ≠ [] := by
    unfold Text.attach
    split <;> simp [projectPart]
  unfold deriveNamespace toK8sName environmentPart
  dsimp only
  rw [key.normalized_namespaceSource, if_neg named]
  generalize room : 57 - key.orgSlug.length - key.projectSlug.length = left
  have start : (normalized key.envName).head? ≠ some '-' := Text.head?_slug _
  split
  · next exceeds =>
      have shownEnv : normalized key.envName ≠ [] := by
        intro empty
        rw [empty, Text.attach, if_pos rfl] at exceeds
        omega
      have cut : (key.projectPart ++ '-' :: normalized key.envName).take 63 =
          key.projectPart ++ '-' :: (normalized key.envName).take left := by
        have further : 63 - key.projectPart.length = left + 1 := by omega
        rw [take_append, take_of_length_le (by omega), further, take_succ_cons]
      rw [Text.attach, if_neg shownEnv, cut, Text.stripEnd_append key.projectPart_ending, Text.append_stripEnd]
      intro first
      rw [head?_take] at first
      split at first
      · cases first
      · exact start first
  · next fits =>
      have whole : (normalized key.envName).take left = normalized key.envName := by
        apply take_of_length_le
        unfold Text.attach at fits
        split at fits
        · next empty => simp [empty]
        · rw [length_append, length_cons] at fits
          omega
      have ending : (normalized key.envName).getLast? ≠ some '-' := Text.getLast?_slug _
      rw [whole, Text.stripEnd_eq_self ending]

end EnvironmentKey

theorem namespace_eq_iff (left right : EnvironmentKey) :
    Text.attach '-' left.projectPart (environmentPart left.orgSlug left.projectSlug left.envName) =
      Text.attach '-' right.projectPart (environmentPart right.orgSlug right.projectSlug right.envName) ↔
    left.orgSlug = right.orgSlug ∧ toLowerCase left.projectSlug = toLowerCase right.projectSlug ∧
      environmentPart left.orgSlug left.projectSlug left.envName =
        environmentPart right.orgSlug right.projectSlug right.envName := by
  have split : ∀ (key : EnvironmentKey) (part : Text), Text.attach '-' key.projectPart part =
        "eve".toList ++ '-' :: (key.orgSlug ++ '-' :: Text.attach '-' (toLowerCase key.projectSlug) part) := by
    intro key part
    unfold Text.attach EnvironmentKey.projectPart
    split <;> simp
  rw [split left, split right, Text.join_injective (by decide) (by decide),
    Text.join_injective left.org_plain.1.free right.org_plain.1.free,
    Text.attach_injective left.project_plain.1.free right.project_plain.1.free]
  simp

/-- Accepted environments always have a namespace. Two of them share it exactly when their
organisations are the same, their projects are up to case, and what is shown of their names is.
The names of two components are the same exactly when they show the same slugs or a part has
moved over the dash; in one environment, components that are shown whole never share one. -/
theorem names_coincide (left right : EnvironmentKey) {env component env' component' : Text}
    (label : Text) (componentSlug : IsSlug component) (componentSlug' : IsSlug component') :
    (∃ derived derived', deriveNamespace left.orgSlug left.projectSlug left.envName none = .ok derived ∧
      deriveNamespace right.orgSlug right.projectSlug right.envName none = .ok derived' ∧ (derived = derived' ↔
        left.orgSlug = right.orgSlug ∧ toLowerCase left.projectSlug = toLowerCase right.projectSlug ∧
          environmentPart left.orgSlug left.projectSlug left.envName =
            environmentPart right.orgSlug right.projectSlug right.envName)) ∧ (∃ combined combined',
      combineK8sName env component label = .ok combined ∧ combineK8sName env' component' label = .ok combined' ∧
      (combined = combined' ↔ shown env component = shown env' component' ∨
          Text.Moved '-' (shown env component) (shown env' component') ∨
          Text.Moved '-' (shown env' component') (shown env component)) ∧
      (env = env' → shown env component = (env, component) → shown env' component' = (env', component') →
        (combined = combined' ↔ component = component'))) := by
  obtain ⟨_, _, named⟩ := componentSlug
  obtain ⟨_, _, named'⟩ := componentSlug'
  have valid := toK8sName_isK8sName named
  have valid' := toK8sName_isK8sName named'
  refine ⟨⟨_, _, left.deriveNamespace_eq, right.deriveNamespace_eq, namespace_eq_iff left right⟩,
    ⟨_, _, combineK8sName_eq valid label, combineK8sName_eq valid' label, ?_, ?_⟩⟩
  · rw [Text.join_eq_join_iff, Prod.ext_iff]
  · rintro rfl whole whole'
    rw [whole, whole', append_cancel_left_eq, List.cons.injEq, eq_self, true_and]

def shopEnvironment (name : Text) (accepted : EnvironmentName name = true) : EnvironmentKey where
  orgSlug := "acme".toList
  projectSlug := "shop".toList
  envName := name
  org_accepted := by decide
  project_accepted := by decide
  env_accepted := accepted

theorem shop_names_coincide :
    (∃ derived derived', deriveNamespace "acme".toList "shop".toList "prod".toList none = .ok derived ∧
      deriveNamespace "acme".toList "shop".toList "test".toList none = .ok derived' ∧ derived ≠ derived') ∧
    (∃ combined combined', combineK8sName "prod".toList "api".toList "resource".toList = .ok combined ∧
      combineK8sName "prod".toList "web".toList "resource".toList = .ok combined' ∧ combined ≠ combined') := by
  have slug : ∀ name ∈ ["api".toList, "web".toList], IsSlug name := by
    intro name member
    refine ⟨name, "component".toList, ?_⟩
    revert member name
    decide +kernel
  obtain ⟨⟨derived, derived', found, found', apart⟩, ⟨combined, combined', named, named', -, whole⟩⟩ :=
    @names_coincide (shopEnvironment "prod".toList (by decide))
      (shopEnvironment "test".toList (by decide)) "prod".toList "api".toList "prod".toList
      "web".toList "resource".toList (slug "api".toList (by simp)) (slug "web".toList (by simp))
  refine ⟨⟨derived, derived', found, found', fun same => ?_⟩, ⟨combined, combined', named, named', fun same => ?_⟩⟩
  · exact absurd (apart.mp same).2.2 (by decide +kernel)
  · exact absurd ((whole rfl (by decide +kernel) (by decide +kernel)).mp same) (by decide)

/-- Environments "Prod" and "prod" share a namespace, and the components "b-c" of "a" and "c"
of "a-b" a name. -/
theorem distinct_names_coincide : (∃ left right : EnvironmentKey, (left.orgSlug, left.projectSlug, left.envName) ≠
        (right.orgSlug, right.projectSlug, right.envName) ∧
      deriveNamespace left.orgSlug left.projectSlug left.envName none =
        deriveNamespace right.orgSlug right.projectSlug right.envName none) ∧ (∃ env component env' component' : Text,
      IsSlug env ∧ IsSlug component ∧ IsSlug env' ∧ IsSlug component' ∧ [env, component] ≠ [env', component'] ∧
      combineK8sName env component "resource".toList = combineK8sName env' component' "resource".toList) := by
  constructor
  · refine ⟨shopEnvironment "prod".toList (by decide), shopEnvironment "Prod".toList (by decide), by decide, ?_⟩
    decide +kernel
  · have slug : ∀ name ∈ ["a".toList, "b-c".toList, "a-b".toList, "c".toList], IsSlug name := by
      intro name member
      refine ⟨name, "component".toList, ?_⟩
      revert member name
      decide +kernel
    refine ⟨"a".toList, "b-c".toList, "a-b".toList, "c".toList, slug _ (by simp),
      slug _ (by simp), slug _ (by simp), slug _ (by simp), by decide, ?_⟩
    decide +kernel

end EveHorizon.Kubernetes
