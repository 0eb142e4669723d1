import EveHorizon.Access.Overlap

/-!
# The order of merging

Merging scopes in another order, in other groups, or a scope with itself, and what becomes
of the resources they admit.
-/

namespace EveHorizon.Access

open List Option
open Coverage (Admitted AddsNothing Differ)

structure Tied (left right : Text) : Prop where
  differ : left ≠ right
  leftNamed : left ≠ ['*']
  rightNamed : right ≠ ['*']
  base : pathPatternBase left = pathPatternBase right
  length : Text.unitLength left = Text.unitLength right

theorem unitLength_eq_zero {text : Text} : Text.unitLength text = 0 ↔ text = [] := by
  cases text with
  | nil => simp [Text.unitLength]
  | cons first rest =>
    simp only [Text.unitLength, map_cons, sum_cons, reduceCtorEq, iff_false]
    split
    · omega
    · omega

variable {left right : Text}

theorem Tied.nonempty (tied : Tied left right) : left ≠ [] := by
  rintro rfl
  have empty : Text.unitLength right = 0 := tied.length.symm
  exact tied.differ (unitLength_eq_zero.mp empty).symm

theorem KeepsLeft.swap (keeps : KeepsLeft left right) : KeepsRight right left ∨ left = right ∨ Tied left right := by
  obtain ⟨named, any | ⟨base, length⟩ | below⟩ := keeps
  · exact .inl (.inl any)
  · by_cases starred : right = ['*']
    · exact .inl (.inl starred)
    · rcases length.lt_or_eq with shorter | equal
      · exact .inl (.inr ⟨named, .inl ⟨base.symm, shorter⟩⟩)
      · by_cases same : left = right
        · exact .inr (.inl same)
        · exact .inr (.inr ⟨same, named, starred, base, equal.symm⟩)
  · exact .inl (.inr ⟨named, .inr below⟩)

theorem KeepsRight.swap (keeps : KeepsRight left right) : KeepsLeft right left ∨ left = right := by
  rcases keeps with any | ⟨named, ⟨base, shorter⟩ | below⟩
  · by_cases starred : right = ['*']
    · exact .inr (any.trans starred.symm)
    · exact .inl ⟨starred, .inl any⟩
  · exact .inl ⟨named, .inr (.inl ⟨base.symm, shorter.le⟩)⟩
  · exact .inl ⟨named, .inr (.inr below)⟩

theorem keeps_self (pattern : Text) : KeepsLeft pattern pattern ∨ KeepsRight pattern pattern := by
  by_cases starred : pattern = ['*']
  · exact .inr (.inl starred)
  · exact .inl ⟨starred, .inr (.inl ⟨rfl, le_refl _⟩)⟩

theorem keptPatterns_of_shared {left right : Set Text} {pattern : Text} (inLeft : pattern ∈ left)
    (inRight : pattern ∈ right) (nonempty : pattern ≠ []) : pattern ∈ keptPatterns left right := by
  rcases keeps_self pattern with keeps | keeps
  · exact ⟨nonempty, .inl ⟨inLeft, pattern, inRight, keeps⟩⟩
  · exact ⟨nonempty, .inr ⟨inRight, pattern, inLeft, keeps⟩⟩

def tiedPatterns (left right : Set Text) : Set Text :=
  {pattern | pattern ∈ left ∧ ∃ other ∈ right, Tied pattern other}

theorem keptPatterns_subset (left right : Set Text) :
    keptPatterns left right ⊆ keptPatterns right left ∪ tiedPatterns left right := by
  rintro pattern ⟨nonempty, ⟨inLeft, other, inRight, keeps⟩ | ⟨inRight, other, inLeft, keeps⟩⟩
  · rcases keeps.swap with keeps | rfl | tied
    · exact .inl ⟨nonempty, .inr ⟨inLeft, other, inRight, keeps⟩⟩
    · exact .inl (keptPatterns_of_shared inRight inLeft nonempty)
    · exact .inr ⟨inLeft, other, inRight, tied⟩
  · rcases keeps.swap with keeps | rfl
    · exact .inl ⟨nonempty, .inl ⟨inRight, other, inLeft, keeps⟩⟩
    · exact .inl (keptPatterns_of_shared inRight inLeft nonempty)

theorem tiedPatterns_subset (left right : Set Text) : tiedPatterns left right ⊆ keptPatterns left right := by
  rintro pattern ⟨inLeft, other, inRight, tied⟩
  exact ⟨tied.nonempty, .inl ⟨inLeft, other, inRight, tied.leftNamed, .inr (.inl ⟨tied.base, tied.length.ge⟩)⟩⟩

theorem meet_swap (left right : Listing) :
    Differ (left.meet keptPatterns right).members (right.meet keptPatterns left).members
      (tiedPatterns left.members right.members) (tiedPatterns right.members left.members) := by
  have untied : ∀ patterns : Set Text, tiedPatterns ∅ patterns = ∅ ∧ tiedPatterns patterns ∅ = ∅ := by
    intro patterns
    constructor
    · exact Set.eq_empty_iff_forall_notMem.mpr fun _ member => member.1
    · exact Set.eq_empty_iff_forall_notMem.mpr fun _ ⟨_, _, member, _⟩ => member
  have same : ∀ patterns : Set Text, Differ patterns patterns ∅ ∅ := by
    intro patterns
    exact ⟨Set.subset_union_left, Set.subset_union_left, Set.empty_subset _, Set.empty_subset _⟩
  cases left with
  | undeclared | omitted => cases right <;> simpa [Listing.meet, Listing.members, untied] using same _
  | entries left =>
    cases right with
    | undeclared | omitted => simpa [Listing.meet, Listing.members, untied] using same _
    | entries right =>
      exact ⟨keptPatterns_subset left right, keptPatterns_subset right left,
        tiedPatterns_subset left right, tiedPatterns_subset right left⟩

variable {second first third : Text}

theorem below_trans (deep : Below first second) (deeper : Below second third) : Below first third := by
  have leading : second ++ ['/'] <+: first := isPrefixOf_iff_prefix.mp deep
  have trailing : third ++ ['/'] <+: second := isPrefixOf_iff_prefix.mp deeper
  have whole := trailing.trans ((prefix_append second ['/']).trans leading)
  exact isPrefixOf_iff_prefix.mpr whole

variable {deep : Text}

theorem below_total (first : Below deep left) (second : Below deep right) :
    left = right ∨ Below left right ∨ Below right left := by
  have leading : left ++ ['/'] <+: deep := isPrefixOf_iff_prefix.mp first
  have trailing : right ++ ['/'] <+: deep := isPrefixOf_iff_prefix.mp second
  rcases Nat.lt_trichotomy left.length right.length with shorter | equal | longer
  · have inside : left ++ ['/'] <+: right :=
      prefix_of_prefix_length_le leading ((prefix_append right ['/']).trans trailing)
        (by simpa using Nat.succ_le_of_lt shorter)
    exact .inr (.inr (List.isPrefixOf_iff_prefix.mpr inside))
  · have same : left ++ ['/'] = right ++ ['/'] :=
      (prefix_of_prefix_length_le leading trailing (by simp [equal])).eq_of_length
        (by simp [equal])
    exact .inl (append_cancel_right same)
  · have inside : right ++ ['/'] <+: left :=
      prefix_of_prefix_length_le trailing ((prefix_append left ['/']).trans leading)
        (by simpa using Nat.succ_le_of_lt longer)
    exact .inr (.inl (List.isPrefixOf_iff_prefix.mpr inside))

def Under (left right : Text) : Prop :=
  (pathPatternBase left = pathPatternBase right ∧ Text.unitLength right ≤ Text.unitLength left) ∨
    Below (pathPatternBase left) (pathPatternBase right)

theorem Under.trans (deep : Under first second) (deeper : Under second third) : Under first third := by
  rcases deep with ⟨same, length⟩ | deep
  · rcases deeper with ⟨equal, longer⟩ | deeper
    · exact .inl ⟨same.trans equal, longer.trans length⟩
    · exact .inr (same ▸ deeper)
  · rcases deeper with ⟨equal, _⟩ | deeper
    · exact .inr (equal ▸ deep)
    · exact .inr (below_trans deep deeper)

theorem Under.total (first : Under deep left) (second : Under deep right) : Under left right ∨ Under right left := by
  have level : pathPatternBase left = pathPatternBase right → Under left right ∨ Under right left := by
    intro same
    rcases Nat.le_total (Text.unitLength right) (Text.unitLength left) with shorter | longer
    · exact .inl (.inl ⟨same, shorter⟩)
    · exact .inr (.inl ⟨same.symm, longer⟩)
  rcases first with ⟨same, _⟩ | first
  · rcases second with ⟨equal, _⟩ | second
    · exact level (same.symm.trans equal)
    · exact .inl (.inr (same ▸ second))
  · rcases second with ⟨equal, _⟩ | second
    · exact .inr (.inr (equal ▸ first))
    · rcases below_total first second with same | left | right
      · exact level same
      · exact .inl (.inr left)
      · exact .inr (.inr right)

instance (left right : Text) : Decidable (Under left right) := inferInstanceAs (Decidable (_ ∧ _ ∨ _ = true))

def deeper (left right : Text) : Option Text :=
  if Under left right then some left else if Under right left then some right else none

theorem intersectPathPattern_plain (leftNamed : left ≠ ['*']) (rightNamed : right ≠ ['*']) :
    intersectPathPattern left right = deeper left right := by
  have level : ¬ Below (pathPatternBase right) (pathPatternBase right) := by
    intro below
    exact absurd below.length_lt (Nat.lt_irrefl _)
  unfold intersectPathPattern deeper Under
  rw [if_neg leftNamed, if_neg rightNamed]
  by_cases same : pathPatternBase left = pathPatternBase right
  · by_cases longer : Text.unitLength right ≤ Text.unitLength left
    · simp [same, longer]
    · simp [same, longer, level, (Nat.not_le.mp longer).le]
  · simp [same, Ne.symm same, Below]

variable {kept : Text}

theorem deeper_eq (found : deeper left right = some kept) : kept = left ∨ kept = right := by
  unfold deeper at found
  split at found
  · exact .inl (Option.some.inj found).symm
  · split at found
    · exact .inr (Option.some.inj found).symm
    · cases found

theorem deeper_assoc (a b c : Text) :
    ((deeper a b).bind fun pattern => deeper pattern c) = (deeper b c).bind fun pattern => deeper a pattern := by
  unfold deeper
  by_cases ab : Under a b
  · by_cases bc : Under b c
    · simp [ab, bc, ab.trans bc]
    · by_cases cb : Under c b
      · simp [ab, bc, cb]
      · have apart : ¬ Under a c := fun ac => (ab.total ac).elim bc cb
        have above : ¬ Under c a := fun ca => cb (ca.trans ab)
        simp [ab, bc, cb, apart, above]
  · by_cases ba : Under b a
    · by_cases bc : Under b c
      · simp [ab, ba, bc]
      · by_cases cb : Under c b
        · have apart : ¬ Under a c := fun ac => ab (ac.trans cb)
          simp [ab, ba, bc, cb, apart, cb.trans ba]
        · simp [ab, ba, bc, cb]
    · by_cases bc : Under b c
      · simp [ab, ba, bc]
      · by_cases cb : Under c b
        · have apart : ¬ Under a c := fun ac => ab (ac.trans cb)
          have above : ¬ Under c a := fun ca => (ca.total cb).elim ab ba
          simp [ab, ba, bc, cb, apart, above]
        · simp [ab, ba, bc, cb]

theorem intersectPathPattern_star_left (pattern : Text) : intersectPathPattern ['*'] pattern = some pattern := by
  simp [intersectPathPattern]

theorem intersectPathPattern_star_right (pattern : Text) : intersectPathPattern pattern ['*'] = some pattern := by
  by_cases starred : pattern = ['*'] <;> simp [intersectPathPattern, starred]

theorem intersectPathPattern_assoc (a b c : Text) :
    ((intersectPathPattern a b).bind fun pattern => intersectPathPattern pattern c) =
      (intersectPathPattern b c).bind fun pattern => intersectPathPattern a pattern := by
  by_cases aStar : a = ['*']
  · simp [aStar, intersectPathPattern_star_left]
  · by_cases bStar : b = ['*']
    · simp [bStar, intersectPathPattern_star_left, intersectPathPattern_star_right]
    · by_cases cStar : c = ['*']
      · simp [cStar, intersectPathPattern_star_right]
      · have first : ∀ pattern ∈ deeper a b, intersectPathPattern pattern c = deeper pattern c := by
          intro pattern found
          rcases deeper_eq found with rfl | rfl
          · exact intersectPathPattern_plain aStar cStar
          · exact intersectPathPattern_plain bStar cStar
        have second : ∀ pattern ∈ deeper b c, intersectPathPattern a pattern = deeper a pattern := by
          intro pattern found
          rcases deeper_eq found with rfl | rfl
          · exact intersectPathPattern_plain aStar bStar
          · exact intersectPathPattern_plain aStar cStar
        rw [intersectPathPattern_plain aStar bStar, intersectPathPattern_plain bStar cStar,
          bind_congr first, bind_congr second]
        exact deeper_assoc a b c

theorem mem_keptPatterns {left right : Set Text} {pattern : Text} : pattern ∈ keptPatterns left right ↔
      pattern ≠ [] ∧ ∃ a ∈ left, ∃ b ∈ right, intersectPathPattern a b = some pattern := by
  constructor
  · rintro ⟨nonempty, ⟨inLeft, b, inRight, keeps⟩ | ⟨inRight, a, inLeft, keeps⟩⟩
    · exact ⟨nonempty, pattern, inLeft, b, inRight, intersectPathPattern_eq_some.mpr (.inl ⟨keeps, rfl⟩)⟩
    · exact ⟨nonempty, a, inLeft, pattern, inRight, intersectPathPattern_eq_some.mpr (.inr ⟨keeps, rfl⟩)⟩
  · rintro ⟨nonempty, a, inLeft, b, inRight, intersection⟩
    exact (kept_of_pair inLeft inRight intersection nonempty).1

theorem intersectPathPattern_mem (intersection : intersectPathPattern left right = some kept) :
    kept = left ∨ kept = right := by
  rcases intersectPathPattern_eq_some.mp intersection with ⟨_, same⟩ | ⟨_, same⟩
  · exact .inl same
  · exact .inr same

@[simp] theorem keptPatterns_empty_left (patterns : Set Text) : keptPatterns ∅ patterns = ∅ := by
  refine Set.eq_empty_iff_forall_notMem.mpr fun pattern kept => ?_
  obtain ⟨_, _, missing, _⟩ := mem_keptPatterns.mp kept
  exact missing

@[simp] theorem keptPatterns_empty_right (patterns : Set Text) : keptPatterns patterns ∅ = ∅ := by
  refine Set.eq_empty_iff_forall_notMem.mpr fun pattern kept => ?_
  obtain ⟨_, _, _, _, missing, _⟩ := mem_keptPatterns.mp kept
  exact missing

/-- Neither side spells the list, and one of them declares the facet: merging the two spells
an empty list. -/
def Listing.neglect : Listing → Listing → Prop
  | .omitted, .omitted => True
  | .omitted, .undeclared => True
  | .undeclared, .omitted => True
  | _, _ => False

open Listing (meet members neglect)

def Blank (left right : Text) : Prop := intersectPathPattern left right = some []

def lostFirst (first second third : Listing) : Set Text :=
  {pattern | pattern ∈ third.members ∧ (first.neglect second ∨
    (pattern ≠ [] ∧ intersectPathPattern [] pattern = some pattern ∧
      ∃ p ∈ first.members, ∃ q ∈ second.members, Blank p q))}

def lostLast (first second third : Listing) : Set Text :=
  {pattern | pattern ∈ first.members ∧ (second.neglect third ∨
    (pattern ≠ [] ∧ intersectPathPattern pattern [] = some pattern ∧
      ∃ p ∈ second.members, ∃ q ∈ third.members, Blank p q))}

variable (first second third : Set Text)

theorem keptPatterns_regroup_left :
    keptPatterns (keptPatterns first second) third ⊆ keptPatterns first (keptPatterns second third) ∪
        lostLast (.entries first) (.entries second) (.entries third) := by
  intro pattern kept
  obtain ⟨nonempty, middle, inMiddle, c, inThird, outer⟩ := mem_keptPatterns.mp kept
  obtain ⟨_, a, inFirst, b, inSecond, inner⟩ := mem_keptPatterns.mp inMiddle
  have grouped := intersectPathPattern_assoc a b c
  rw [inner, bind_some, outer] at grouped
  obtain ⟨other, inner', outer'⟩ := bind_eq_some_iff.mp grouped.symm
  by_cases blank : other = []
  · subst blank
    have same := (intersectPathPattern_mem outer').resolve_right nonempty
    subst same
    exact .inr ⟨inFirst, .inr ⟨nonempty, outer', b, inSecond, c, inThird, inner'⟩⟩
  · exact .inl (mem_keptPatterns.mpr ⟨nonempty, a, inFirst, other,
      mem_keptPatterns.mpr ⟨blank, b, inSecond, c, inThird, inner'⟩, outer'⟩)

theorem keptPatterns_regroup_right :
    keptPatterns first (keptPatterns second third) ⊆ keptPatterns (keptPatterns first second) third ∪
        lostFirst (.entries first) (.entries second) (.entries third) := by
  intro pattern kept
  obtain ⟨nonempty, a, inFirst, middle, inMiddle, outer⟩ := mem_keptPatterns.mp kept
  obtain ⟨_, b, inSecond, c, inThird, inner⟩ := mem_keptPatterns.mp inMiddle
  have grouped := intersectPathPattern_assoc a b c
  rw [inner, bind_some, outer] at grouped
  obtain ⟨other, inner', outer'⟩ := bind_eq_some_iff.mp grouped
  by_cases blank : other = []
  · subst blank
    have same := (intersectPathPattern_mem outer').resolve_left nonempty
    subst same
    exact .inr ⟨inThird, .inr ⟨nonempty, outer', a, inFirst, b, inSecond, inner'⟩⟩
  · exact .inl (mem_keptPatterns.mpr ⟨nonempty, other,
      mem_keptPatterns.mpr ⟨blank, a, inFirst, b, inSecond, inner'⟩, c, inThird, outer'⟩)

theorem lostLast_subset :
    lostLast (.entries first) (.entries second) (.entries third) ⊆ keptPatterns (keptPatterns first second) third := by
  rintro pattern ⟨inFirst, neglected | ⟨nonempty, keeps, q, inSecond, r, inThird, blank⟩⟩
  · cases neglected
  · have grouped := intersectPathPattern_assoc pattern q r
    rw [blank, bind_some, keeps] at grouped
    obtain ⟨other, inner, outer⟩ := bind_eq_some_iff.mp grouped
    have spelled : other ≠ [] := by
      rintro rfl
      have empty := (intersectPathPattern_mem inner).resolve_left (Ne.symm nonempty)
      subst empty
      exact nonempty (Option.some.inj (keeps.symm.trans inner))
    exact mem_keptPatterns.mpr ⟨nonempty, other,
      mem_keptPatterns.mpr ⟨spelled, pattern, inFirst, q, inSecond, inner⟩, r, inThird, outer⟩

theorem lostFirst_subset :
    lostFirst (.entries first) (.entries second) (.entries third) ⊆ keptPatterns first (keptPatterns second third) := by
  rintro pattern ⟨inThird, neglected | ⟨nonempty, keeps, p, inFirst, q, inSecond, blank⟩⟩
  · cases neglected
  · have grouped := intersectPathPattern_assoc p q pattern
    rw [blank, bind_some, keeps] at grouped
    obtain ⟨other, inner, outer⟩ := bind_eq_some_iff.mp grouped.symm
    have spelled : other ≠ [] := by
      rintro rfl
      have empty := (intersectPathPattern_mem inner).resolve_right (Ne.symm nonempty)
      subst empty
      exact nonempty (Option.some.inj (keeps.symm.trans inner))
    exact mem_keptPatterns.mpr ⟨nonempty, p, inFirst, other,
      mem_keptPatterns.mpr ⟨spelled, q, inSecond, pattern, inThird, inner⟩, outer⟩

theorem meet_regroup (first second third : Listing) :
    Differ ((first.meet keptPatterns second).meet keptPatterns third).members
      (first.meet keptPatterns (second.meet keptPatterns third)).members
      (lostLast first second third) (lostFirst first second third) := by
  cases first with
  | entries first =>
    cases second with
    | entries second =>
      cases third with
      | entries third =>
        exact ⟨keptPatterns_regroup_left first second third, keptPatterns_regroup_right first second third,
          lostLast_subset first second third, lostFirst_subset first second third⟩
      | _ => constructor <;> simp [meet, members, lostLast, lostFirst, neglect]
    | _ => cases third <;> constructor <;>
        simp [meet, members, lostLast, lostFirst, neglect]
  | _ => cases second <;> cases third <;> constructor <;>
      simp [meet, members, lostLast, lostFirst, neglect]

def emptyPattern (patterns : Listing) : Set Text :=
  {pattern | pattern ∈ patterns.members ∧ pattern = []}

theorem meet_repeat (patterns : Listing) :
    Differ (patterns.meet keptPatterns patterns).members patterns.members ∅ (emptyPattern patterns) := by
  cases patterns with
  | entries patterns =>
    refine ⟨?_, ?_, Set.empty_subset _, fun pattern member => member.1⟩
    · intro pattern kept
      obtain ⟨_, ⟨member, _⟩ | ⟨member, _⟩⟩ := kept
      · exact .inl member
      · exact .inl member
    · intro pattern member
      by_cases blank : pattern = []
      · exact .inr ⟨member, blank⟩
      · exact .inl (keptPatterns_of_shared member member blank)
  | _ => constructor <;> simp [meet, members, emptyPattern]

section

variable {left right : Set Text}

theorem keptNames_star_left (any : ['*'] ∈ left) : keptNames left right = right := by
  ext name
  simp [keptNames, any]

theorem keptNames_star_right (named : ['*'] ∉ left) (any : ['*'] ∈ right) : keptNames left right = left := by
  ext name
  simp only [keptNames, Set.mem_ofPred_eq]
  tauto

theorem keptNames_named (named : ['*'] ∉ left) (other : ['*'] ∉ right) : keptNames left right = left ∩ right := by
  ext name
  simp [keptNames, named, other]

theorem keptNames_assoc (first second third : Set Text) :
    keptNames (keptNames first second) third = keptNames first (keptNames second third) := by
  by_cases anyFirst : ['*'] ∈ first
  · rw [keptNames_star_left anyFirst, keptNames_star_left anyFirst]
  · by_cases anySecond : ['*'] ∈ second
    · rw [keptNames_star_right anyFirst anySecond, keptNames_star_left anySecond]
    · have neither : ['*'] ∉ first ∩ second := fun both => anyFirst both.1
      rw [keptNames_named anyFirst anySecond]
      by_cases anyThird : ['*'] ∈ third
      · rw [keptNames_star_right neither anyThird, keptNames_star_right anySecond anyThird,
          keptNames_named anyFirst anySecond]
      · have others : ['*'] ∉ second ∩ third := fun both => anySecond both.1
        rw [keptNames_named neither anyThird, keptNames_named anySecond anyThird,
          keptNames_named anyFirst others, Set.inter_assoc]

variable (names : Set Text)

theorem keptNames_self : keptNames names names = names := by
  ext name
  simp only [keptNames, Set.mem_ofPred_eq]
  tauto

theorem keptNames_swap (single : ¬ (['*'] ∈ left ∧ ['*'] ∈ right)) : keptNames left right = keptNames right left := by
  by_cases anyLeft : ['*'] ∈ left
  · have named : ['*'] ∉ right := fun any => single ⟨anyLeft, any⟩
    rw [keptNames_star_left anyLeft, keptNames_star_right named anyLeft]
  · by_cases anyRight : ['*'] ∈ right
    · rw [keptNames_star_right anyLeft anyRight, keptNames_star_left anyRight]
    · rw [keptNames_named anyLeft anyRight, keptNames_named anyRight anyLeft, Set.inter_comm]

variable {ρ : Type} {admits : Text → ρ → Prop}

theorem names_swap (star : ∀ name resource, admits name resource → admits ['*'] resource)
    (left right : Listing) (resource : ρ) : Admitted admits (left.meet keptNames right).members resource ↔
      Admitted admits (right.meet keptNames left).members resource := by
  cases left with
  | entries left =>
    cases right with
    | entries right =>
      change Admitted admits (keptNames left right) resource ↔ Admitted admits (keptNames right left) resource
      by_cases both : ['*'] ∈ left ∧ ['*'] ∈ right
      · rw [keptNames_star_left both.1, keptNames_star_left both.2]
        constructor
        · rintro ⟨name, _, admitting⟩
          exact ⟨['*'], both.1, star name resource admitting⟩
        · rintro ⟨name, _, admitting⟩
          exact ⟨['*'], both.2, star name resource admitting⟩
      · rw [keptNames_swap both]
    | _ => rfl
  | _ => cases right <;> rfl

def lostNamesFirst (first second third : Listing) : Set Text :=
  {name | name ∈ third.members ∧ first.neglect second}

def lostNamesLast (first second third : Listing) : Set Text :=
  {name | name ∈ first.members ∧ second.neglect third}

@[simp] theorem keptNames_empty_left : keptNames ∅ names = ∅ := by
  ext name
  simp [keptNames]

@[simp] theorem keptNames_empty_right : keptNames names ∅ = ∅ := by
  ext name
  simp [keptNames]

theorem names_regroup (first second third : Listing) :
    Differ ((first.meet keptNames second).meet keptNames third).members
      (first.meet keptNames (second.meet keptNames third)).members
      (lostNamesLast first second third) (lostNamesFirst first second third) := by
  cases first with
  | entries first =>
    cases second with
    | entries second =>
      cases third with
      | entries third =>
        constructor <;> simp [meet, members, lostNamesLast, lostNamesFirst,
          neglect, keptNames_assoc]
      | _ => constructor <;> simp [meet, members, lostNamesLast, lostNamesFirst, neglect]
    | _ => cases third <;> constructor <;>
        simp [meet, members, lostNamesLast, lostNamesFirst, neglect]
  | _ => cases second <;> cases third <;> constructor <;>
      simp [meet, members, lostNamesLast, lostNamesFirst, neglect]

theorem names_repeat (names : Listing) : (names.meet keptNames names).members = names.members := by
  cases names with
  | entries names => exact keptNames_self names
  | _ => rfl

end

def SameAnswers {Facet : Type}
    (evaluate : Option Facet → Option AccessResourceContext → ScopeEvaluation)
    (first second : Option Facet) : Prop :=
  ∀ resource, (evaluate first (some resource)).scopeMatched = true ↔
    (evaluate second (some resource)).scopeMatched = true

structure PrefixListing where
  allow : Listing
  readOnly : Listing

def prefixListing (facet : Option PrefixScope) : PrefixListing where
  allow := listing PrefixScope.allowPrefixes facet
  readOnly := listing PrefixScope.readOnlyPrefixes facet

def PrefixListing.meet (left right : PrefixListing) : PrefixListing where
  allow := left.allow.meet keptPatterns right.allow
  readOnly := left.readOnly.meet keptPatterns right.readOnly

def PrefixListing.readable (lists : PrefixListing) : Set Text := lists.allow.members ∪ lists.readOnly.members

theorem prefixListing_intersect (left right : Option PrefixScope) :
    prefixListing (intersectFacet intersectPrefixScope left right) =
      (prefixListing left).meet (prefixListing right) := by
  have allow := @listing_intersectFacet _ PrefixScope.allowPrefixes _ _ intersectPrefixScope
    intersectPathPatterns_merges (fun _ _ => rfl) left right
  have readOnly := @listing_intersectFacet _ PrefixScope.readOnlyPrefixes _ _
    intersectPrefixScope intersectPathPatterns_merges (fun _ _ => rfl) left right
  rw [prefixListing, allow, readOnly]
  rfl

structure Patterns where
  allow : Set Text
  readOnly : Set Text

/-- The patterns reach no path that the lists do not reach, for writing and for reading. -/
structure Harmless (patterns : Patterns) (lists : PrefixListing) : Prop where
  allow : AddsNothing PathAdmits patterns.allow lists.allow.members
  readOnly : AddsNothing PathAdmits patterns.readOnly lists.readable

variable {resourceType : AccessResourceType}

theorem prefix_same_iff {first second : Option PrefixScope} :
    SameAnswers (evaluatePrefixScope resourceType) first second ↔
      (∀ path, Reaches (prefixListing first).allow.members path ↔ Reaches (prefixListing second).allow.members path) ∧
      ∀ path, Reaches (prefixListing first).readable path ↔ Reaches (prefixListing second).readable path := by
  simp only [SameAnswers, evaluatePrefixScope_iff, allowOf, readOnlyOf, prefixListing,
    PrefixListing.readable, Coverage.admitted_union]
  constructor
  · intro same
    constructor
    · intro path
      simpa using same ⟨resourceType, path, .write⟩
    · intro path
      simpa using same ⟨resourceType, path, .read⟩
  · rintro ⟨writing, reading⟩ ⟨type, path, action⟩
    cases action with
    | read => simpa using fun _ => reading path
    | write | admin => simpa using fun _ => writing path

theorem prefix_same_iff_harmless {resourceType : AccessResourceType}
    {first second : Option PrefixScope} {onlyFirst onlySecond : Patterns}
    (allow : Differ (prefixListing first).allow.members (prefixListing second).allow.members
      onlyFirst.allow onlySecond.allow)
    (readOnly : Differ (prefixListing first).readOnly.members (prefixListing second).readOnly.members
      onlyFirst.readOnly onlySecond.readOnly) : SameAnswers (evaluatePrefixScope resourceType) first second ↔
      Harmless onlyFirst (prefixListing second) ∧ Harmless onlySecond (prefixListing first) := by
  have readable := (allow.union readOnly).same_iff PathAdmits
  rw [Coverage.addsNothing_union, Coverage.addsNothing_union] at readable
  rw [prefix_same_iff, allow.same_iff PathAdmits]
  change _ ∧ (∀ path, Reaches (_ ∪ _) path ↔ Reaches (_ ∪ _) path) ↔ _
  rw [readable]
  constructor
  · rintro ⟨⟨firstAllow, secondAllow⟩, ⟨_, firstReads⟩, _, secondReads⟩
    exact ⟨⟨firstAllow, firstReads⟩, secondAllow, secondReads⟩
  · rintro ⟨first, second⟩
    exact ⟨⟨first.allow, second.allow⟩, ⟨first.allow.mono Set.subset_union_left, first.readOnly⟩,
      second.allow.mono Set.subset_union_left, second.readOnly⟩

def tiedLists (left right : PrefixListing) : Patterns where
  allow := tiedPatterns left.allow.members right.allow.members
  readOnly := tiedPatterns left.readOnly.members right.readOnly.members

def lostFirstLists (first second third : PrefixListing) : Patterns where
  allow := lostFirst first.allow second.allow third.allow
  readOnly := lostFirst first.readOnly second.readOnly third.readOnly

def lostLastLists (first second third : PrefixListing) : Patterns where
  allow := lostLast first.allow second.allow third.allow
  readOnly := lostLast first.readOnly second.readOnly third.readOnly

def emptyPatterns (lists : PrefixListing) : Patterns where
  allow := emptyPattern lists.allow
  readOnly := emptyPattern lists.readOnly

def noPatterns : Patterns where
  allow := ∅
  readOnly := ∅

theorem harmless_noPatterns (lists : PrefixListing) : Harmless noPatterns lists where
  allow _ member := absurd member (Set.notMem_empty _)
  readOnly _ member := absurd member (Set.notMem_empty _)

/-- Neither the order nor the grouping nor the repetition of a merge matters to a facet of
path patterns. -/
structure PrefixOrderFree (a b c : PrefixListing) : Prop where
  tied : Harmless (tiedLists a b) (b.meet a) ∧ Harmless (tiedLists b a) (a.meet b)
  lost : Harmless (lostLastLists a b c) (a.meet (b.meet c)) ∧ Harmless (lostFirstLists a b c) ((a.meet b).meet c)
  empty : Harmless (emptyPatterns a) (a.meet a)

theorem prefix_orderFree_iff {a b c : Option PrefixScope} :
    (SameAnswers (evaluatePrefixScope resourceType) (intersectFacet intersectPrefixScope a b)
        (intersectFacet intersectPrefixScope b a) ∧ SameAnswers (evaluatePrefixScope resourceType)
        (intersectFacet intersectPrefixScope (intersectFacet intersectPrefixScope a b) c)
        (intersectFacet intersectPrefixScope a (intersectFacet intersectPrefixScope b c)) ∧
      SameAnswers (evaluatePrefixScope resourceType) (intersectFacet intersectPrefixScope a a) a) ↔
      PrefixOrderFree (prefixListing a) (prefixListing b) (prefixListing c) := by
  have swap := @prefix_same_iff_harmless resourceType (intersectFacet intersectPrefixScope a b)
    (intersectFacet intersectPrefixScope b a) (tiedLists (prefixListing a) (prefixListing b))
    (tiedLists (prefixListing b) (prefixListing a))
  have regroup := @prefix_same_iff_harmless resourceType
    (intersectFacet intersectPrefixScope (intersectFacet intersectPrefixScope a b) c)
    (intersectFacet intersectPrefixScope a (intersectFacet intersectPrefixScope b c))
    (lostLastLists (prefixListing a) (prefixListing b) (prefixListing c))
    (lostFirstLists (prefixListing a) (prefixListing b) (prefixListing c))
  have again := @prefix_same_iff_harmless resourceType (intersectFacet intersectPrefixScope a a) a
    noPatterns (emptyPatterns (prefixListing a))
  simp only [prefixListing_intersect] at swap regroup again
  rw [swap (meet_swap _ _) (meet_swap _ _), regroup (meet_regroup _ _ _) (meet_regroup _ _ _),
    again (meet_repeat _) (meet_repeat _)]
  constructor
  · rintro ⟨tied, lost, _, empty⟩
    exact ⟨tied, lost, empty⟩
  · rintro ⟨tied, lost, empty⟩
    exact ⟨tied, lost, harmless_noPatterns _, empty⟩

structure EnvDbListing where
  schemas : Listing
  tables : Listing

def envDbListing (facet : Option EnvDbScope) : EnvDbListing where
  schemas := listing EnvDbScope.schemas facet
  tables := listing EnvDbScope.tables facet

def EnvDbListing.meet (left right : EnvDbListing) : EnvDbListing where
  schemas := left.schemas.meet keptNames right.schemas
  tables := left.tables.meet keptNames right.tables

theorem envDbListing_intersect (left right : Option EnvDbScope) :
    envDbListing (intersectFacet intersectEnvDbScope left right) = (envDbListing left).meet (envDbListing right) := by
  have schemas := @listing_intersectFacet _ EnvDbScope.schemas _ _ intersectEnvDbScope
    intersectStringSets_merges (fun _ _ => rfl) left right
  have tables := @listing_intersectFacet _ EnvDbScope.tables _ _ intersectEnvDbScope
    intersectStringSets_merges (fun _ _ => rfl) left right
  rw [envDbListing, schemas, tables]
  rfl

abbrev Identifier := { identifier : Text // Text.trim identifier ≠ [] }

def nameAdmits : Text ⊕ Text → Identifier → Prop
  | .inl schema, identifier => schemaAdmits schema identifier = true
  | .inr table, identifier => tableAdmits table identifier = true

def names (schemas tables : Set Text) : Set (Text ⊕ Text) := Sum.inl '' schemas ∪ Sum.inr '' tables

def EnvDbListing.names (lists : EnvDbListing) : Set (Text ⊕ Text) :=
  Access.names lists.schemas.members lists.tables.members

variable {identifier : Identifier}

theorem admitted_names {schemas tables : Set Text} :
    Admitted nameAdmits (names schemas tables) identifier ↔
      Admitted (fun name (identifier : Identifier) => schemaAdmits name identifier = true) schemas identifier ∨
      Admitted (fun name (identifier : Identifier) => tableAdmits name identifier = true) tables identifier := by
  simp [names, Admitted, nameAdmits, or_and_right, exists_or]

theorem namesAdmit_iff {facet : Option EnvDbScope} :
    NamesAdmit (schemasOf facet) (tablesOf facet) identifier ↔
      Admitted nameAdmits (envDbListing facet).names identifier :=
  admitted_names.symm

theorem envDb_same_iff {first second : Option EnvDbScope} : SameAnswers evaluateEnvDbScope first second ↔
      ∀ identifier, Admitted nameAdmits (envDbListing first).names identifier ↔
        Admitted nameAdmits (envDbListing second).names identifier := by
  simp only [SameAnswers, evaluateEnvDbScope_iff, ← namesAdmit_iff]
  constructor
  · intro same identifier
    simpa [identifier.property] using same ⟨.envdb, identifier.val, .read⟩
  · rintro same ⟨type, identifier, action⟩
    by_cases blank : Text.trim identifier = []
    · simp [blank]
    · simpa [blank] using fun _ => same ⟨identifier, blank⟩

def lostFirstNames (first second third : EnvDbListing) : Set (Text ⊕ Text) :=
  names (lostNamesFirst first.schemas second.schemas third.schemas)
    (lostNamesFirst first.tables second.tables third.tables)

def lostLastNames (first second third : EnvDbListing) : Set (Text ⊕ Text) :=
  names (lostNamesLast first.schemas second.schemas third.schemas)
    (lostNamesLast first.tables second.tables third.tables)

structure EnvDbOrderFree (a b c : EnvDbListing) : Prop where
  last : AddsNothing nameAdmits (lostLastNames a b c) (a.meet (b.meet c)).names
  first : AddsNothing nameAdmits (lostFirstNames a b c) ((a.meet b).meet c).names

theorem envDb_swap (left right : EnvDbListing) (identifier : Identifier) :
    Admitted nameAdmits (left.meet right).names identifier ↔
      Admitted nameAdmits (right.meet left).names identifier := by
  have schemaStar : ∀ (name : Text) (identifier : Identifier),
      schemaAdmits name identifier = true → schemaAdmits ['*'] identifier = true :=
    fun _ _ _ => matchesIdentifierPattern_star _
  have tableStar : ∀ (name : Text) (identifier : Identifier),
      tableAdmits name identifier = true → tableAdmits ['*'] identifier = true :=
    fun _ _ => tableAdmits_star
  rw [EnvDbListing.names, EnvDbListing.names, admitted_names, admitted_names]
  apply or_congr
  · exact names_swap schemaStar left.schemas right.schemas identifier
  · exact names_swap tableStar left.tables right.tables identifier

theorem envDb_repeat (lists : EnvDbListing) : (lists.meet lists).names = lists.names := by
  rw [EnvDbListing.names, EnvDbListing.names]
  exact congrArg₂ names (names_repeat lists.schemas) (names_repeat lists.tables)

theorem envDb_orderFree_iff {a b c : Option EnvDbScope} :
    (SameAnswers evaluateEnvDbScope (intersectFacet intersectEnvDbScope a b) (intersectFacet intersectEnvDbScope b a) ∧
      SameAnswers evaluateEnvDbScope (intersectFacet intersectEnvDbScope (intersectFacet intersectEnvDbScope a b) c)
        (intersectFacet intersectEnvDbScope a (intersectFacet intersectEnvDbScope b c)) ∧
      SameAnswers evaluateEnvDbScope (intersectFacet intersectEnvDbScope a a) a) ↔
      EnvDbOrderFree (envDbListing a) (envDbListing b) (envDbListing c) := by
  simp only [envDb_same_iff, envDbListing_intersect]
  generalize envDbListing a = a
  generalize envDbListing b = b
  generalize envDbListing c = c
  have schemas := (names_regroup a.schemas b.schemas c.schemas).image (Sum.inl : Text → Text ⊕ Text)
  have tables := (names_regroup a.tables b.tables c.tables).image (Sum.inr : Text → Text ⊕ Text)
  have regroup := (schemas.union tables).same_iff nameAdmits
  have same : (∀ identifier, Admitted nameAdmits ((a.meet b).meet c).names identifier ↔
      Admitted nameAdmits (a.meet (b.meet c)).names identifier) ↔ EnvDbOrderFree a b c :=
    regroup.trans ⟨fun ⟨last, first⟩ => ⟨last, first⟩, fun free => ⟨free.last, free.first⟩⟩
  rw [same]
  constructor
  · rintro ⟨_, free, _⟩
    exact free
  · intro free
    refine ⟨envDb_swap a b, free, ?_⟩
    intro identifier
    rw [envDb_repeat]

def mountAdmits (entry mountId : Text) : Prop := entry = ['*'] ∨ entry = mountId

def mountListing (facet : Option CloudFsScope) : Listing := listing CloudFsScope.allowMountIds facet

theorem mountListing_intersect (left right : Option CloudFsScope) :
    mountListing (intersectFacet intersectCloudFsScope left right) =
      (mountListing left).meet keptNames (mountListing right) :=
  @listing_intersectFacet CloudFsScope _ _ _ _
    intersectStringSets_merges (fun _ _ => rfl) left right

theorem cloudFs_same_iff {first second : Option CloudFsScope} : SameAnswers evaluateCloudFsScope first second ↔
      ∀ mountId, Admitted mountAdmits (mountListing first).members mountId ↔
        Admitted mountAdmits (mountListing second).members mountId := by
  have admitted : ∀ (mounts : Set Text) mountId, MountsAdmit mounts mountId ↔ Admitted mountAdmits mounts mountId := by
    intro mounts mountId
    simp [MountsAdmit, Admitted, mountAdmits, and_or_left, exists_or]
  simp only [SameAnswers, evaluateCloudFsScope_iff, admitted, mountsOf, mountListing]
  constructor
  · intro same mountId
    simpa using same ⟨.cloudFs, mountId, .read⟩
  · rintro same ⟨type, mountId, action⟩
    simpa using fun _ => same mountId

structure MountsOrderFree (a b c : Listing) : Prop where
  last : AddsNothing mountAdmits (lostNamesLast a b c)
    (a.meet keptNames (b.meet keptNames c)).members
  first : AddsNothing mountAdmits (lostNamesFirst a b c)
    ((a.meet keptNames b).meet keptNames c).members

theorem cloudFs_orderFree_iff {a b c : Option CloudFsScope} :
    (SameAnswers evaluateCloudFsScope (intersectFacet intersectCloudFsScope a b)
        (intersectFacet intersectCloudFsScope b a) ∧ SameAnswers evaluateCloudFsScope
        (intersectFacet intersectCloudFsScope (intersectFacet intersectCloudFsScope a b) c)
        (intersectFacet intersectCloudFsScope a (intersectFacet intersectCloudFsScope b c)) ∧
      SameAnswers evaluateCloudFsScope (intersectFacet intersectCloudFsScope a a) a) ↔
      MountsOrderFree (mountListing a) (mountListing b) (mountListing c) := by
  simp only [cloudFs_same_iff, mountListing_intersect]
  generalize mountListing a = a
  generalize mountListing b = b
  generalize mountListing c = c
  have regroup := (names_regroup a b c).same_iff mountAdmits
  rw [regroup]
  constructor
  · rintro ⟨_, ⟨last, first⟩, _⟩
    exact ⟨last, first⟩
  · rintro ⟨last, first⟩
    refine ⟨names_swap (fun _ _ _ => .inl rfl) a b, ⟨last, first⟩, ?_⟩
    intro mountId
    rw [names_repeat]

/-- Merging in another order or grouping, or a scope with itself, changes no answer. -/
def OrderIndependent (a b c : AccessBindingScope) : Prop :=
  ∀ permission resourceType resource, permissionResourceType permission = some resourceType →
    (evaluateScope (some (intersectScopes a b)) permission (some resource)).scopeMatched =
      (evaluateScope (some (intersectScopes b a)) permission (some resource)).scopeMatched ∧
    (evaluateScope (some (intersectScopes (intersectScopes a b) c)) permission (some resource)).scopeMatched =
      (evaluateScope (some (intersectScopes a (intersectScopes b c))) permission (some resource)).scopeMatched ∧
    (evaluateScope (some (intersectScopes a a)) permission (some resource)).scopeMatched =
      (evaluateScope (some a) permission (some resource)).scopeMatched

structure OrderFree (a b c : AccessBindingScope) : Prop where
  orgfs : PrefixOrderFree (prefixListing a.orgfs) (prefixListing b.orgfs) (prefixListing c.orgfs)
  orgdocs : PrefixOrderFree (prefixListing a.orgdocs) (prefixListing b.orgdocs)
    (prefixListing c.orgdocs)
  envdb : EnvDbOrderFree (envDbListing a.envdb) (envDbListing b.envdb) (envDbListing c.envdb)
  cloudFs : MountsOrderFree (mountListing a.cloudFs) (mountListing b.cloudFs)
    (mountListing c.cloudFs)

def FacetOrderIndependent (a b c : AccessBindingScope) (resourceType : AccessResourceType) : Prop :=
  let answers (scope : AccessBindingScope) (resource : AccessResourceContext) : Prop :=
    (evaluateFacet scope resourceType (some resource)).scopeMatched = true
  (∀ resource, answers (intersectScopes a b) resource ↔ answers (intersectScopes b a) resource) ∧
    (∀ resource, answers (intersectScopes (intersectScopes a b) c) resource ↔
      answers (intersectScopes a (intersectScopes b c)) resource) ∧
    ∀ resource, answers (intersectScopes a a) resource ↔ answers a resource

theorem orderIndependent_iff_facets {a b c : AccessBindingScope} :
    OrderIndependent a b c ↔ ∀ resourceType, FacetOrderIndependent a b c resourceType := by
  constructor
  · intro independent resourceType
    have each := fun resource => independent (readPermission resourceType) resourceType resource
      (permissionResourceType_readPermission resourceType)
    simp only [evaluateScope_eq (permissionResourceType_readPermission _)] at each
    refine ⟨?_, ?_, ?_⟩
    · intro resource
      exact Bool.eq_iff_iff.mp (each resource).1
    · intro resource
      exact Bool.eq_iff_iff.mp (each resource).2.1
    · intro resource
      exact Bool.eq_iff_iff.mp (each resource).2.2
  · intro each permission resourceType resource concerns
    obtain ⟨swapped, regrouped, repeated⟩ := each resourceType
    simp only [evaluateScope_eq concerns]
    exact ⟨Bool.eq_iff_iff.mpr (swapped resource), Bool.eq_iff_iff.mpr (regrouped resource),
      Bool.eq_iff_iff.mpr (repeated resource)⟩

/-- The answers of merged scopes depend on no order, grouping or repetition exactly when
the patterns that only one order keeps, the entries that only one grouping loses and the
empty patterns admit nothing that is not admitted anyway. -/
theorem orderIndependent_iff (a b c : AccessBindingScope) : OrderIndependent a b c ↔ OrderFree a b c := by
  rw [orderIndependent_iff_facets]
  constructor
  · intro each
    constructor
    · exact prefix_orderFree_iff.mp (each .orgfs)
    · exact prefix_orderFree_iff.mp (each .orgdocs)
    · exact envDb_orderFree_iff.mp (each .envdb)
    · exact cloudFs_orderFree_iff.mp (each .cloudFs)
  · intro free resourceType
    cases resourceType with
    | orgfs => exact prefix_orderFree_iff.mpr free.orgfs
    | orgdocs => exact prefix_orderFree_iff.mpr free.orgdocs
    | envdb => exact envDb_orderFree_iff.mpr free.envdb
    | cloudFs => exact cloudFs_orderFree_iff.mpr free.cloudFs

def silentStep : AccessBindingScope where
  orgdocs := some {}

def docsReader : AccessBindingScope where
  orgdocs := some { allowPrefixes := some ["/handbook".toList] }

theorem grouping_changes_answer : ¬ OrderIndependent silentStep silentStep docsReader := by
  intro independent
  have answers := (independent "orgdocs:read".toList .orgdocs ⟨.orgdocs, "/handbook/a.md".toList, .read⟩
    (by decide +kernel)).2.1
  exact absurd answers (by decide +kernel)

end EveHorizon.Access
