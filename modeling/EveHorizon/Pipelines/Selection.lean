import EveHorizon.Pipelines.Runs
import Mathlib.Data.Finset.Card

/-!
# Steps of partial runs

A partial run selects the steps its target reaches through `depends_on`: no more, no fewer, and
none when a name on the way is not a step.
-/

namespace EveHorizon.Pipelines

open Relation List

variable {steps : List PipelineStep} {included names : List String} {name other : String}

variable (steps)

def Depends (name dep : String) : Prop :=
  ∃ step, stepNamed steps name = some step ∧ dep ∈ step.dependsOn.getD []

/-- What a visit of the names comes to: everything it adds is reached, is a step and has its
dependencies included; or something reached is not a step. -/
def Explores (included names : List String) : Except String (List String) → Prop
  | .ok found => included ⊆ found ∧ names ⊆ found ∧ ∀ other ∈ found, other ∈ included ∨
      ((∃ name ∈ names, ReflTransGen (Depends steps) name other) ∧
        stepNamed steps other ≠ none ∧ ∀ dep, Depends steps other dep → dep ∈ found)
  | .error _ => ∃ name ∈ names, ∃ other, ReflTransGen (Depends steps) name other ∧ stepNamed steps other = none

def fresh (included : List String) : Finset String :=
  (steps.map fun step => step.name.getD "").toFinset \ included.toFinset

variable {steps}

variable {found : List String}

theorem fresh_mono (grows : included ⊆ found) : (fresh steps found).card ≤ (fresh steps included).card := by
  refine Finset.card_le_card (Finset.sdiff_subset_sdiff (Finset.Subset.refl _) ?_)
  intro name member
  exact mem_toFinset.mpr (grows (mem_toFinset.mp member))

theorem stepNamed_ne_none : stepNamed steps name ≠ none ↔ name ∈ steps.map fun step => step.name.getD "" := by
  simp [stepNamed]

variable {step : PipelineStep}

theorem fresh_append (isStep : stepNamed steps name = some step) (new : name ∉ included) :
    (fresh steps (included ++ [name])).card < (fresh steps included).card := by
  have member : name ∈ fresh steps included :=
    Finset.mem_sdiff.mpr ⟨mem_toFinset.mpr (stepNamed_ne_none.mp (by simp [isStep])), by simpa using new⟩
  refine Finset.card_lt_card ⟨?_, fun back => ?_⟩
  · exact Finset.sdiff_subset_sdiff (Finset.Subset.refl _) (by simp)
  · exact (Finset.mem_sdiff.mp (back member)).2 (by simp)

variable {result : Except String (List String)}

theorem explores_cons (first : Explores steps included [name] (.ok found)) (rest : Explores steps found names result) :
    Explores steps included (name :: names) result := by
  obtain ⟨grows, contains, explored⟩ := first
  cases result with
  | error message =>
    obtain ⟨start, member, missing⟩ := rest
    exact ⟨start, mem_cons_of_mem _ member, missing⟩
  | ok found =>
    obtain ⟨more, others, later⟩ := rest
    refine ⟨List.Subset.trans grows more, cons_subset.mpr ⟨more (contains mem_cons_self), others⟩, ?_⟩
    intro other member
    rcases later other member with early | ⟨⟨start, among, reached⟩, closed⟩
    · rcases explored other early with old | ⟨⟨start, among, reached⟩, isStep, closed⟩
      · exact .inl old
      · rw [mem_singleton] at among
        exact .inr ⟨⟨start, among ▸ mem_cons_self, reached⟩, isStep, fun dep depends => more (closed dep depends)⟩
    · exact .inr ⟨⟨start, mem_cons_of_mem _ among, reached⟩, closed⟩

variable {levels : Nat}

theorem explores_all (enough : (fresh steps included).card ≤ levels)
    (each : ∀ included name, (fresh steps included).card ≤ levels →
      Explores steps included [name] (visit steps levels included name)) :
    Explores steps included names (names.foldlM (visit steps levels) included) := by
  induction names generalizing included with
  | nil => exact ⟨List.Subset.refl _, nil_subset _, fun other member => .inl member⟩
  | cons name names ih =>
    have first := each included name enough
    rw [foldlM_cons]
    cases visited : visit steps levels included name with
    | error message =>
      rw [visited] at first
      obtain ⟨start, member, missing⟩ := first
      rw [mem_singleton] at member
      exact ⟨start, member ▸ mem_cons_self, missing⟩
    | ok found =>
      rw [visited] at first
      exact explores_cons first (ih (Nat.le_trans (fresh_mono first.1) enough))

theorem explores_enter (isStep : stepNamed steps name = some step)
    (explored : Explores steps (included ++ [name]) (step.dependsOn.getD []) result) :
    Explores steps included [name] result := by
  have depends : ∀ dep ∈ step.dependsOn.getD [], Depends steps name dep := fun dep member => ⟨step, isStep, member⟩
  cases result with
  | error message =>
    obtain ⟨dep, member, missing, reached, unnamed⟩ := explored
    exact ⟨name, mem_singleton_self _, missing, .head (depends dep member) reached, unnamed⟩
  | ok found =>
    obtain ⟨grows, contains, closed⟩ := explored
    refine ⟨fun other old => grows (mem_append_left _ old), fun other same => grows ?_, ?_⟩
    · exact mem_append_right _ same
    · intro other member
      rcases closed other member with early | ⟨⟨dep, among, reached⟩, later⟩
      · rcases mem_append.mp early with old | same
        · exact .inl old
        · obtain rfl := mem_singleton.mp same
          refine .inr ⟨⟨other, same, .refl⟩, by simp [isStep], fun dep ⟨found, named, among⟩ => contains ?_⟩
          rw [isStep, Option.some.injEq] at named
          exact named ▸ among
      · exact .inr ⟨⟨name, mem_singleton_self _, .head (depends dep among) reached⟩, later⟩

theorem visit_explores (enough : (fresh steps included).card ≤ levels) :
    Explores steps included [name] (visit steps levels included name) := by
  induction levels generalizing included name with
  | zero =>
    unfold visit
    split
    · next missing => exact ⟨name, mem_singleton_self _, name, .refl, missing⟩
    · next step isStep =>
        split
        · next old => exact ⟨List.Subset.refl _, by simpa using old, fun other member => .inl member⟩
        · next new =>
            have fewer := fresh_append isStep (show name ∉ included by simpa using new)
            omega
  | succ levels ih =>
    unfold visit
    split
    · next missing => exact ⟨name, mem_singleton_self _, name, .refl, missing⟩
    · next step isStep =>
        split
        · next old => exact ⟨List.Subset.refl _, by simpa using old, fun other member => .inl member⟩
        · next new =>
            have fewer := fresh_append isStep (show name ∉ included by simpa using new)
            exact explores_enter isStep (explores_all (by omega) fun included name => ih)

theorem visit_deeper (enough : (fresh steps included).card ≤ levels) :
    visit steps (levels + 1) included name = visit steps levels included name := by
  induction levels generalizing included name with
  | zero =>
    unfold visit
    split
    · rfl
    · next step isStep =>
        split
        · rfl
        · next new =>
            have fewer := fresh_append isStep (show name ∉ included by simpa using new)
            omega
  | succ levels ih =>
    rw [visit, visit]
    split
    · rfl
    · next step isStep =>
        split
        · rfl
        · next new =>
            have fewer := fresh_append isStep (show name ∉ included by simpa using new)
            replace enough : (fresh steps (included ++ [name])).card ≤ levels := by omega
            dsimp only
            generalize included ++ [name] = entered at enough
            induction step.dependsOn.getD [] generalizing entered with
            | nil => rfl
            | cons dep deps rest =>
              rw [foldlM_cons, foldlM_cons, ih enough]
              have explored : Explores steps entered [dep] _ := visit_explores enough
              cases visited : visit steps levels entered dep with
              | error message => rfl
              | ok found =>
                rw [visited] at explored
                exact rest found (Nat.le_trans (fresh_mono explored.1) enough)

def namedSteps (steps : List PipelineStep) : List PipelineStep :=
  steps.zipIdx.map fun (step, index) => { step with name := some (stepName index step) }

theorem reached_of_explored (explored : Explores steps [] [name] (.ok found)) :
    other ∈ found ↔ ReflTransGen (Depends steps) name other := by
  obtain ⟨-, contains, closed⟩ := explored
  constructor
  · intro member
    obtain old | ⟨⟨start, among, reached⟩, -⟩ := closed other member
    · cases old
    · exact mem_singleton.mp among ▸ reached
  · intro reached
    induction reached with
    | refl => exact contains (mem_singleton_self _)
    | @tail middle other _ depends ih =>
      obtain old | ⟨-, -, onward⟩ := closed middle ih
      · cases old
      · exact onward other depends

theorem partial_run_selects (steps : List PipelineStep) (only : String)
    (distinct : ((namedSteps steps).map fun step => step.name.getD "").Nodup) :
    ((∃ message, filterStepsForOnly steps only = .error message) ↔
      ∃ name, ReflTransGen (Depends (namedSteps steps)) only name ∧
        name ∉ (namedSteps steps).map fun step => step.name.getD "") ∧
    (∀ selected, filterStepsForOnly steps only = .ok selected → selected.Sublist (namedSteps steps) ∧ selected.Nodup ∧
        (∀ step, step ∈ selected ↔ step ∈ namedSteps steps ∧
          ReflTransGen (Depends (namedSteps steps)) only (step.name.getD "")) ∧
        ∀ step ∈ selected, ∀ dep ∈ step.dependsOn.getD [], ∃ needed ∈ selected, needed.name.getD "" = dep) ∧
    ∀ levels ≥ (namedSteps steps).length,
      visit (namedSteps steps) levels [] only = visit (namedSteps steps) (namedSteps steps).length [] only := by
  have enough : (fresh (namedSteps steps) []).card ≤ (namedSteps steps).length :=
    (Finset.card_le_card Finset.sdiff_subset).trans ((toFinset_card_le _).trans (by simp))
  refine and_assoc.mp ⟨?_, fun levels deep => ?_⟩
  rotate_left
  · induction levels, deep using Nat.le_induction with
    | base => rfl
    | succ levels deep ih => exact (visit_deeper (Nat.le_trans enough deep)).trans ih
  have explored : Explores (namedSteps steps) [] [only] _ := visit_explores enough
  have filtered : filterStepsForOnly steps only = (visit (namedSteps steps) (namedSteps steps).length [] only).map
      fun included => (namedSteps steps).filter fun step => included.contains (step.name.getD "") := by
    unfold filterStepsForOnly
    change (visit (namedSteps steps) (namedSteps steps).length [] only >>= fun included =>
      pure ((namedSteps steps).filter fun step : PipelineStep => included.contains (step.name.getD ""))) = _
    cases visit (namedSteps steps) (namedSteps steps).length [] only <;> rfl
  rw [filtered]
  cases visited : visit (namedSteps steps) (namedSteps steps).length [] only with
  | error message =>
    rw [visited] at explored
    obtain ⟨start, among, missing, reached, unnamed⟩ := explored
    rw [mem_singleton.mp among] at reached
    refine ⟨⟨fun _ => ⟨missing, reached, fun member => ?_⟩, fun _ => ⟨message, rfl⟩⟩, fun _ isSelected => ?_⟩
    · exact stepNamed_ne_none.mpr member unnamed
    · cases isSelected
  | ok found =>
    rw [visited] at explored
    have reached : ∀ name, name ∈ found ↔ _ := fun _ => reached_of_explored explored
    refine ⟨⟨?_, ?_⟩, ?_⟩
    · rintro ⟨message, failed⟩
      cases failed
    · rintro ⟨name, isReached, unnamed⟩
      obtain old | ⟨-, isStep, -⟩ := explored.2.2 name ((reached name).mpr isReached)
      · cases old
      · exact absurd (stepNamed_ne_none.mp isStep) unnamed
    · rintro selected isSelected
      obtain rfl := Except.ok.inj isSelected
      have selects : ∀ step, step ∈ (namedSteps steps).filter (fun step => found.contains (step.name.getD "")) ↔
          step ∈ namedSteps steps ∧ ReflTransGen (Depends (namedSteps steps)) only (step.name.getD "") := by
        intro step
        rw [mem_filter, contains_iff_mem, reached]
      refine ⟨filter_sublist, (distinct.of_map _).filter _, selects, ?_⟩
      intro step member dep among
      obtain ⟨isStep, isReached⟩ := (selects step).mp member
      obtain ⟨dependsOn, isNamed⟩ : ∃ found, stepNamed (namedSteps steps) (step.name.getD "") = some found :=
        Option.ne_none_iff_exists'.mp (stepNamed_ne_none.mpr (mem_map_of_mem isStep))
      have same : dependsOn = step :=
        inj_on_of_nodup_map distinct (mem_reverse.mp (mem_of_find?_eq_some isNamed)) isStep
          (by simpa using find?_some isNamed)
      have onward := isReached.tail (c := dep) ⟨step, same ▸ isNamed, among⟩
      obtain old | ⟨-, isNeeded, -⟩ := explored.2.2 dep ((reached dep).mpr onward)
      · cases old
      · obtain ⟨needed, present, named⟩ := mem_map.mp (stepNamed_ne_none.mp isNeeded)
        exact ⟨needed, (selects needed).mpr ⟨present, named.symm ▸ onward⟩, named⟩

def buildAndTest : List PipelineStep :=
  [{ name := some "build" }, { run := some "lint" }, { name := some "test", dependsOn := some ["build", "test"] }]

theorem test_selects_build : ∃ selected, filterStepsForOnly buildAndTest "test" = .ok selected ∧
    selected.length = 2 ∧ selected.Nodup := by
  obtain ⟨-, exactly, -⟩ := partial_run_selects buildAndTest "test" (by decide)
  exact ⟨_, rfl, rfl, (exactly _ rfl).2.1⟩

end EveHorizon.Pipelines
