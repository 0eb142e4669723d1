import Mathlib.Data.Set.Finite.Basic
import Mathlib.Order.WellFounded

/-!
# Orders of precedence

Lists in which each item comes after those that precede it.
-/

namespace EveHorizon.Precedence

open List
open Relation (ReflTransGen TransGen)

variable {α : Type}

def Ordered (before : α → α → Prop) (items : List α) : Prop :=
  ∀ earlier item later, items = earlier ++ item :: later → ∀ other, before other item → other ∈ earlier

theorem ordered_nil (before : α → α → Prop) : Ordered before [] := by
  intro earlier item later split
  simp at split

variable {before : α → α → Prop} {items : List α}

theorem Ordered.append (ordered : Ordered before items) {item : α}
    (preceded : ∀ other, before other item → other ∈ items) : Ordered before (items ++ [item]) := by
  intro earlier found later split other precedes
  rcases eq_nil_or_concat later with rfl | ⟨kept, last, rfl⟩
  · obtain ⟨rfl, same⟩ := append_inj' split rfl
    cases same
    exact preceded other precedes
  · rw [concat_eq_append, ← cons_append, ← append_assoc] at split
    obtain ⟨same, -⟩ := append_inj' split rfl
    exact ordered earlier found kept same other precedes

theorem Ordered.prefix {more : List α} (ordered : Ordered before (items ++ more)) : Ordered before items := by
  intro earlier item later split
  refine ordered earlier item (later ++ more) ?_
  rw [split, append_assoc, cons_append]

theorem Ordered.first {before : α → α → Prop} {items : List α} (ordered : Ordered before items)
    {chosen : α → Prop} (some : ∃ item ∈ items, chosen item) :
    ∃ item ∈ items, chosen item ∧ ∀ other, before other item → ¬ chosen other := by
  induction items using List.reverseRecOn with
  | nil =>
    obtain ⟨item, nowhere, -⟩ := some
    cases nowhere
  | append_singleton items last ih =>
    by_cases earlier : ∃ item ∈ items, chosen item
    · obtain ⟨item, listed, found, alone⟩ := ih ordered.prefix earlier
      exact ⟨item, mem_append_left _ listed, found, alone⟩
    · obtain ⟨item, member, found⟩ := some
      have same : item = last := by
        rcases mem_append.mp member with old | new
        · exact absurd ⟨item, old, found⟩ earlier
        · exact mem_singleton.mp new
      refine ⟨last, mem_append_right _ (mem_singleton_self last), same ▸ found, ?_⟩
      intro other precedes isChosen
      exact earlier ⟨other, ordered items last [] rfl other precedes, isChosen⟩

def Acyclic (before : α → α → Prop) : Prop := ∀ item, ¬ TransGen before item item

theorem acyclic_of_lt (rank : α → Nat)
    (descends : ∀ item other, before item other → rank other < rank item) : Acyclic before := by
  have lower {item other : α} (path : TransGen before item other) : rank other < rank item := by
    induction path with
    | single step => exact descends _ _ step
    | tail _ step ih => exact Nat.lt_trans (descends _ _ step) ih
  exact fun item cycle => absurd (lower cycle) (Nat.lt_irrefl _)

theorem acyclic_of_ordered (ordered : Ordered before items)
    (listed : ∀ item other, before other item → item ∈ items) : Acyclic before := by
  intro item cycle
  obtain ⟨_, _, into⟩ := TransGen.tail'_iff.mp cycle
  have some : ∃ found ∈ items, TransGen before found found := ⟨item, listed item _ into, cycle⟩
  obtain ⟨first, _, isCycle, alone⟩ :=
    Ordered.first ordered some
  obtain ⟨last, way, step⟩ := TransGen.tail'_iff.mp isCycle
  exact alone last step (TransGen.head' step way)

theorem Acyclic.swap (acyclic : Acyclic before) : Acyclic fun item other => before other item := by
  intro item cycle
  exact acyclic item (TransGen.swap item item cycle)

theorem Acyclic.exists_last (acyclic : Acyclic before) {chosen : α → Prop}
    (listed : ∀ item, chosen item → item ∈ items) (some : ∃ item, chosen item) :
    ∃ item, chosen item ∧ ∀ other, before item other → ¬ chosen other := by
  have founded : WellFounded fun second first : {item // item ∈ items} =>
      TransGen before first.1 second.1 := by
    have transitive : IsTrans {item // item ∈ items} fun second first =>
        TransGen before first.1 second.1 :=
      ⟨fun _ _ _ second first => first.trans second⟩
    have irreflexive : Std.Irrefl fun second first : {item // item ∈ items} =>
        TransGen before first.1 second.1 :=
      ⟨fun item cycle => acyclic item.1 cycle⟩
    have finite : Finite {item // item ∈ items} := finite_toSet items
    exact Finite.wellFounded_of_trans_of_irrefl _
  obtain ⟨item, isChosen⟩ := some
  obtain ⟨last, lastChosen, least⟩ := founded.has_min
    {found : {item // item ∈ items} | chosen found.1} ⟨⟨item, listed item isChosen⟩, isChosen⟩
  refine ⟨last.1, lastChosen, fun other precedes otherChosen => ?_⟩
  exact least ⟨other, listed other otherChosen⟩ otherChosen (.single precedes)

section

variable {β : Type} {before : α → α → Prop} {placed : β → β → Prop} {place : α → β}

theorem transGen_image (outward : ∀ item reached, placed (place item) reached →
      ∃ other, place other = reached ∧ before item other)
    {item : α} {reached : β} (path : TransGen placed (place item) reached) :
    ∃ other, place other = reached ∧ TransGen before item other := by
  induction path with
  | single step =>
    obtain ⟨other, isPlaced, precedes⟩ := outward _ _ step
    exact ⟨other, isPlaced, .single precedes⟩
  | tail _ step ih =>
    obtain ⟨middle, rfl, earlier⟩ := ih
    obtain ⟨other, isPlaced, precedes⟩ := outward _ _ step
    exact ⟨other, isPlaced, earlier.tail precedes⟩

theorem acyclic_image_iff (injective : Function.Injective place) (edges : ∀ item reached, placed (place item) reached ↔
      ∃ other, place other = reached ∧ before item other) :
    (∀ item, ¬ TransGen placed (place item) (place item)) ↔ Acyclic before := by
  constructor
  · intro none item cycle
    refine none item (TransGen.lift place ?_ item item cycle)
    intro first second precedes
    exact (edges first (place second)).mpr ⟨second, rfl, precedes⟩
  · intro acyclic item cycle
    obtain ⟨other, same, path⟩ := transGen_image (fun item reached => (edges item reached).mp) cycle
    rw [injective same] at path
    exact acyclic item path

end

section

variable {older newer : α → α → Prop}

theorem Acyclic.mono (acyclic : Acyclic newer)
    (within : ∀ item other, older item other → newer item other) : Acyclic older := by
  intro item cycle
  exact acyclic item (TransGen.mono within item item cycle)

theorem acyclic_insert_iff {source target : α} :
    Acyclic (fun item other => older item other ∨ (item = source ∧ other = target)) ↔
      Acyclic older ∧ ¬ ReflTransGen older target source := by
  constructor
  · intro acyclic
    refine ⟨acyclic.mono fun _ _ => Or.inl, fun back => ?_⟩
    have there : ReflTransGen (fun item other => older item other ∨ (item = source ∧ other = target)) target source :=
      ReflTransGen.mono (fun _ _ => Or.inl) target source back
    exact acyclic source (TransGen.head' (Or.inr ⟨rfl, rfl⟩) there)
  · intro ⟨acyclic, noWayBack⟩ item cycle
    have through : ∀ {first last : α}, TransGen
        (fun item other => older item other ∨ (item = source ∧ other = target)) first last →
          TransGen older first last ∨
            (ReflTransGen older first source ∧ ReflTransGen older target last) := by
      intro first last path
      induction path with
      | single step =>
        cases step with
        | inl old => exact Or.inl (.single old)
        | inr new => exact Or.inr ⟨new.1 ▸ .refl, new.2 ▸ .refl⟩
      | tail _ step ih =>
        cases step with
        | inl old => exact ih.imp (·.tail old) fun both => ⟨both.1, both.2.tail old⟩
        | inr new =>
          refine Or.inr ⟨?_, new.2 ▸ .refl⟩
          cases ih with
          | inl way => exact new.1 ▸ way.to_reflTransGen
          | inr both => exact both.1
    cases through cycle with
    | inl old => exact acyclic item old
    | inr both => exact noWayBack (both.2.trans both.1)

theorem acyclic_or_iff {known : α → Prop} (inside : ∀ item other, older item other → known item ∧ known other)
    (outside : ∀ item other, newer item other → ¬ known item) :
    Acyclic (fun item other => older item other ∨ newer item other) ↔ Acyclic older ∧ Acyclic newer := by
  constructor
  · intro acyclic
    exact ⟨acyclic.mono fun _ _ => Or.inl, acyclic.mono fun _ _ => Or.inr⟩
  · intro ⟨acyclicOlder, acyclicNewer⟩ item cycle
    have stays : ∀ {first last : α}, TransGen
        (fun item other => older item other ∨ newer item other) first last →
          (known first → known last ∧ TransGen older first last) ∧
            (¬ known last → ¬ known first ∧ TransGen newer first last) := by
      intro first last path
      induction path with
      | single step =>
        cases step with
        | inl old =>
          obtain ⟨isFirst, isLast⟩ := inside _ _ old
          exact ⟨fun _ => ⟨isLast, .single old⟩, fun unknown => absurd isLast unknown⟩
        | inr new =>
          have unknown := outside _ _ new
          exact ⟨fun isFirst => absurd isFirst unknown, fun _ => ⟨unknown, .single new⟩⟩
      | tail _ step ih =>
        cases step with
        | inl old =>
          obtain ⟨_, isLast⟩ := inside _ _ old
          refine ⟨fun isFirst => ⟨isLast, (ih.1 isFirst).2.tail old⟩, fun unknown => ?_⟩
          exact absurd isLast unknown
        | inr new =>
          have unknown := outside _ _ new
          refine ⟨fun isFirst => absurd (ih.1 isFirst).1 unknown, fun _ => ?_⟩
          exact ⟨(ih.2 unknown).1, (ih.2 unknown).2.tail new⟩
    by_cases isKnown : known item
    · exact acyclicOlder item ((stays cycle).1 isKnown).2
    · exact acyclicNewer item ((stays cycle).2 isKnown).2

end

section

variable {β : Type} {before : α → α → Prop} {placed : β → β → Prop} {stands : α → β → Prop}

theorem acyclic_of_placed (single : ∀ item other place, stands item place → stands other place → item = other)
    (outward : ∀ first second, placed first second →
      ∃ item other, stands item first ∧ stands other second ∧ before item other)
    (acyclic : Acyclic before) : Acyclic placed := by
  have path : ∀ {first last : β}, TransGen placed first last →
      ∃ item other, stands item first ∧ stands other last ∧ TransGen before item other := by
    intro first last way
    induction way with
    | single step =>
      obtain ⟨item, other, isFirst, isLast, precedes⟩ := outward _ _ step
      exact ⟨item, other, isFirst, isLast, .single precedes⟩
    | tail _ step ih =>
      obtain ⟨item, other, isFirst, isMiddle, earlier⟩ := ih
      obtain ⟨same, last, atMiddle, isLast, precedes⟩ := outward _ _ step
      rw [single same other _ atMiddle isMiddle] at precedes
      exact ⟨item, last, isFirst, isLast, earlier.tail precedes⟩
  intro place cycle
  obtain ⟨item, other, isItem, isOther, way⟩ := path cycle
  rw [single other item place isOther isItem] at way
  exact acyclic item way

theorem acyclic_placed_iff (single : ∀ item other place, stands item place → stands other place → item = other)
    (once : ∀ item first second, stands item first → stands item second → first = second)
    (edges : ∀ first second, placed first second ↔
      ∃ item other, stands item first ∧ stands other second ∧ before item other)
    (stand : ∀ item other, before item other → (∃ place, stands item place) ∧ ∃ place, stands other place) :
    Acyclic placed ↔ Acyclic before := by
  constructor
  · intro acyclic
    refine @acyclic_of_placed β α _ _ (fun place item => stands item place) ?_ ?_ acyclic
    · intro first second item isFirst isSecond
      exact once item first second isFirst isSecond
    · intro item other precedes
      obtain ⟨⟨first, isFirst⟩, second, isSecond⟩ := stand item other precedes
      exact ⟨first, second, isFirst, isSecond, (edges first second).mpr ⟨item, other, isFirst, isSecond, precedes⟩⟩
  · exact acyclic_of_placed single fun first second => (edges first second).mp

end

end EveHorizon.Precedence
