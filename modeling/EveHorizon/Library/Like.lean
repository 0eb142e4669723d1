import EveHorizon.Library.Text
import Mathlib.Data.List.Infix

/-!
# Patterns of `LIKE`

A percent sign stands for any text, an underscore for any character, and a backslash takes the
character behind it as it is.
-/

namespace EveHorizon.Like

open List

def like : Text → Text → Bool
  | [], text => text.isEmpty
  | '%' :: pattern, text => text.tails.any (like pattern)
  | '_' :: pattern, text => !text.isEmpty && like pattern text.tail
  | '\\' :: [], _ => false
  | '\\' :: literal :: pattern, text => text.head? == some literal && like pattern text.tail
  | literal :: pattern, text => text.head? == some literal && like pattern text.tail

/-- A pattern in which `none` stands for any text and each character for itself. -/
abbrev Stars := List (Option Char)

namespace Stars

def accepts : Stars → Text → Bool
  | [], text => text.isEmpty
  | none :: stars, text => text.tails.any (accepts stars)
  | some literal :: stars, text => text.head? == some literal && accepts stars text.tail

variable (stars : Stars)

def render : Text := stars.map (·.getD '%')

def Plain : Prop := ∀ literal, some literal ∈ stars → literal ∉ ['%', '_', '\\']

theorem plain_cons {part : Option Char} {stars : Stars} :
    Plain (part :: stars) ↔ part ∉ [some '%', some '_', some '\\'] ∧ Plain stars := by
  cases part with
  | none => simp [Plain]
  | some literal => simp [Plain]

/-- A backslash weighs two, so that it outweighs the character that it makes a literal. -/
def weight : Option Char → Nat
  | some '\\' => 2
  | some '%' | some '_' => 1
  | _ => 0

def weigh : Nat := (stars.map weight).sum

theorem weigh_cons (part : Option Char) (stars : Stars) : weigh (part :: stars) = weight part + weigh stars :=
  sum_cons

variable {text : Text}

theorem any_tails {accepted : Text → Bool} (taken : accepted text = true) : text.tails.any accepted = true :=
  any_eq_true.mpr ⟨text, (mem_tails _ _).mpr suffix_rfl, taken⟩

theorem exists_accepted : ∀ stars, ∃ text, accepts stars text = true
  | [] => ⟨[], rfl⟩
  | none :: stars => (exists_accepted stars).imp fun _ => any_tails
  | some literal :: stars => by
    obtain ⟨text, accepted⟩ := exists_accepted stars
    exact ⟨literal :: text, by simp [accepts, accepted]⟩

theorem like_render {stars : Stars} (plain : Plain stars) (text : Text) :
    like (render stars) text = accepts stars text := by
  induction stars generalizing text with
  | nil => rfl
  | cons part stars ih =>
    obtain ⟨free, others⟩ := plain_cons.mp plain
    cases part with
    | none => exact congrArg text.tails.any (funext (ih others))
    | some literal =>
      simp only [mem_cons, not_mem_nil, or_false, not_or, Option.some.injEq] at free
      change like (literal :: render stars) text = _
      rw [like.eq_6 _ _ _ (by grind) (by grind) (by grind) (by grind), ih others]
      rfl

theorem weigh_le_of_accepts {stars : Stars} (accepted : accepts stars text = true) :
    weigh stars ≤ weigh (text.map some) := by
  induction stars generalizing text with
  | nil => exact Nat.zero_le _
  | cons part stars ih =>
    cases part with
    | none =>
      obtain ⟨tail, isTail, rest⟩ := any_eq_true.mp accepted
      obtain ⟨front, rfl⟩ := (mem_tails _ _).mp isTail
      have later := ih rest
      rw [weigh_cons, map_append, weigh, weigh, map_append, sum_append]
      exact Nat.le_add_left_of_le ((Nat.zero_add _).trans_le later)
    | some literal =>
      rw [accepts, Bool.and_eq_true, beq_iff_eq] at accepted
      obtain ⟨rest, rfl⟩ := head?_eq_some_iff.mp accepted.1
      rw [weigh_cons, map_cons, weigh_cons]
      exact Nat.add_le_add_left (ih accepted.2) _

/-- Among the texts that a pattern takes one is lighter than the pattern, unless its literals are plain. -/
theorem exists_light : ∀ {stars : Stars} {text : Text}, like (render stars) text = true →
    ∃ light, like (render stars) light = true ∧
      (weigh (light.map some) < weigh stars ∨ weigh (light.map some) = weigh stars ∧ Plain stars)
  | [], _, _ => ⟨[], rfl, .inr ⟨rfl, fun _ => nofun⟩⟩
  | none :: stars, text, taken => by
    obtain ⟨tail, _, taken⟩ := any_eq_true.mp (show text.tails.any (like (render stars)) = true from taken)
    obtain ⟨light, taken, lighter⟩ := exists_light taken
    refine ⟨light, any_tails taken, ?_⟩
    simpa [weigh_cons, weight, plain_cons] using lighter
  | some literal :: stars, text, taken => by
    by_cases percent : literal = '%'
    · subst percent
      obtain ⟨tail, _, taken⟩ := any_eq_true.mp (show text.tails.any (like (render stars)) = true from taken)
      obtain ⟨light, taken, lighter⟩ := exists_light taken
      refine ⟨light, any_tails taken, .inl ?_⟩
      simp only [weigh_cons, weight]
      omega
    · by_cases underscore : literal = '_'
      · subst underscore
        obtain ⟨_, taken⟩ := Bool.and_eq_true_iff.mp
          (show (!text.isEmpty && like (render stars) text.tail) = true from taken)
        obtain ⟨light, taken, lighter⟩ := exists_light taken
        refine ⟨'x' :: light, taken, .inl ?_⟩
        change 0 + weigh (light.map some) < 1 + weigh stars
        omega
      · by_cases backslash : literal = '\\'
        · subst backslash
          cases stars with
          | nil => cases taken
          | cons part stars =>
            obtain ⟨_, taken⟩ := Bool.and_eq_true_iff.mp
              (show (text.head? == some (part.getD '%') && like (render stars) text.tail) = true from taken)
            obtain ⟨light, taken, lighter⟩ := exists_light taken
            refine ⟨part.getD '%' :: light, ?_, .inl ?_⟩
            · change (some (part.getD '%') == some (part.getD '%') && like (render stars) light) = true
              rw [beq_self_eq_true, taken, Bool.and_self]
            · have outweighed : weight (some (part.getD '%')) < 2 + weight part := by
                cases part with
                | none => decide
                | some _ => exact Nat.lt_add_of_pos_left (by decide)
              change weight (some (part.getD '%')) + weigh (light.map some) < 2 + (weight part + weigh stars)
              omega
        · have taking (text : Text) : like (render (some literal :: stars)) text =
              (text.head? == some literal && like (render stars) text.tail) :=
            like.eq_6 _ _ _ percent underscore (by grind) (by grind)
          rw [taking, Bool.and_eq_true] at taken
          obtain ⟨light, found, lighter⟩ := exists_light taken.2
          refine ⟨literal :: light, ?_, ?_⟩
          · rw [taking]
            simp [found]
          · simpa [weigh_cons, plain_cons, percent, underscore, backslash] using lighter

/-- The texts that `like` takes for a pattern of stars are those the stars stand for exactly when none of
its literals means something to `like`. -/
theorem like_render_iff : (∀ text, like (render stars) text = accepts stars text) ↔ Plain stars := by
  refine ⟨fun agrees => ?_, like_render⟩
  obtain ⟨text, accepted⟩ := exists_accepted stars
  obtain ⟨light, taken, lighter | ⟨_, plain⟩⟩ := exists_light ((agrees text).trans accepted)
  · rw [agrees] at taken
    exact absurd (weigh_le_of_accepts taken) (Nat.not_le.mpr lighter)
  · exact plain

end Stars

/-- A text followed by a percent sign takes the texts that begin with it exactly when no character of it
means something to `like`. -/
theorem like_begins_iff (leading : Text) : (∀ text, like (leading ++ ['%']) text = Text.startsWith leading text) ↔
      ∀ literal ∈ leading, literal ∉ ['%', '_', '\\'] := by
  let stars : Stars := leading.map some ++ [none]
  have rendered : Stars.render stars = leading ++ ['%'] := by
    simp [Stars.render, stars]
  have begins (text : Text) : Stars.accepts stars text = Text.startsWith leading text := by
    unfold stars Text.startsWith
    clear rendered
    induction leading generalizing text with
    | nil => exact any_eq_true.mpr ⟨[], (mem_tails _ _).mpr nil_suffix, rfl⟩
    | cons head rest ih =>
      cases text with
      | nil => rfl
      | cons first text =>
        change (some first == some head && Stars.accepts (rest.map some ++ [none]) text) = _
        rw [ih text, List.isPrefixOf, Option.some_beq_some, Bool.beq_comm]
  have plain : Stars.Plain stars ↔ ∀ literal ∈ leading, literal ∉ ['%', '_', '\\'] := by
    simp [Stars.Plain, stars]
  rw [← plain, ← Stars.like_render_iff, rendered]
  simp only [begins]

end EveHorizon.Like
