import EveHorizon.Library.Text

/-!
# Regular expressions

The part of the regular expressions of JavaScript in which globs are written: characters,
escaped characters, the dot, a class that leaves one character out, and the star.
-/

namespace EveHorizon.RegExp

open List

inductive Atom where
  | char (value : Char)
  | dot
  | except (value : Char)

inductive Item where
  | one (atom : Atom)
  | many (atom : Atom)

def isSyntax (char : Char) : Bool :=
  ['^', '$', '\\', '.', '*', '+', '?', '(', ')', '[', ']', '\x7b', '\x7d', '|'].contains char

def isLineTerminator (char : Char) : Bool := [0x0A, 0x0D, 0x2028, 0x2029].contains char.toNat

def Atom.accepts : Atom → Char → Bool
  | .char value, found => found == value
  | .dot, found => !isLineTerminator found
  | .except value, found => found != value

def acceptsMany (atom : Atom) (cont : Text → Bool) : Text → Bool
  | [] => cont []
  | found :: rest =>
    cont (found :: rest) ||
      (atom.accepts found && acceptsMany atom cont rest)

def accepts : List Item → Text → Bool
  | [], text => text.isEmpty
  | .one _ :: _, [] => false
  | .one atom :: items, found :: rest => atom.accepts found && accepts items rest
  | .many atom :: items, text => acceptsMany atom (accepts items) text

variable {rest : Text} {cont : Text → Bool}

theorem acceptsMany_append {atom : Atom} (leading : Text) (repeated : ∀ found ∈ leading, atom.accepts found = true)
    (accepted : cont rest = true) : acceptsMany atom cont (leading ++ rest) = true := by
  induction leading with
  | nil =>
    cases rest with
    | nil => exact accepted
    | cons found rest => simp [acceptsMany, accepted]
  | cons found leading ih =>
    have tail := ih fun found member => repeated found (mem_cons_of_mem _ member)
    simp [acceptsMany, repeated found mem_cons_self, tail]

theorem acceptsMany_iff {atom : Atom} {text : Text} :
    acceptsMany atom cont text = true ↔ ∃ leading rest, text = leading ++ rest ∧
      (∀ found ∈ leading, atom.accepts found = true) ∧ cont rest = true := by
  constructor
  · intro accepted
    induction text with
    | nil => exact ⟨[], [], rfl, by simp, accepted⟩
    | cons found rest ih =>
      rw [acceptsMany, Bool.or_eq_true, Bool.and_eq_true] at accepted
      rcases accepted with here | ⟨one, later⟩
      · exact ⟨[], found :: rest, rfl, by simp, here⟩
      · obtain ⟨leading, rest, rfl, repeated, ending⟩ := ih later
        exact ⟨found :: leading, rest, rfl, forall_mem_cons.mpr ⟨one, repeated⟩, ending⟩
  · rintro ⟨leading, rest, rfl, repeated, ending⟩
    exact acceptsMany_append leading repeated ending

variable {items : List Item}

theorem accepts_one_cons {value : Char} (accepted : accepts items rest = true) :
    accepts (.one (.char value) :: items) (value :: rest) = true := by
  simp [accepts, Atom.accepts, accepted]

def escape (text : Text) : Text :=
  text.flatMap fun char => if isSyntax char then ['\\', char] else [char]

def Atom.render : Atom → Text
  | .char value => escape [value]
  | .dot => ['.']
  | .except value => ['[', '^', value, ']']

def Item.render : Item → Text
  | .one atom => atom.render
  | .many atom => atom.render ++ ['*']

def render (items : List Item) : Text := items.flatMap Item.render

def readAtom : Text → Option (Atom × Text)
  | '\\' :: char :: rest =>
    if isSyntax char then some (.char char, rest) else none
  | '.' :: rest => some (.dot, rest)
  | '[' :: '^' :: value :: ']' :: rest =>
    if value = ']' ∨ value = '\\' then none else some (.except value, rest)
  | char :: rest => if isSyntax char then none else some (.char char, rest)
  | [] => none

def readItem (text : Text) : Option (Item × Text) :=
  match readAtom text with
  | some (atom, '*' :: rest) => some (.many atom, rest)
  | some (atom, rest) => some (.one atom, rest)
  | none => none

def readItems : Nat → Text → Option (List Item)
  | _, [] => some []
  | 0, _ :: _ => none
  | fuel + 1, text => do
    let (item, rest) ← readItem text
    let items ← readItems fuel rest
    pure (item :: items)

def read (source : Text) : Option (List Item) := readItems source.length source

def test (source text : Text) : Bool :=
  match read source with
  | some items => accepts items text
  | none => false

def Atom.Renderable : Atom → Prop
  | .char _ => True
  | .dot => True
  | .except value => value ≠ ']' ∧ value ≠ '\\'

def Item.atom : Item → Atom
  | .one atom => atom
  | .many atom => atom

theorem readAtom_render {atom : Atom} (renderable : atom.Renderable) (rest : Text) :
    readAtom (atom.render ++ rest) = some (atom, rest) := by
  cases atom with
  | char value =>
    by_cases special : isSyntax value = true
    · simp [Atom.render, escape, special, readAtom]
    · have plain : value ≠ '\\' ∧ value ≠ '.' ∧ value ≠ '[' := by
        refine ⟨?_, ?_, ?_⟩ <;> (rintro rfl; exact special (by decide))
      simp only [Atom.render, escape, flatMap_cons, flatMap_nil, append_nil, if_neg special, cons_append, nil_append]
      unfold readAtom
      split <;> simp_all
  | dot => rfl
  | except value => simp [Atom.render, readAtom, renderable.1, renderable.2]

theorem Atom.head?_render (atom : Atom) : ∃ first, atom.render.head? = some first ∧ first ≠ '*' := by
  cases atom with
  | char value =>
    by_cases special : isSyntax value = true
    · exact ⟨'\\', by simp [Atom.render, escape, special], by decide⟩
    · refine ⟨value, by simp [Atom.render, escape, special], ?_⟩
      rintro rfl
      exact special (by decide)
  | dot => exact ⟨'.', rfl, by decide⟩
  | except value => exact ⟨'[', rfl, by decide⟩

theorem Item.head?_render (item : Item) : ∃ first, item.render.head? = some first ∧ first ≠ '*' := by
  obtain ⟨first, found, unstarred⟩ := item.atom.head?_render
  refine ⟨first, ?_, unstarred⟩
  cases item with
  | one atom => exact found
  | many atom =>
    have nonempty : atom.render ≠ [] := by
      intro empty
      simp [Item.atom, empty] at found
    rw [Item.render, head?_append_of_ne_nil _ nonempty]
    exact found

theorem render_ne_star (items : List Item) (rest : Text) : render items ≠ '*' :: rest := by
  intro starred
  cases items with
  | nil => simp [render] at starred
  | cons item items =>
    obtain ⟨first, found, unstarred⟩ := item.head?_render
    have nonempty : item.render ≠ [] := by
      intro empty
      simp [empty] at found
    have heads := congrArg List.head? starred
    rw [render, flatMap_cons, head?_append_of_ne_nil _ nonempty, found] at heads
    exact unstarred (Option.some.inj heads)

theorem readItem_render {item : Item} (renderable : item.atom.Renderable) (unstarred : ∀ tail, rest ≠ '*' :: tail) :
    readItem (item.render ++ rest) = some (item, rest) := by
  cases item with
  | one atom =>
    have found := readAtom_render (show atom.Renderable from renderable) rest
    rw [readItem, Item.render, found]
    split
    · next starred =>
        obtain ⟨rfl, rfl⟩ := Prod.mk.inj (Option.some.inj starred)
        exact absurd rfl (unstarred _)
    · next read =>
        obtain ⟨rfl, rfl⟩ := Prod.mk.inj (Option.some.inj read)
        rfl
    · next missing => cases missing
  | many atom =>
    have found := readAtom_render (show atom.Renderable from renderable) ('*' :: rest)
    rw [readItem, Item.render, append_assoc, singleton_append, found]
    rfl

theorem readItems_render {fuel : Nat} (renderable : ∀ item ∈ items, item.atom.Renderable)
    (enough : items.length ≤ fuel) : readItems fuel (render items) = some items := by
  induction items generalizing fuel with
  | nil => cases fuel <;> rfl
  | cons item items ih =>
    cases fuel with
    | zero => simp at enough
    | succ fuel =>
      have tail := ih (fun item member => renderable item (mem_cons_of_mem _ member))
        (Nat.le_of_succ_le_succ enough)
      have head := readItem_render (renderable item mem_cons_self) (render_ne_star items)
      have shape : render (item :: items) = item.render ++ render items := rfl
      rw [readItems, shape, head]
      · simp [tail]
      · intro empty
        rw [shape] at empty
        obtain ⟨first, found, _⟩ := item.head?_render
        simp [(append_eq_nil_iff.mp empty).1] at found

theorem length_le_render (items : List Item) : items.length ≤ (render items).length := by
  induction items with
  | nil => exact Nat.le_refl _
  | cons item items ih =>
    obtain ⟨first, found, _⟩ := item.head?_render
    have nonempty : item.render ≠ [] := by
      intro empty
      simp [empty] at found
    have positive := length_pos_of_ne_nil nonempty
    have shape : render (item :: items) = item.render ++ render items := rfl
    rw [shape, length_append, length_cons]
    omega

theorem read_render (renderable : ∀ item ∈ items, item.atom.Renderable) : read (render items) = some items :=
  readItems_render renderable (length_le_render items)

theorem test_render (renderable : ∀ item ∈ items, item.atom.Renderable) (text : Text) :
    test (render items) text = accepts items text := by
  simp [test, read_render renderable]

end EveHorizon.RegExp
