import Mathlib.Data.List.DropRight
import Mathlib.Data.List.Dedup
import Mathlib.Data.List.Sort
import Mathlib.Data.List.Lex
import Mathlib.Algebra.Order.Ring.Int
import Mathlib.Data.Char

/-!
# Texts

Texts as lists of characters, with the operations on strings that the program takes from
its language: trimming, prefixes and suffixes, collapsing and dropping runs of a
character, the length in UTF-16 units, and sorted lists without repetitions.
-/

namespace EveHorizon

open List

abbrev Text := List Char

namespace Text

/-- The characters that `trim` removes. -/
def isSpace (char : Char) : Bool :=
  [0x09, 0x0A, 0x0B, 0x0C, 0x0D, 0x20, 0xA0, 0x1680, 0x2028, 0x2029, 0x202F, 0x205F, 0x3000,
    0xFEFF].contains char.toNat ||
  (0x2000 ≤ char.toNat && char.toNat ≤ 0x200A)

def trim (text : Text) : Text := (text.dropWhile isSpace).rdropWhile isSpace

def startsWith (leading text : Text) : Bool := leading.isPrefixOf text

def endsWith (trailing text : Text) : Bool := trailing.isSuffixOf text

def stripSuffix (trailing text : Text) : Text :=
  if endsWith trailing text then text.take (text.length - trailing.length) else text

def squeeze (char : Char) (text : Text) : Text :=
  text.foldr
    (fun head rest => if head = char ∧ rest.head? = some char then rest else head :: rest)
    []

def unitLength (text : Text) : Nat :=
  (text.map fun char => if char.toNat < 0x10000 then 1 else 2).sum

def units (text : Text) : List Nat :=
  text.flatMap fun char =>
    if char.toNat < 0x10000 then
      [char.toNat]
    else
      [0xD800 + (char.toNat - 0x10000) / 0x400, 0xDC00 + (char.toNat - 0x10000) % 0x400]

def sortedSet (texts : List Text) : List Text :=
  texts.dedup.insertionSort fun left right => units left ≤ units right

variable {text : Text}

@[simp] theorem mem_sortedSet {texts : List Text} : text ∈ sortedSet texts ↔ text ∈ texts := by
  simp [sortedSet]

theorem trim_eq_self (first : ∀ char, text.head? = some char → isSpace char = false)
    (last : ∀ char, text.getLast? = some char → isSpace char = false) : trim text = text := by
  have kept : text.dropWhile isSpace = text := by
    cases text with
    | nil => rfl
    | cons char rest => simp [first char rfl]
  unfold trim
  rw [kept, rdropWhile_eq_self_iff]
  intro nonempty
  have ending := last (text.getLast nonempty) (getLast?_eq_getLast_of_ne_nil nonempty)
  simp [ending]

section

variable {dropped : Char → Bool} {text : Text} {char : Char}

theorem getLast?_rdropWhile (last : (text.rdropWhile dropped).getLast? = some char) :
    dropped char = false := by
  have nonempty : text.rdropWhile dropped ≠ [] := by
    intro empty
    simp [empty] at last
  have ending := rdropWhile_last_not dropped text nonempty
  rw [getLast?_eq_getLast_of_ne_nil nonempty, Option.some.injEq] at last
  rw [last] at ending
  simpa using ending

theorem head?_rdropWhile (first : text.head? = some char) (kept : dropped char = false) :
    (text.rdropWhile dropped).head? = some char := by
  obtain ⟨rest, rfl⟩ := head?_eq_some_iff.mp first
  have nonempty : (char :: rest).rdropWhile dropped ≠ [] := by
    rw [Ne, rdropWhile_eq_nil_iff]
    exact fun all => by simp [kept] at all
  obtain ⟨trailing, whole⟩ := rdropWhile_prefix dropped (char :: rest)
  rw [← head?_append_of_ne_nil _ nonempty, whole]
  rfl

theorem head?_trimmed (first : ((text.dropWhile dropped).rdropWhile dropped).head? = some char) :
    dropped char = false := by
  obtain ⟨trailing, whole⟩ := rdropWhile_prefix dropped (text.dropWhile dropped)
  have kept := head?_dropWhile_not dropped text
  rw [← whole, head?_append, first] at kept
  exact kept

end

theorem getLast?_trim {text : Text} {char : Char}
    (last : (trim text).getLast? = some char) : isSpace char = false :=
  getLast?_rdropWhile last

theorem trim_map (change : Char → Char)
    (kept : ∀ char, isSpace (change char) = isSpace char) (text : Text) :
    trim (text.map change) = (trim text).map change := by
  have same : isSpace ∘ change = isSpace := funext kept
  simp only [trim, List.rdropWhile, dropWhile_map, ← map_reverse, same]

theorem trim_sublist (text : Text) : (trim text).Sublist text :=
  (List.rdropWhile_prefix isSpace _).sublist.trans (dropWhile_sublist _)

section

variable {mark : Char}

theorem squeeze_cons (head : Char) (text : Text) :
    squeeze mark (head :: text) = if head = mark ∧ (squeeze mark text).head? = some mark then squeeze mark text
      else head :: squeeze mark text :=
  rfl

theorem squeeze_sublist (text : Text) : (squeeze mark text).Sublist text := by
  induction text with
  | nil => exact List.Sublist.slnil
  | cons head rest ih =>
    rw [squeeze_cons]
    split
    · exact ih.cons head
    · exact ih.cons_cons head

theorem head?_squeeze (text : Text) : (squeeze mark text).head? = text.head? := by
  cases text with
  | nil => rfl
  | cons head rest =>
    rw [squeeze_cons]
    split
    · next run => simp [run.1, run.2]
    · rfl

theorem getLast?_squeeze (text : Text) : (squeeze mark text).getLast? = text.getLast? := by
  induction text with
  | nil => rfl
  | cons head rest ih =>
    rw [squeeze_cons]
    cases rest with
    | nil => simp [squeeze]
    | cons next rest =>
      have nonempty : squeeze mark (next :: rest) ≠ [] := by
        intro empty
        have first := @head?_squeeze mark (next :: rest)
        simp [empty] at first
      split
      · rw [ih, getLast?_cons_cons]
      · rw [getLast?_cons_of_ne_nil nonempty, ih, getLast?_cons_cons]

theorem squeeze_squeeze (text : Text) : squeeze mark (squeeze mark text) = squeeze mark text := by
  induction text with
  | nil => rfl
  | cons head rest ih =>
    rw [squeeze_cons]
    split
    · exact ih
    · next single => rw [squeeze_cons, ih, if_neg single]

theorem squeeze_map (change : Char → Char)
    (kept : ∀ char, change char = mark ↔ char = mark) (text : Text) :
    squeeze mark (text.map change) = (squeeze mark text).map change := by
  induction text with
  | nil => rfl
  | cons head rest ih =>
    rw [map_cons, squeeze_cons, squeeze_cons, ih]
    have first : ((squeeze mark rest).map change).head? = some mark ↔ (squeeze mark rest).head? = some mark := by
      cases squeeze mark rest with
      | nil => simp
      | cons next _ => simp [kept next]
    simp only [kept head, first]
    split <;> rfl

theorem squeeze_append {leading : Text} (ending : leading.getLast? ≠ some mark) (rest : Text) :
    squeeze mark (leading ++ rest) = squeeze mark leading ++ squeeze mark rest := by
  induction leading with
  | nil => rfl
  | cons head leading ih =>
    cases leading with
    | nil =>
      have plain : head ≠ mark := by
        rintro rfl
        exact ending rfl
      simp [squeeze, plain]
    | cons next leading =>
      rw [getLast?_cons_cons] at ending
      have first : (squeeze mark (next :: leading) ++ squeeze mark rest).head? =
          (squeeze mark (next :: leading)).head? := by
        have found := @head?_squeeze mark (next :: leading)
        cases kept : squeeze mark (next :: leading) with
        | nil => simp [kept] at found
        | cons _ _ => rfl
      rw [cons_append, squeeze_cons, ih ending, first, squeeze_cons head (next :: leading)]
      split <;> rfl

end

theorem separator_not_mem_part {separator : Char} {text part : Text}
    (member : part ∈ text.splitOn separator) : separator ∉ part := by
  induction text generalizing part with
  | nil =>
    simp only [splitOn_nil, mem_singleton] at member
    simp [member]
  | cons char text ih =>
    rw [splitOn_cons_eq_if_modifyHead] at member
    split at member
    · rcases mem_cons.mp member with rfl | later
      · exact not_mem_nil
      · exact ih later
    · next other =>
        cases parts : text.splitOn separator with
        | nil => exact absurd parts (splitOn_ne_nil _ _)
        | cons first rest =>
          rw [parts, modifyHead_cons] at member
          rcases mem_cons.mp member with rfl | later
          · intro found
            rcases mem_cons.mp found with same | inside
            · exact other (by simp [← same])
            · exact ih (parts ▸ mem_cons_self) inside
          · exact ih (parts ▸ mem_cons_of_mem _ later)

theorem stripSuffix_append (trailing text : Text) :
    ∃ ending, text = stripSuffix trailing text ++ ending ∧ (ending = [] ∨ ending = trailing) := by
  unfold stripSuffix
  split
  · next ends =>
      obtain ⟨leading, rfl⟩ := isSuffixOf_iff_suffix.mp ends
      exact ⟨trailing, by simp, .inr rfl⟩
  · exact ⟨[], by simp, .inl rfl⟩

def StartsWithOrEmpty (char : Char) (text : Text) : Prop := text = [] ∨ text.head? = some char

theorem StartsWithOrEmpty.append {char : Char} {left right : Text}
    (first : StartsWithOrEmpty char left) (second : StartsWithOrEmpty char right) :
    StartsWithOrEmpty char (left ++ right) := by
  rcases first with rfl | starts
  · exact second
  · obtain ⟨rest, rfl⟩ := head?_eq_some_iff.mp starts
    exact .inr rfl

theorem rdropWhile_append (char : Char) (text : Text) :
    ∃ ending, text = text.rdropWhile (· == char) ++ ending ∧ StartsWithOrEmpty char ending := by
  refine ⟨text.rtakeWhile (· == char), by rw [rdropWhile_append_rtakeWhile], ?_⟩
  cases found : text.rtakeWhile (· == char) with
  | nil => exact .inl rfl
  | cons head rest =>
    have same := mem_rtakeWhile_imp (found ▸ mem_cons_self : head ∈ text.rtakeWhile (· == char))
    rw [beq_iff_eq] at same
    exact .inr (by rw [same]; rfl)

end Text

end EveHorizon
