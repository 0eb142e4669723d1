import Mathlib.Data.Char

/-!
# UTF-8 with replacement

Strings whose surrogates need not be paired, their encoding, in which an unpaired surrogate is
replaced, and the decoder that replaces what is no encoding.
-/

namespace EveHorizon.Utf8

open List

/-- A character, or a surrogate that is no half of a pair. -/
inductive CodePoint where
  | scalar (char : Char)
  | surrogate (unit : Fin 0x800)
  deriving DecidableEq

def replacement : Char := Char.ofNat 0xFFFD

def CodePoint.scalarValue : CodePoint → Char
  | .scalar char => char
  | .surrogate _ => replacement

abbrev CodePoints := List CodePoint

def ofText (text : List Char) : CodePoints := text.map .scalar

variable (points : CodePoints)

def toWellFormed : CodePoints := ofText (points.map CodePoint.scalarValue)

def tail (bits : Nat) : UInt8 := UInt8.ofNat (0x80 + bits % 0x40)

def encodeChar (char : Char) : List UInt8 :=
  let value := char.toNat
  if value < 0x80 then [UInt8.ofNat value]
  else if value < 0x800 then [UInt8.ofNat (0xC0 + value / 0x40), tail value]
  else if value < 0x10000 then [UInt8.ofNat (0xE0 + value / 0x1000), tail (value / 0x40), tail value]
  else
    [UInt8.ofNat (0xF0 + value / 0x40000), tail (value / 0x1000), tail (value / 0x40), tail value]

def encode : List UInt8 := points.flatMap fun point => encodeChar point.scalarValue

/-- A character of which some bytes have been read: how many are missing, between which bounds the
next one is, and the bits so far. -/
structure Partial where
  needed : Nat
  lower : Nat
  upper : Nat
  bits : Nat

inductive Start where
  | char (char : Char)
  | more (rest : Partial)
  | invalid

def start (byte : UInt8) : Start :=
  let value := byte.toNat
  if value < 0x80 then .char (Char.ofNat value)
  else if 0xC2 ≤ value ∧ value ≤ 0xDF then .more ⟨1, 0x80, 0xBF, value - 0xC0⟩
  else if 0xE0 ≤ value ∧ value ≤ 0xEF then
    .more ⟨2, if value = 0xE0 then 0xA0 else 0x80, if value = 0xED then 0x9F else 0xBF, value - 0xE0⟩
  else if 0xF0 ≤ value ∧ value ≤ 0xF4 then
    .more ⟨3, if value = 0xF0 then 0x90 else 0x80, if value = 0xF4 then 0x8F else 0xBF, value - 0xF0⟩
  else .invalid

/-- A byte that does not go on with the character that was begun begins another one. -/
def decodeFrom : Option Partial → List UInt8 → List Char
  | none, [] => []
  | some _, [] => [replacement]
  | none, byte :: rest =>
    match start byte with
    | .char char => char :: decodeFrom none rest
    | .more begun => decodeFrom (some begun) rest
    | .invalid => replacement :: decodeFrom none rest
  | some begun, byte :: rest =>
    if begun.lower ≤ byte.toNat ∧ byte.toNat ≤ begun.upper then
      let bits := 0x40 * begun.bits + (byte.toNat - 0x80)
      if begun.needed = 1 then Char.ofNat bits :: decodeFrom none rest
      else decodeFrom (some ⟨begun.needed - 1, 0x80, 0xBF, bits⟩) rest
    else
      replacement ::
        match start byte with
        | .char char => char :: decodeFrom none rest
        | .more begun => decodeFrom (some begun) rest
        | .invalid => replacement :: decodeFrom none rest

def decode (bytes : List UInt8) : CodePoints := ofText (decodeFrom none bytes)

theorem toNat_tail (bits : Nat) : (tail bits).toNat = 0x80 + bits % 0x40 := by
  rw [tail, UInt8.toNat_ofNat']
  omega

theorem toNat_byte {value : Nat} (small : value < 0x100) : (UInt8.ofNat value).toNat = value := by
  rw [UInt8.toNat_ofNat']
  omega

variable {rest : List UInt8}

theorem decodeFrom_start {byte : UInt8} {begun : Partial} (isStart : start byte = .more begun) :
    decodeFrom none (byte :: rest) = decodeFrom (some begun) rest := by
  rw [decodeFrom, isStart]

variable {bits lower upper : Nat}

theorem decodeFrom_more {needed : Nat} (above : lower ≤ 0x80 + bits % 0x40) (below : 0x80 + bits % 0x40 ≤ upper) :
    decodeFrom (some ⟨needed + 2, lower, upper, bits / 0x40⟩) (tail bits :: rest) =
      decodeFrom (some ⟨needed + 1, 0x80, 0xBF, bits⟩) rest := by
  have whole : 0x40 * (bits / 0x40) + (0x80 + bits % 0x40 - 0x80) = bits := by omega
  have others : ¬ needed + 2 = 1 := by omega
  rw [decodeFrom]
  dsimp only
  rw [toNat_tail, if_pos ⟨above, below⟩, if_neg others, whole]
  rfl

theorem decodeFrom_last (above : lower ≤ 0x80 + bits % 0x40) (below : 0x80 + bits % 0x40 ≤ upper) :
    decodeFrom (some ⟨1, lower, upper, bits / 0x40⟩) (tail bits :: rest) = Char.ofNat bits :: decodeFrom none rest := by
  have whole : 0x40 * (bits / 0x40) + (0x80 + bits % 0x40 - 0x80) = bits := by omega
  rw [decodeFrom]
  dsimp only
  rw [toNat_tail, if_pos ⟨above, below⟩, if_pos rfl, whole]

theorem start_two (above : 2 ≤ bits) (below : bits < 0x20) :
    start (UInt8.ofNat (0xC0 + bits)) = .more ⟨1, 0x80, 0xBF, bits⟩ := by
  unfold start
  rw [toNat_byte (by omega)]
  dsimp only
  rw [if_neg (by omega), if_pos (by omega), Nat.add_sub_cancel_left]

theorem start_three (below : bits < 0x10) :
    start (UInt8.ofNat (0xE0 + bits)) = .more ⟨2, if 0xE0 + bits = 0xE0 then 0xA0 else 0x80,
        if 0xE0 + bits = 0xED then 0x9F else 0xBF, bits⟩ := by
  unfold start
  rw [toNat_byte (by omega)]
  dsimp only
  rw [if_neg (by omega), if_neg (by omega), if_pos (by omega), Nat.add_sub_cancel_left]

theorem start_four (below : bits < 5) :
    start (UInt8.ofNat (0xF0 + bits)) = .more ⟨3, if 0xF0 + bits = 0xF0 then 0x90 else 0x80,
        if 0xF0 + bits = 0xF4 then 0x8F else 0xBF, bits⟩ := by
  unfold start
  rw [toNat_byte (by omega)]
  dsimp only
  rw [if_neg (by omega), if_neg (by omega), if_neg (by omega), if_pos (by omega), Nat.add_sub_cancel_left]

theorem decodeFrom_encodeChar (char : Char) (rest : List UInt8) :
    decodeFrom none (encodeChar char ++ rest) = char :: decodeFrom none rest := by
  have bounds : char.toNat < 0xD800 ∨ 0xDFFF < char.toNat ∧ char.toNat < 0x110000 := char.valid
  have same : Char.ofNat char.toNat = char := Char.ofNat_toNat char
  have deep : char.toNat / 0x1000 = char.toNat / 0x40 / 0x40 := by omega
  have deeper : char.toNat / 0x40000 = char.toNat / 0x1000 / 0x40 := by omega
  unfold encodeChar
  dsimp only
  split
  · next one =>
      have begun : start (UInt8.ofNat char.toNat) = .char char := by
        unfold start
        rw [toNat_byte (by omega)]
        dsimp only
        rw [if_pos one, same]
      rw [singleton_append, decodeFrom, begun]
  · split
    · next many two =>
        rw [cons_append, singleton_append, decodeFrom_start (start_two (by omega) (by omega)),
          decodeFrom_last (by omega) (by omega), same]
    · split
      · next _ many three =>
          -- The second byte leaves out shorter encodings, and surrogates.
          rw [cons_append, cons_append, singleton_append, decodeFrom_start (start_three (by omega)), deep,
            decodeFrom_more (by split <;> omega) (by split <;> omega),
            decodeFrom_last (by omega) (by omega), same]
      · next _ _ many =>
          rw [cons_append, cons_append, cons_append, singleton_append, decodeFrom_start (start_four (by omega)), deeper,
            decodeFrom_more (by split <;> omega) (by split <;> omega), deep,
            decodeFrom_more (by omega) (by omega), decodeFrom_last (by omega) (by omega), same]

theorem decode_encode : decode (encode points) = toWellFormed points := by
  have decoded : decodeFrom none (encode points) = points.map CodePoint.scalarValue := by
    induction points with
    | nil => rfl
    | cons point rest ih =>
      rw [encode, flatMap_cons, decodeFrom_encodeChar]
      exact congrArg _ ih
  rw [decode, decoded]
  rfl

theorem encodeChar_ne_nil (char : Char) : encodeChar char ≠ [] := by
  unfold encodeChar
  dsimp only
  split
  · exact cons_ne_nil _ _
  · split
    · exact cons_ne_nil _ _
    · split
      · exact cons_ne_nil _ _
      · exact cons_ne_nil _ _

theorem encode_eq_nil {points : CodePoints} : encode points = [] ↔ points = [] := by
  constructor
  · intro nothing
    cases points with
    | nil => rfl
    | cons point rest =>
      rw [encode, flatMap_cons, append_eq_nil_iff] at nothing
      exact absurd nothing.1 (encodeChar_ne_nil _)
  · rintro rfl
    rfl

end EveHorizon.Utf8
