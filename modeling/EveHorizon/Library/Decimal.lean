import Mathlib.Data.List.TakeWhile
import Mathlib.Tactic.Linarith
import Mathlib.Tactic.Positivity

/-!
# Decimal text

The value of a text that an SQL cast to `NUMERIC` accepts: blanks, a sign, digits
with an optional fraction and exponent, blanks. The special values `NaN` and
`Infinity` are not decimals and have no value here.
-/

namespace EveHorizon.Decimal

def isBlank (char : Char) : Bool :=
  char == ' ' || char == '\t' || char == '\n' || char == '\r'

def natOfDigits (digits : List Char) : Nat :=
  digits.foldl (fun value digit => 10 * value + (digit.toNat - '0'.toNat)) 0

def exponent : List Char → Option (Int × List Char)
  | 'e' :: '-' :: rest | 'E' :: '-' :: rest => signed (-1) rest
  | 'e' :: '+' :: rest | 'E' :: '+' :: rest => signed 1 rest
  | 'e' :: rest | 'E' :: rest => signed 1 rest
  | rest => some (0, rest)
where
  signed (sign : Int) (text : List Char) : Option (Int × List Char) :=
    match text.takeWhile Char.isDigit with
    | [] => none
    | digits => some (sign * natOfDigits digits, text.dropWhile Char.isDigit)

def fraction : List Char → List Char × List Char
  | '.' :: rest => (rest.takeWhile Char.isDigit, rest.dropWhile Char.isDigit)
  | rest => ([], rest)

def unsigned (text : List Char) : Option ℚ :=
  let whole := text.takeWhile Char.isDigit
  let (part, rest) := fraction (text.dropWhile Char.isDigit)
  if whole.isEmpty && part.isEmpty then none
  else
    match exponent rest with
    | none => none
    | some (power, rest) =>
      if rest.all isBlank then
        some (natOfDigits (whole ++ part) * (10 : ℚ) ^ (power - part.length))
      else none

def signed : List Char → Option ℚ
  | '-' :: rest => (unsigned rest).map (- ·)
  | '+' :: rest => unsigned rest
  | rest => unsigned rest

variable (text : String)

def value : Option ℚ := signed (text.toList.dropWhile isBlank)

def radixLiteral (base : Nat) (digits : List Char) : Option ℚ :=
  if digits = [] then none
  else
    (digits.foldlM (fun (value : Nat) (digit : Char) =>
      let worth :=
        if digit.isDigit then some (digit.toNat - '0'.toNat)
        else if 'a' ≤ digit.toLower ∧ digit.toLower ≤ 'f' then
          some (digit.toLower.toNat - 'a'.toNat + 10)
        else none
      worth.bind fun worth => if worth < base then some (base * value + worth) else none)
      0).map fun value => (value : ℚ)

/-- The number that a literal without blanks around it stands for. -/
def literal : List Char → Option ℚ
  | '0' :: 'x' :: digits | '0' :: 'X' :: digits => radixLiteral 16 digits
  | '0' :: 'o' :: digits | '0' :: 'O' :: digits => radixLiteral 8 digits
  | '0' :: 'b' :: digits | '0' :: 'B' :: digits => radixLiteral 2 digits
  | decimal => signed decimal

def leadingUnsigned (text : List Char) : Option ℚ :=
  let whole := text.takeWhile Char.isDigit
  let (part, rest) := fraction (text.dropWhile Char.isDigit)
  if whole.isEmpty && part.isEmpty then none
  else
    let power := ((exponent rest).map Prod.fst).getD 0
    some (natOfDigits (whole ++ part) * (10 : ℚ) ^ (power - part.length))

def parseFloat : Option ℚ :=
  match text.toList.dropWhile isBlank with
  | '-' :: rest => (leadingUnsigned rest).map (- ·)
  | '+' :: rest => leadingUnsigned rest
  | rest => leadingUnsigned rest

def parseInt : Option Int :=
  match text.toList.dropWhile isBlank with
  | '-' :: rest => (digits rest).map fun magnitude => -(magnitude : Int)
  | '+' :: rest => (digits rest).map Int.ofNat
  | rest => (digits rest).map Int.ofNat
where
  digits (text : List Char) : Option Nat :=
    match text.takeWhile Char.isDigit with
    | [] => none
    | digits => some (natOfDigits digits)

/-- The number that `toFixed` writes: rounded to the given digits, a tie upwards. -/
def toFixed (digits : Nat) (number : ℚ) : ℚ := (number * 10 ^ digits + 1 / 2).floor / 10 ^ digits

variable {number : ℚ}

theorem toFixed_nonneg (digits : Nat) (nonneg : 0 ≤ number) : 0 ≤ toFixed digits number := by
  have scaled : 0 ≤ number * 10 ^ digits := mul_nonneg nonneg (by positivity)
  have floor : (0 : Int) ≤ (number * 10 ^ digits + 1 / 2).floor := by
    rw [Rat.le_floor_iff]
    push_cast
    linarith
  exact div_nonneg (by exact_mod_cast floor) (by positivity)

theorem toFixed_eq_self {digits : Nat} {units : Int} (whole : number * 10 ^ digits = units) :
    toFixed digits number = number := by
  have floor : ((units : ℚ) + 1 / 2).floor = units := by
    apply le_antisymm
    · have below : ((units : ℚ) + 1 / 2).floor < units + 1 := by
        rw [Rat.floor_lt_iff]
        push_cast
        linarith
      omega
    · rw [Rat.le_floor_iff]
      linarith
  have positive : (10 : ℚ) ^ digits ≠ 0 := by positivity
  rw [toFixed, whole, floor, ← whole, mul_div_assoc, div_self positive, mul_one]

theorem unsigned_head {text : List Char} (accepted : unsigned text = some number) :
    ∃ first rest, text = first :: rest ∧ (first.isDigit = true ∨ first = '.') := by
  cases text with
  | nil => simp [unsigned, fraction] at accepted
  | cons first rest =>
    refine ⟨first, rest, rfl, ?_⟩
    by_contra other
    obtain ⟨noDigit, noPoint⟩ := not_or.mp other
    rw [Bool.not_eq_true] at noDigit
    have noFraction : fraction (first :: rest) = ([], first :: rest) := by
      unfold fraction
      split
      · next same =>
        cases same
        exact absurd rfl noPoint
      · rfl
    simp [unsigned, noDigit, noFraction] at accepted

theorem signed_of_unsigned {text : List Char} (accepted : unsigned text = some number) :
    signed (text.dropWhile isBlank) = some number := by
  obtain ⟨first, rest, rfl, start⟩ := unsigned_head accepted
  have visible : isBlank first = false := by
    rcases start with digit | rfl
    · cases blank : isBlank first with
      | false => rfl
      | true =>
        simp only [isBlank, Bool.or_eq_true, beq_iff_eq] at blank
        rcases blank with ((rfl | rfl) | rfl) | rfl <;> cases digit
    · rfl
  rw [List.dropWhile_cons_of_neg (by simp [visible])]
  unfold signed
  split
  · next same =>
    cases same
    rcases start with digit | point
    · cases digit
    · cases point
  · next same =>
    cases same
    rcases start with digit | point
    · cases digit
    · cases point
  · exact accepted

theorem value_of_negated {text : String} (accepted : value ("-" ++ text) = some number) :
    value text = some (-number) := by
  have split : ("-" ++ text).toList.dropWhile isBlank = '-' :: text.toList := by
    rw [String.toList_append]
    exact List.dropWhile_cons_of_neg (by decide)
  rw [value, split] at accepted
  obtain ⟨magnitude, isMagnitude, rfl⟩ := Option.map_eq_some_iff.mp accepted
  rw [neg_neg]
  exact signed_of_unsigned isMagnitude

end EveHorizon.Decimal
