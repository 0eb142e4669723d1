import Mathlib.Data.List.TakeWhile

/-!
# Base64

Three bytes are four digits of six bits, and what is left at the end is padded.
-/

namespace EveHorizon.Base64

open List

def alphabet : List Char := "ABCDEFGHIJKLMNOPQRSTUVWXYZabcdefghijklmnopqrstuvwxyz0123456789+/".toList

def digit (bits : Nat) : Char := alphabet.getD bits '='

def bitsOf (char : Char) : Option Nat :=
  if char = '-' then some 62
  else if char = '_' then some 63
  else alphabet.findIdx? (· == char)

def encode : List UInt8 → List Char
  | [] => []
  | [first] => [digit (first.toNat / 4), digit (first.toNat % 4 * 16), '=', '=']
  | [first, second] =>
    [digit (first.toNat / 4), digit (first.toNat % 4 * 16 + second.toNat / 16), digit (second.toNat % 16 * 4), '=']
  | first :: second :: third :: rest =>
    digit (first.toNat / 4) :: digit (first.toNat % 4 * 16 + second.toNat / 16) ::
      digit (second.toNat % 16 * 4 + third.toNat / 64) :: digit (third.toNat % 64) :: encode rest

def pack : List Nat → List UInt8
  | first :: second :: third :: fourth :: rest =>
    UInt8.ofNat (first * 4 + second / 16) :: UInt8.ofNat (second % 16 * 16 + third / 4) ::
      UInt8.ofNat (third % 4 * 64 + fourth) :: pack rest
  | [first, second, third] =>
    [UInt8.ofNat (first * 4 + second / 16), UInt8.ofNat (second % 16 * 16 + third / 4)]
  | [first, second] => [UInt8.ofNat (first * 4 + second / 16)]
  | _ => []

def decode (text : List Char) : List UInt8 := pack ((text.takeWhile (· ≠ '=')).filterMap bitsOf)

variable {bits : Nat}

theorem digit_spec (small : bits < 64) : bitsOf (digit bits) = some bits ∧ digit bits ≠ '=' ∧ digit bits ≠ ':' := by
  have every : ∀ bits : Fin 64, bitsOf (digit bits) = some bits.val ∧ digit bits ≠ '=' ∧
      digit bits ≠ ':' := by decide +kernel
  exact every ⟨bits, small⟩

def sextets : List UInt8 → List Nat
  | [] => []
  | [first] => [first.toNat / 4, first.toNat % 4 * 16]
  | [first, second] =>
    [first.toNat / 4, first.toNat % 4 * 16 + second.toNat / 16, second.toNat % 16 * 4]
  | first :: second :: third :: rest =>
    first.toNat / 4 :: (first.toNat % 4 * 16 + second.toNat / 16) ::
      (second.toNat % 16 * 4 + third.toNat / 64) :: third.toNat % 64 :: sextets rest

theorem ofNat_of_eq {byte : UInt8} (same : bits = byte.toNat) : UInt8.ofNat bits = byte := by
  rw [same, UInt8.ofNat_toNat]

variable (bytes : List UInt8)

theorem pack_sextets : pack (sextets bytes) = bytes := by
  induction bytes using sextets.induct with
  | case1 => rfl
  | case2 first =>
    have firstByte : first.toNat / 4 * 4 + first.toNat % 4 * 16 / 16 = first.toNat := by omega
    rw [sextets, pack, ofNat_of_eq firstByte]
  | case3 first second =>
    have := second.toNat_lt
    have firstByte : first.toNat / 4 * 4 + (first.toNat % 4 * 16 + second.toNat / 16) / 16 = first.toNat := by omega
    have secondByte : (first.toNat % 4 * 16 + second.toNat / 16) % 16 * 16 +
        second.toNat % 16 * 4 / 4 = second.toNat := by omega
    rw [sextets, pack, ofNat_of_eq firstByte, ofNat_of_eq secondByte]
  | case4 first second third rest ih =>
    have := second.toNat_lt
    have := third.toNat_lt
    have firstByte : first.toNat / 4 * 4 + (first.toNat % 4 * 16 + second.toNat / 16) / 16 = first.toNat := by omega
    have secondByte : (first.toNat % 4 * 16 + second.toNat / 16) % 16 * 16 +
        (second.toNat % 16 * 4 + third.toNat / 64) / 4 = second.toNat := by omega
    have thirdByte : (second.toNat % 16 * 4 + third.toNat / 64) % 4 * 64 + third.toNat % 64 = third.toNat := by omega
    rw [sextets, pack, ofNat_of_eq firstByte, ofNat_of_eq secondByte, ofNat_of_eq thirdByte, ih]

theorem sextets_small : ∀ bits ∈ sextets bytes, bits < 64 := by
  induction bytes using sextets.induct with
  | case1 => exact fun bits member => absurd member not_mem_nil
  | case2 first =>
    have := first.toNat_lt
    intro bits member
    simp only [sextets, mem_cons, not_mem_nil, or_false] at member
    omega
  | case3 first second =>
    have := first.toNat_lt
    have := second.toNat_lt
    intro bits member
    simp only [sextets, mem_cons, not_mem_nil, or_false] at member
    omega
  | case4 first second third rest ih =>
    have := first.toNat_lt
    have := second.toNat_lt
    have := third.toNat_lt
    intro bits member
    simp only [sextets, mem_cons] at member
    rcases member with same | same | same | same | later
    · omega
    · omega
    · omega
    · omega
    · exact ih bits later

theorem encode_eq :
    ∃ padding, (∀ char ∈ padding, char = '=') ∧ encode bytes = (sextets bytes).map digit ++ padding := by
  induction bytes using sextets.induct with
  | case1 => exact ⟨[], fun _ member => absurd member not_mem_nil, rfl⟩
  | case2 first => exact ⟨['=', '='], by simp, rfl⟩
  | case3 first second => exact ⟨['='], by simp, rfl⟩
  | case4 first second third rest ih =>
    obtain ⟨padding, isPadding, same⟩ := ih
    refine ⟨padding, isPadding, ?_⟩
    rw [encode, sextets, same]
    rfl

variable {bits : List Nat}

theorem takeWhile_digits (small : ∀ value ∈ bits, value < 64) {padding : List Char}
    (isPadding : ∀ char ∈ padding, char = '=') : (bits.map digit ++ padding).takeWhile (· ≠ '=') = bits.map digit := by
  have digits : ∀ char ∈ bits.map digit, decide (char ≠ '=') = true := by
    intro char member
    obtain ⟨value, isBits, rfl⟩ := mem_map.mp member
    exact decide_eq_true (digit_spec (small value isBits)).2.1
  rw [takeWhile_append_of_pos digits]
  cases padding with
  | nil => exact append_nil _
  | cons char rest =>
    rw [takeWhile_cons, isPadding char mem_cons_self]
    exact append_nil _

theorem filterMap_digits (small : ∀ value ∈ bits, value < 64) : (bits.map digit).filterMap bitsOf = bits := by
  induction bits with
  | nil => rfl
  | cons value rest ih =>
    rw [map_cons, filterMap_cons, (digit_spec (small value mem_cons_self)).1]
    dsimp only
    rw [ih fun other member => small other (mem_cons_of_mem _ member)]

theorem decode_encode : decode (encode bytes) = bytes := by
  obtain ⟨padding, isPadding, same⟩ := encode_eq bytes
  rw [decode, same, takeWhile_digits (sextets_small bytes) isPadding,
    filterMap_digits (sextets_small bytes), pack_sextets]

theorem encode_eq_nil {bytes : List UInt8} : encode bytes = [] ↔ bytes = [] := by
  constructor
  · intro nothing
    rw [← decode_encode bytes, nothing]
    rfl
  · intro nothing
    rw [nothing]
    rfl

theorem colon_not_mem_encode : ':' ∉ encode bytes := by
  obtain ⟨padding, isPadding, same⟩ := encode_eq bytes
  rw [same, mem_append, not_or]
  constructor
  · intro member
    obtain ⟨value, isBits, isColon⟩ := mem_map.mp member
    exact (digit_spec (sextets_small bytes value isBits)).2.2 isColon
  · intro member
    exact absurd (isPadding ':' member) (by decide)

end EveHorizon.Base64
