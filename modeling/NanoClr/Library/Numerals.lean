import Mathlib.Algebra.Ring.Int.Defs
import Mathlib.Algebra.Ring.Nat
import Mathlib.Data.Nat.Digits.Lemmas

/-!
# Numerals

Digits with the most significant one first, the number that they denote and the
shortest numeral of a number.
-/

namespace NanoClr

/-- The number that digits denote. -/
def ofNumeral (base : Nat) (digits : List Nat) : Nat :=
  Nat.ofDigits base digits.reverse

/-- The shortest numeral of a number. -/
def numeral (base number : Nat) : List Nat :=
  if number = 0 then [0] else (Nat.digits base number).reverse

section Numerals

variable
  {base number count : Nat}
  {left right digits : List Nat}

@[simp] theorem ofNumeral_nil : ofNumeral base [] = 0 := rfl

theorem ofNumeral_append :
    ofNumeral base (left ++ right) =
      ofNumeral base left * base ^ right.length + ofNumeral base right := by
  rw [ofNumeral, List.reverse_append, Nat.ofDigits_append, List.length_reverse,
    Nat.add_comm, Nat.mul_comm]
  rfl

theorem ofNumeral_singleton (digit : Nat) : ofNumeral base [digit] = digit :=
  Nat.ofDigits_singleton

theorem ofNumeral_cons (digit : Nat) :
    ofNumeral base (digit :: digits) =
      digit * base ^ digits.length + ofNumeral base digits := by
  rw [← List.singleton_append, ofNumeral_append, ofNumeral_singleton]

theorem ofNumeral_concat (digit : Nat) :
    ofNumeral base (digits ++ [digit]) = ofNumeral base digits * base + digit := by
  rw [ofNumeral_append, ofNumeral_singleton, List.length_singleton, Nat.pow_one]

/-- Zeros in front do not change a number. -/
theorem ofNumeral_zeros (count : Nat) :
    ofNumeral base (List.replicate count 0 ++ digits) = ofNumeral base digits := by
  have zero : ofNumeral base (List.replicate count 0) = 0 := by
    rw [ofNumeral, List.reverse_replicate, Nat.ofDigits_replicate_zero]
  rw [ofNumeral_append, zero, Nat.zero_mul, Nat.zero_add]

theorem ofNumeral_lt
    (many : 1 < base)
    (small : ∀ digit ∈ digits, digit < base) :
    ofNumeral base digits < base ^ digits.length := by
  rw [ofNumeral, ← List.length_reverse]
  apply Nat.ofDigits_lt_base_pow_length many
  intro digit member
  exact small digit (List.mem_reverse.mp member)

@[simp] theorem ofNumeral_numeral :
    ofNumeral base (numeral base number) = number := by
  rw [numeral]
  split
  next zero => rw [ofNumeral_singleton, zero]
  next nonzero => rw [ofNumeral, List.reverse_reverse, Nat.ofDigits_digits]

theorem numeral_lt
    (many : 1 < base) :
    ∀ digit ∈ numeral base number, digit < base := by
  rw [numeral]
  split
  next zero =>
    intro digit member
    rw [List.mem_singleton.mp member]
    omega
  next nonzero =>
    intro digit member
    exact Nat.digits_lt_base many (List.mem_reverse.mp member)

theorem numeral_ne_nil : numeral base number ≠ [] := by
  rw [numeral]
  split
  next zero => exact List.cons_ne_nil 0 []
  next nonzero =>
    rw [ne_eq, List.reverse_eq_nil_iff]
    exact Nat.digits_ne_nil_iff_ne_zero.mpr nonzero

theorem numeral_pos : 0 < (numeral base number).length :=
  List.length_pos_of_ne_nil numeral_ne_nil

theorem numeral_length_le_iff
    (many : 1 < base)
    (positive : 0 < count) :
    (numeral base number).length ≤ count ↔ number < base ^ count := by
  rw [numeral]
  split
  next zero =>
    rw [zero, List.length_singleton]
    exact iff_of_true positive (Nat.pow_pos (by omega))
  next nonzero =>
    rw [List.length_reverse, Nat.digits_length_le_iff many]

/-- The shortest numeral of a positive number does not start with zero. -/
theorem numeral_eq_cons
    (nonzero : number ≠ 0) :
    ∃ digit rest, numeral base number = digit :: rest ∧ digit ≠ 0 := by
  have notNil := Nat.digits_ne_nil_iff_ne_zero (b := base).mpr nonzero
  have last := Nat.getLast_digit_ne_zero base nonzero
  rw [numeral, if_neg nonzero]
  cases split : (Nat.digits base number).reverse with
  | nil => exact absurd (List.reverse_eq_nil_iff.mp split) notNil
  | cons digit rest =>
      refine ⟨digit, rest, rfl, ?_⟩
      have isLast : (Nat.digits base number).getLast? = some digit := by
        rw [← List.head?_reverse, split, List.head?_cons]
      rw [List.getLast?_eq_some_getLast notNil, Option.some_inj] at isLast
      rw [← isLast]
      exact last

end Numerals

end NanoClr
