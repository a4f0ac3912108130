import Mathlib.Algebra.Ring.Int.Defs
import Mathlib.Algebra.Ring.Nat
import Mathlib.Data.Nat.Bitwise
import Mathlib.Tactic.Common

/-!
# Numbers as strings of bits

The lowest bits of a number, the highest of them first.
-/

namespace NanoClr

/-- The lowest bits of a number, the highest of them first. -/
def bitsOf : Nat → Nat → List Bool
  | 0, _ => []
  | width + 1, value => value.testBit width :: bitsOf width value

/-- The number that a string of bits stands for. -/
def ofBits : List Bool → Nat
  | [] => 0
  | bit :: bits => 2 ^ bits.length * bit.toNat + ofBits bits

section BitStrings

attribute [local simp] bitsOf ofBits

variable {width high low value other : Nat}

@[simp] theorem length_bitsOf : (bitsOf width value).length = width := by
  induction width with
  | zero => rfl
  | succ width inductionHypothesis =>
      rw [bitsOf, List.length_cons, inductionHypothesis]

/-- Numbers that agree in their lowest bits. -/
theorem bitsOf_congr
    (same : ∀ place < width, value.testBit place = other.testBit place) :
    bitsOf width value = bitsOf width other := by
  induction width with
  | zero => rfl
  | succ width inductionHypothesis =>
      rw [bitsOf, bitsOf, same width (Nat.lt_succ_self width),
        inductionHypothesis fun place less =>
          same place (Nat.lt_succ_of_lt less)]

theorem testBit_of_bitsOf
    (same : bitsOf width value = bitsOf width other)
    {place : Nat}
    (less : place < width) :
    value.testBit place = other.testBit place := by
  induction width with
  | zero => exact absurd less (Nat.not_lt_zero place)
  | succ width inductionHypothesis =>
      rw [bitsOf, bitsOf, List.cons.injEq] at same
      rcases Nat.lt_succ_iff_lt_or_eq.mp less with less | rfl
      · exact inductionHypothesis same.2 less
      · exact same.1

theorem bitsOf_zero : bitsOf width 0 = List.replicate width false := by
  induction width with
  | zero => rfl
  | succ width inductionHypothesis =>
      rw [bitsOf, inductionHypothesis, Nat.zero_testBit]
      rfl

/-- The high bits in front of the low ones. -/
theorem bitsOf_add :
    bitsOf (high + low) value =
      bitsOf high (value >>> low) ++ bitsOf low value := by
  induction high with
  | zero =>
      rw [Nat.zero_add]
      rfl
  | succ high inductionHypothesis =>
      rw [Nat.succ_add, bitsOf, bitsOf, inductionHypothesis,
        Nat.testBit_shiftRight, Nat.add_comm low high]
      rfl

theorem bitsOf_mod
    (atLeast : width ≤ high) :
    bitsOf width (value % 2 ^ high) = bitsOf width value := by
  apply bitsOf_congr
  intro place less
  rw [Nat.testBit_mod_two_pow, decide_eq_true (by omega), Bool.true_and]

theorem ofBits_append (bits later : List Bool) :
    ofBits (bits ++ later) = 2 ^ later.length * ofBits bits + ofBits later := by
  induction bits with
  | nil => simp [ofBits]
  | cons bit bits inductionHypothesis =>
      rw [List.cons_append, ofBits, ofBits, inductionHypothesis,
        List.length_append, Nat.add_comm bits.length, Nat.pow_add,
        Nat.mul_add, Nat.mul_assoc, Nat.add_assoc]

theorem ofBits_bitsOf : ofBits (bitsOf width value) = value % 2 ^ width := by
  induction width with
  | zero =>
      rw [Nat.pow_zero, Nat.mod_one]
      rfl
  | succ width inductionHypothesis =>
      rw [bitsOf, ofBits, length_bitsOf, inductionHypothesis,
        Nat.mod_pow_succ, Nat.toNat_testBit, Nat.add_comm]

theorem ofBits_lt (bits : List Bool) : ofBits bits < 2 ^ bits.length := by
  induction bits with
  | nil => exact Nat.one_pos
  | cons bit bits inductionHypothesis =>
      have atMost : 2 ^ bits.length * bit.toNat ≤ 2 ^ bits.length * 1 :=
        Nat.mul_le_mul_left _ bit.toNat_le
      rw [ofBits, List.length_cons, Nat.pow_succ]
      omega

/-- Bits that are written where there are zeros. -/
theorem bitsOf_or_shiftLeft
    {front insert rest chunk : Nat}
    (zeros : bitsOf (insert + rest) value =
      List.replicate (insert + rest) false)
    (small : chunk < 2 ^ insert) :
    bitsOf (front + (insert + rest)) (value ||| chunk <<< rest) =
      bitsOf front (value >>> (insert + rest)) ++
        (bitsOf insert chunk ++ List.replicate rest false) := by
  have inside : chunk <<< rest < 2 ^ (insert + rest) := by
    rw [Nat.shiftLeft_eq, Nat.pow_add]
    exact Nat.mul_lt_mul_of_pos_right small (Nat.two_pow_pos rest)
  have isFront : (value ||| chunk <<< rest) >>> (insert + rest) =
      value >>> (insert + rest) := by
    rw [Nat.shiftRight_or_distrib, Nat.shiftRight_eq_div_pow (chunk <<< rest),
      Nat.div_eq_of_lt inside, Nat.or_zero]
  have isChunk : bitsOf (insert + rest) (value ||| chunk <<< rest) =
      bitsOf (insert + rest) (chunk <<< rest) := by
    apply bitsOf_congr
    intro place less
    rw [← bitsOf_zero] at zeros
    rw [Nat.testBit_or, testBit_of_bitsOf zeros less, Nat.zero_testBit,
      Bool.false_or]
  have isRest : bitsOf rest (chunk <<< rest) = List.replicate rest false := by
    rw [← bitsOf_zero]
    apply bitsOf_congr
    intro place less
    rw [Nat.testBit_shiftLeft, decide_eq_false (by omega), Bool.false_and,
      Nat.zero_testBit]
  rw [bitsOf_add, isFront, isChunk, bitsOf_add, isRest, Nat.shiftLeft_shiftRight]

end BitStrings

end NanoClr
