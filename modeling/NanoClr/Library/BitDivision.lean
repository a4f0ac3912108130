import Mathlib.Algebra.CharP.Two
import Mathlib.Algebra.Field.ZMod
import Mathlib.Algebra.Polynomial.Div
import Mathlib.Algebra.Ring.Int.Defs
import Mathlib.Algebra.Ring.Nat
import Mathlib.Tactic.Common
import Mathlib.Tactic.LinearCombination

/-!
# Division of bit strings

A shift register that divides a string of bits by a polynomial over the field
with two elements, one bit at a time and the highest first. The polynomial is
given without its leading term.
-/

namespace NanoClr

section BitDivision

variable {width : Nat}

/-- One more bit into the register. -/
def divideBit
    (polynomial register : BitVec width)
    (bit : Bool) : BitVec width :=
  if register.msb ^^ bit then
    register <<< 1 ^^^ polynomial
  else
    register <<< 1

/-- The division of some bits, the first one first, from a register on. -/
def divide
    (polynomial register : BitVec width)
    (bits : List Bool) : BitVec width :=
  bits.foldl (divideBit polynomial) register

/-- The highest bits of a register, the highest of them first. -/
def topBits (count : Nat) (register : BitVec width) : List Bool :=
  (List.range count).map register.getMsbD

theorem topBits_succ (count : Nat) (register : BitVec width) :
    topBits (count + 1) register =
      register.msb :: topBits count (register <<< 1) := by
  rw [topBits, topBits, List.range_succ_eq_map, List.map_cons, List.map_map]
  congr 1
  apply List.map_congr_left
  intro place _
  rw [BitVec.getMsbD_shiftLeft]
  simp only [Function.comp_apply, Nat.succ_eq_add_one]

@[simp] theorem length_topBits (count : Nat) (register : BitVec width) :
    (topBits count register).length = count := by
  rw [topBits, List.length_map, List.length_range]

theorem divide_nil (polynomial register : BitVec width) :
    divide polynomial register [] = register := rfl

theorem divide_cons
    (polynomial register : BitVec width)
    (bit : Bool)
    (bits : List Bool) :
    divide polynomial register (bit :: bits) =
      divide polynomial (divideBit polynomial register bit) bits := rfl

theorem divide_append
    (polynomial register : BitVec width)
    (left right : List Bool) :
    divide polynomial register (left ++ right) =
      divide polynomial (divide polynomial register left) right :=
  List.foldl_append

/-! ## Tables

The division is linear in the register and the bits together, so that a chunk
of bits acts as the division of what it differs by from the highest bits of
the register.
-/

/-- What a bit that leaves the register brings back. -/
def feedback (polynomial : BitVec width) : Bool → BitVec width
  | true => polynomial
  | false => BitVec.ofNat width 0

theorem feedback_xor (polynomial : BitVec width) (left right : Bool) :
    feedback polynomial (left ^^ right) =
      feedback polynomial left ^^^ feedback polynomial right := by
  cases left <;> cases right <;> simp [feedback]

theorem divideBit_eq
    (polynomial register : BitVec width)
    (bit : Bool) :
    divideBit polynomial register bit =
      register <<< 1 ^^^ feedback polynomial (register.msb ^^ bit) := by
  unfold divideBit
  cases register.msb ^^ bit <;> simp [feedback]

theorem divideBit_xor
    (polynomial left right : BitVec width)
    (leftBit rightBit : Bool) :
    divideBit polynomial (left ^^^ right) (leftBit ^^ rightBit) =
      divideBit polynomial left leftBit ^^^
        divideBit polynomial right rightBit := by
  rw [divideBit_eq, divideBit_eq, divideBit_eq, BitVec.msb_xor,
    BitVec.shiftLeft_xor_distrib]
  simp only [feedback_xor]
  ac_rfl

theorem divide_xor
    (polynomial left right : BitVec width)
    {leftBits rightBits : List Bool}
    (same : leftBits.length = rightBits.length) :
    divide polynomial (left ^^^ right)
        (List.zipWith xor leftBits rightBits) =
      divide polynomial left leftBits ^^^
        divide polynomial right rightBits := by
  induction leftBits generalizing left right rightBits with
  | nil =>
      rw [List.length_nil, eq_comm, List.length_eq_zero_iff] at same
      rw [same]
      rfl
  | cons leftBit leftBits inductionHypothesis =>
      cases rightBits with
      | nil => exact absurd same (Nat.succ_ne_zero _)
      | cons rightBit rightBits =>
          rw [List.zipWith_cons_cons, divide_cons, divide_cons, divide_cons,
            divideBit_xor]
          apply inductionHypothesis
          exact Nat.succ.inj same

/-- The highest bits of the register cancel themselves. -/
theorem divide_topBits
    (polynomial register : BitVec width)
    (count : Nat) :
    divide polynomial register (topBits count register) =
      register <<< count := by
  induction count generalizing register with
  | zero =>
      rw [BitVec.shiftLeft_zero]
      rfl
  | succ count inductionHypothesis =>
      rw [topBits_succ, divide_cons, divideBit, Bool.xor_self]
      rw [if_neg Bool.false_ne_true, inductionHypothesis,
        ← BitVec.shiftLeft_add, Nat.add_comm]

theorem zipWith_xor_self (bits mask : List Bool)
    (same : bits.length = mask.length) :
    List.zipWith xor mask (List.zipWith xor mask bits) = bits := by
  induction bits generalizing mask with
  | nil =>
      rw [List.length_nil, eq_comm, List.length_eq_zero_iff] at same
      rw [same]
      rfl
  | cons bit bits inductionHypothesis =>
      cases mask with
      | nil => exact absurd same (Nat.succ_ne_zero _)
      | cons first mask =>
          rw [List.zipWith_cons_cons, List.zipWith_cons_cons,
            inductionHypothesis mask (Nat.succ.inj same), ← Bool.xor_assoc,
            Bool.xor_self, Bool.false_xor]

/-- A chunk of bits: what it differs by from the highest bits of the register
is divided from nothing, and the register moves up. -/
theorem divide_chunk
    (polynomial register : BitVec width)
    (bits : List Bool) :
    divide polynomial register bits =
      divide polynomial (BitVec.ofNat width 0)
          (List.zipWith xor (topBits bits.length register) bits) ^^^
        register <<< bits.length := by
  have split := divide_xor polynomial register (BitVec.ofNat width 0)
    (show (topBits bits.length register).length =
        (List.zipWith xor (topBits bits.length register) bits).length by
      rw [List.length_zipWith, length_topBits, Nat.min_self])
  rw [zipWith_xor_self bits _ (length_topBits _ _).symm, BitVec.xor_zero,
    divide_topBits, BitVec.xor_comm] at split
  exact split

/-! ## What the register holds -/

open Polynomial in
/-- The bits of a register as coefficients. -/
noncomputable def registerPolynomial (register : BitVec width) :
    (ZMod 2)[X] :=
  ∑ place ∈ Finset.range width,
    if register.getLsbD place then X ^ place else 0

open Polynomial in
/-- A string of bits as coefficients, the highest first. -/
noncomputable def messagePolynomial : List Bool → (ZMod 2)[X]
  | [] => 0
  | bit :: bits => (if bit then X ^ bits.length else 0) + messagePolynomial bits

open Polynomial in
/-- The divisor with its leading term. -/
noncomputable def divisor (polynomial : BitVec width) : (ZMod 2)[X] :=
  X ^ width + registerPolynomial polynomial

open Polynomial in
theorem degree_registerPolynomial (register : BitVec width) :
    (registerPolynomial register).degree < width := by
  rw [registerPolynomial]
  apply lt_of_le_of_lt (degree_sum_le _ _)
  apply (Finset.sup_lt_iff (WithBot.bot_lt_coe width)).mpr
  intro place member
  split
  · rw [degree_X_pow]
    exact WithBot.coe_lt_coe.mpr (Finset.mem_range.mp member)
  · rw [degree_zero]
    exact WithBot.bot_lt_coe width

open Polynomial in
theorem divisor_monic (polynomial : BitVec width) :
    (divisor polynomial).Monic :=
  monic_X_pow_add (degree_registerPolynomial polynomial)

open Polynomial in
theorem degree_divisor (polynomial : BitVec width) :
    (divisor polynomial).degree = width := by
  rw [divisor, degree_add_eq_left_of_degree_lt, degree_X_pow]
  rw [degree_X_pow]
  exact degree_registerPolynomial polynomial

open Polynomial in
theorem registerPolynomial_xor (left right : BitVec width) :
    registerPolynomial (left ^^^ right) =
      registerPolynomial left + registerPolynomial right := by
  rw [registerPolynomial, registerPolynomial, registerPolynomial,
    ← Finset.sum_add_distrib]
  apply Finset.sum_congr rfl
  intro place _
  rw [BitVec.getLsbD_xor]
  cases left.getLsbD place <;> cases right.getLsbD place <;>
    simp [CharTwo.add_self_eq_zero]

open Polynomial in
theorem registerPolynomial_zero :
    registerPolynomial (BitVec.ofNat width 0) = 0 := by
  rw [registerPolynomial]
  apply Finset.sum_eq_zero
  intro place _
  rw [BitVec.getLsbD_zero, if_neg Bool.false_ne_true]

open Polynomial in
/-- One place up, without the bit that leaves the register. -/
theorem registerPolynomial_shiftLeft (register : BitVec width) :
    registerPolynomial (register <<< 1) +
        (if register.msb then X ^ width else 0) =
      registerPolynomial register * X := by
  cases width with
  | zero =>
      rw [BitVec.eq_nil register]
      simp [registerPolynomial]
  | succ width =>
      rw [registerPolynomial, registerPolynomial, Finset.sum_range_succ',
        Finset.sum_range_succ _ width, add_mul, Finset.sum_mul]
      have lowest : (register <<< 1).getLsbD 0 = false := by
        rw [BitVec.getLsbD_shiftLeft]
        simp
      have highest : register.msb = register.getLsbD width := by
        rw [BitVec.msb_eq_getLsbD_last, Nat.add_sub_cancel]
      have same : ∀ place ∈ Finset.range width,
          (if (register <<< 1).getLsbD (place + 1) then
              (X : (ZMod 2)[X]) ^ (place + 1) else 0) =
            (if register.getLsbD place then X ^ place else 0) * X := by
        intro place member
        have less := Finset.mem_range.mp member
        have moved : (register <<< 1).getLsbD (place + 1) =
            register.getLsbD place := by
          rw [BitVec.getLsbD_shiftLeft]
          simp [less]
        rw [moved, ite_mul, zero_mul, ← pow_succ]
      rw [Finset.sum_congr rfl same, lowest, highest, ite_mul, zero_mul,
        ← pow_succ, if_neg Bool.false_ne_true, add_zero]

open Polynomial in
theorem divideBit_dvd
    (polynomial register : BitVec width)
    (bit : Bool) :
    divisor polynomial ∣
      registerPolynomial register * X + (if bit then X ^ width else 0) -
        registerPolynomial (divideBit polynomial register bit) := by
  rw [divideBit_eq, registerPolynomial_xor, ← registerPolynomial_shiftLeft,
    divisor, CharTwo.sub_eq_add]
  have twice := CharTwo.add_self_eq_zero (registerPolynomial (register <<< 1))
  have leading := CharTwo.add_self_eq_zero (X ^ width : (ZMod 2)[X])
  generalize registerPolynomial (register <<< 1) = shifted at *
  cases register.msb <;> cases bit <;>
    simp only [feedback, registerPolynomial_zero, Bool.xor_true,
      Bool.xor_false, Bool.not_true, Bool.not_false, Bool.false_eq_true,
      if_true, if_false, add_zero]
  · rw [twice]
    exact dvd_zero _
  · apply dvd_of_eq
    linear_combination -twice
  · apply dvd_of_eq
    linear_combination -twice
  · have nothing : shifted + X ^ width + X ^ width + shifted = 0 := by
      linear_combination twice + leading
    rw [nothing]
    exact dvd_zero _

open Polynomial in
theorem divide_dvd
    (polynomial register : BitVec width)
    (bits : List Bool) :
    divisor polynomial ∣
      registerPolynomial register * X ^ bits.length +
          messagePolynomial bits * X ^ width -
        registerPolynomial (divide polynomial register bits) := by
  induction bits generalizing register with
  | nil => simp [divide_nil, messagePolynomial]
  | cons bit bits inductionHypothesis =>
      have first := divideBit_dvd polynomial register bit
      have rest := inductionHypothesis (divideBit polynomial register bit)
      have together :=
        dvd_add (Dvd.dvd.mul_right first (X ^ bits.length)) rest
      rw [divide_cons, messagePolynomial, List.length_cons]
      convert together using 1
      cases bit <;> simp <;> ring

open Polynomial in
/-- The register holds the remainder of what it held at first, moved up by the
length of the message, and the message, moved up by the width of the register. -/
theorem divide_eq_modByMonic
    (polynomial register : BitVec width)
    (bits : List Bool) :
    registerPolynomial (divide polynomial register bits) =
      (registerPolynomial register * X ^ bits.length +
        messagePolynomial bits * X ^ width) %ₘ divisor polynomial := by
  rw [modByMonic_eq_of_dvd_sub (divisor_monic polynomial)
    (divide_dvd polynomial register bits)]
  rw [eq_comm, modByMonic_eq_self_iff (divisor_monic polynomial),
    degree_divisor]
  exact degree_registerPolynomial _

end BitDivision

end NanoClr
