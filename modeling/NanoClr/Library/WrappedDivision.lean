import NanoClr.Library.MachineDivision
import Mathlib.Algebra.Ring.Divisibility.Basic
import Mathlib.Algebra.Ring.Int.Defs

/-!
# Division of wrapped differences

A multiple of a divisor that is taken modulo a power of two need not be a
multiple any more.  What is left of it decides which of its bits survive a
division and the multiplication that undoes it.
-/

namespace NanoClr

/-! ## Wrapped multiples -/

section Multiples

variable {P M H s : Nat} {d : Int}

/-- A remainder of a multiple that has been wrapped once. -/
theorem emod_shifted
    (divides : (s : Int) ∣ d) :
    (d + M) % s = (M % s : Nat) := by
  rw [Int.add_emod, Int.emod_eq_zero_of_dvd divides, Int.zero_add,
    Int.emod_emod]
  rfl

/-- Wrapping around zero keeps a multiple if it does not happen or if the
remainder of the modulus is left out. -/
theorem dvd_wrapped_unsigned
    (divides : (s : Int) ∣ d)
    (small : s < M)
    (below : -M ≤ d)
    (above : d < M ∨ P = M ∧ d < 2 * M) :
    (P : Int) ∣ (d % M) % s ↔ (0 ≤ d ∧ d < M) ∨ P ∣ M % s := by
  by_cases negative : d < 0
  · have wrapped : d % M = d + M := by
      rw [← Int.add_emod_right]
      exact Int.emod_eq_of_lt (by omega) (by omega)
    rw [wrapped, emod_shifted divides, Int.natCast_dvd_natCast]
    exact ⟨Or.inr, fun holds => holds.resolve_left (by omega)⟩
  by_cases inside : d < M
  · rw [Int.emod_eq_of_lt (by omega) inside, Int.emod_eq_zero_of_dvd divides]
    exact iff_of_true (Int.dvd_zero _) (Or.inl ⟨by omega, inside⟩)
  obtain ⟨rfl, twice⟩ := above.resolve_left inside
  have wrapped : d % P = d - P := by
    rw [← Int.sub_emod_right]
    exact Int.emod_eq_of_lt (by omega) (by omega)
  have positive : 0 < s := by
    apply Nat.pos_of_ne_zero
    rintro rfl
    rw [Int.natCast_zero, Int.zero_dvd] at divides
    omega
  have leftLess := Int.emod_lt_of_pos (d - P) (b := s) (by omega)
  have leftNonneg := Int.emod_nonneg (d - P) (b := s) (by omega)
  have rightLess := Nat.mod_lt P positive
  have left : (P : Int) ∣ (d - P) % s ↔ (s : Int) ∣ d - P := by
    rw [Int.dvd_iff_emod_eq_zero (a := (s : Int))]
    constructor
    · intro whole
      exact Int.eq_zero_of_dvd_of_natAbs_lt_natAbs whole (by omega)
    · intro isZero
      rw [isZero]
      exact Int.dvd_zero _
  have right : P ∣ P % s ↔ s ∣ P := by
    rw [Nat.dvd_iff_mod_eq_zero (m := s)]
    constructor
    · intro whole
      exact Nat.eq_zero_of_dvd_of_lt whole (by omega)
    · intro isZero
      rw [isZero]
      exact Nat.dvd_zero _
  rw [wrapped, left, right, dvd_sub_right divides, Int.natCast_dvd_natCast]
  exact ⟨Or.inr, fun holds => holds.resolve_left (by omega)⟩

/-- The same for words that stand for integers of both signs, whose divisor is
such a word, too. -/
theorem dvd_wrapped_signed
    (half : M = 2 * H)
    (divides : (s : Int) ∣ d)
    (positive : 0 < s)
    (small : s < M)
    (below : -M < d)
    (above : d < M) :
    (P : Int) ∣ (d.bmod M).tmod (if s < H then (s : Int) else s - M) ↔
      (-H ≤ d ∧ d < H) ∨ H ≤ s ∨ P ∣ M % s := by
  by_cases large : H ≤ s
  · rw [if_neg (Nat.not_lt.mpr large)]
    apply iff_of_true _ (Or.inr (Or.inl large))
    suffices multiple : (s - M : Int) ∣ d.bmod M by
      rw [Int.tmod_eq_zero_of_dvd multiple]
      exact Int.dvd_zero _
    obtain ⟨k, isMultiple⟩ := divides
    have few : -2 < k ∧ k < 2 := by
      constructor
      · by_contra more
        have product := Int.mul_le_mul_of_nonneg_left
          (show k ≤ -2 by omega) (Int.natCast_nonneg s)
        omega
      · by_contra more
        have product := Int.mul_le_mul_of_nonneg_left
          (show 2 ≤ k by omega) (Int.natCast_nonneg s)
        omega
    obtain rfl | rfl | rfl : k = 0 ∨ k = 1 ∨ k = -1 := by omega
    · rw [isMultiple, Int.mul_zero, Int.zero_bmod]
      exact Int.dvd_zero _
    · have wrapped : d.bmod M = s - M := by
        rw [isMultiple, Int.mul_one, ← Int.sub_bmod_right]
        exact Int.bmod_eq_of_le (by omega) (by omega)
      rw [wrapped]
    · by_cases exactly : s = H
      · have wrapped : d.bmod M = s - M := by
          rw [isMultiple, Int.bmod_eq_of_le (by omega) (by omega)]
          omega
        rw [wrapped]
      · have wrapped : d.bmod M = -(s - M) := by
          rw [isMultiple, ← Int.add_bmod_right,
            Int.bmod_eq_of_le (by omega) (by omega)]
          omega
        rw [wrapped]
        exact Int.dvd_neg.mpr (Int.dvd_refl _)
  rw [if_pos (Nat.not_le.mp large)]
  by_cases inside : -H ≤ d ∧ d < H
  · rw [Int.bmod_eq_of_le (by omega) (by omega),
      Int.tmod_eq_zero_of_dvd divides]
    exact iff_of_true (Int.dvd_zero _) (Or.inl inside)
  · have others : ((-H ≤ d ∧ d < H) ∨ H ≤ s ∨ P ∣ M % s) ↔ P ∣ M % s := by
      rw [or_iff_right inside, or_iff_right large]
    rw [others, ← Int.natCast_dvd_natCast, ← emod_shifted divides]
    by_cases negative : d < 0
    · have wrapped : d.bmod M = d + M := by
        rw [← Int.add_bmod_right]
        exact Int.bmod_eq_of_le (by omega) (by omega)
      rw [wrapped, Int.tmod_eq_emod_of_nonneg (by omega)]
    · have wrapped : d.bmod M = d - M := by
        rw [← Int.sub_bmod_right]
        exact Int.bmod_eq_of_le (by omega) (by omega)
      have opposite : d - M = -(-d + M) := by omega
      rw [wrapped, opposite, Int.neg_tmod, Int.dvd_neg,
        Int.tmod_eq_emod_of_nonneg (by omega), emod_shifted divides,
        emod_shifted (Int.dvd_neg.mpr divides)]

end Multiples

/-! ## Words -/

/-- The low bits of a word, taken as an integer of as many bits. -/
def extend (signed : Bool) {width : Nat} (word : BitVec width) (shift : Nat) :
    BitVec width :=
  if signed then (word <<< shift).sshiftRight shift
  else (word <<< shift) >>> shift

section Words

variable {width : Nat} {signed : Bool} {a b q r : BitVec width}

theorem integerOf_injective
    (same : integerOf signed a = integerOf signed b) :
    a = b := by
  cases signed with
  | true => exact BitVec.toInt_inj.mp same
  | false => exact BitVec.eq_of_toNat_eq (Int.ofNat.inj same)

theorem bmod_mul_mul
    (n : Int)
    (kept shift : Nat) :
    (n * 2 ^ shift).bmod (2 ^ (kept + shift)) =
      n.bmod (2 ^ kept) * 2 ^ shift := by
  have scale : (0 : Int) < 2 ^ shift := Int.pow_pos (by decide)
  have isModulus : ((2 ^ (kept + shift) : Nat) : Int) =
      ((2 ^ kept : Nat) : Int) * 2 ^ shift := by
    rw [Nat.pow_add]
    push_cast
    rfl
  have multiple : ((2 ^ kept : Nat) : Int) ∣ n.bmod (2 ^ kept) - n :=
    Int.dvd_bmod_sub_self
  have least : -(((2 ^ kept : Nat) : Int) / 2) ≤ n.bmod (2 ^ kept) :=
    Int.le_bmod (Nat.two_pow_pos kept)
  have most : n.bmod (2 ^ kept) < (((2 ^ kept : Nat) : Int) + 1) / 2 :=
    Int.bmod_lt (Nat.two_pow_pos kept)
  rw [Int.bmod_eq_iff (Nat.two_pow_pos _), isModulus]
  generalize n.bmod (2 ^ kept) = m at multiple least most ⊢
  have inside : -(((2 ^ kept : Nat) : Int) * 2 ^ shift / 2) ≤ m * 2 ^ shift ∧
      m * 2 ^ shift < (((2 ^ kept : Nat) : Int) * 2 ^ shift + 1) / 2 := by
    cases kept with
    | zero =>
        have isZero : m = 0 := by
          rw [Nat.pow_zero] at least most
          omega
        rw [isZero, Int.zero_mul, Nat.pow_zero, Int.natCast_one, Int.one_mul]
        omega
    | succ kept =>
        have isTwice : ((2 ^ (kept + 1) : Nat) : Int) = 2 * 2 ^ kept := by
          rw [Nat.pow_succ, Nat.mul_comm]
          push_cast
          rfl
        rw [isTwice] at least most ⊢
        rw [Int.mul_assoc]
        have lower := Int.mul_le_mul_of_nonneg_right
          (show -2 ^ kept ≤ m by omega) (Int.le_of_lt scale)
        have upper := Int.mul_le_mul_of_nonneg_right
          (show m + 1 ≤ 2 ^ kept by omega) (Int.le_of_lt scale)
        rw [Int.neg_mul] at lower
        rw [Int.add_mul, Int.one_mul] at upper
        omega
  refine ⟨inside.1, inside.2, ?_⟩
  rw [← Int.sub_mul]
  exact Int.mul_dvd_mul multiple (Int.dvd_refl _)

theorem integerOf_extend
    {kept shift : Nat}
    (isWidth : kept + shift = width) :
    integerOf signed (extend signed a shift) =
      integerOf signed (a.setWidth kept) := by
  subst isWidth
  have scale : (0 : Int) < 2 ^ shift := Int.pow_pos (by decide)
  cases signed with
  | true =>
      change ((a <<< shift).sshiftRight shift).toInt = (a.setWidth kept).toInt
      rw [BitVec.toInt_sshiftRight, BitVec.toInt_shiftLeft,
        BitVec.toInt_setWidth, Int.shiftRight_eq_div_pow, Nat.shiftLeft_eq,
        Int.natCast_mul, Int.natCast_pow, Int.cast_ofNat_Int, bmod_mul_mul]
      exact Int.mul_ediv_cancel _ (by omega)
  | false =>
      change (((a <<< shift) >>> shift).toNat : Int) =
        ((a.setWidth kept).toNat : Int)
      rw [BitVec.toNat_ushiftRight, BitVec.toNat_shiftLeft,
        BitVec.toNat_setWidth, Nat.shiftLeft_eq, Nat.shiftRight_eq_div_pow,
        Nat.pow_add, Nat.mul_mod_mul_right,
        Nat.mul_div_cancel _ (Nat.two_pow_pos shift)]

theorem setWidth_extend
    {kept shift : Nat}
    (isWidth : kept + shift = width) :
    (extend signed a shift).setWidth kept = a.setWidth kept := by
  apply BitVec.eq_of_getLsbD_eq
  intro place less
  have inside : shift + place < width := by omega
  have notOutside : ¬width ≤ place := by omega
  have notBelow : ¬shift + place < shift := by omega
  have place_ : shift + place - shift = place := Nat.add_sub_cancel_left ..
  rw [BitVec.getLsbD_setWidth, BitVec.getLsbD_setWidth]
  cases signed with
  | true =>
      rw [extend, if_pos rfl, BitVec.getLsbD_sshiftRight,
        BitVec.getLsbD_shiftLeft, if_pos inside, place_,
        decide_eq_false notOutside, decide_eq_true inside,
        decide_eq_false notBelow]
      rfl
  | false =>
      rw [extend, if_neg Bool.false_ne_true, BitVec.getLsbD_ushiftRight,
        BitVec.getLsbD_shiftLeft, place_, decide_eq_true inside,
        decide_eq_false notBelow]
      rfl

/-- Low bits are all zero in multiples of a power of two. -/
theorem setWidth_eq_zero_iff
    {kept : Nat}
    (atMost : kept ≤ width) :
    a.setWidth kept = 0 ↔ ((2 ^ kept : Nat) : Int) ∣ integerOf signed a := by
  have divides : 2 ^ kept ∣ 2 ^ width := Nat.pow_dvd_pow 2 atMost
  have isNat : a.setWidth kept = 0 ↔ 2 ^ kept ∣ a.toNat := by
    rw [← BitVec.toNat_inj, BitVec.toNat_setWidth, Nat.dvd_iff_mod_eq_zero]
    rfl
  rw [isNat, ← Int.natCast_dvd_natCast]
  cases signed with
  | false => rfl
  | true =>
      by_cases less : 2 * a.toNat < 2 ^ width
      · rw [← toInt_of_less less]
        rfl
      · have isInt := toInt_of_notLess less
        change _ ↔ _ ∣ a.toInt
        rw [isInt, dvd_sub_left (Int.natCast_dvd_natCast.mpr divides)]

/-- A word is the product of the quotient and what is left. -/
theorem quotient_mul_add
    (isQuotient : quotient signed a b = some q)
    (isRemainder : remainder signed a b = some r) :
    a = q * b + r := by
  have divisible : Divisible signed a b := by
    by_contra fails
    rw [quotient, if_neg fails] at isQuotient
    cases isQuotient
  obtain ⟨q', isQ, qInteger⟩ := integerOf_quotient divisible
  obtain ⟨r', isR, rInteger⟩ := integerOf_remainder divisible
  cases isQuotient.symm.trans isQ
  cases isRemainder.symm.trans isR
  have sum := Int.tdiv_mul_add_tmod (integerOf signed a) (integerOf signed b)
  rw [← qInteger, ← rInteger] at sum
  cases signed with
  | true =>
      apply BitVec.eq_of_toInt_eq
      change q.toInt * b.toInt + r.toInt = a.toInt at sum
      rw [BitVec.toInt_add, BitVec.toInt_mul, Int.bmod_add_bmod, sum,
        BitVec.toInt_bmod_cancel]
  | false =>
      apply BitVec.eq_of_toNat_eq
      change (q.toNat : Int) * b.toNat + r.toNat = a.toNat at sum
      have product : q.toNat * b.toNat + r.toNat = a.toNat := by
        exact_mod_cast sum
      rw [BitVec.toNat_add, BitVec.toNat_mul, Nat.mod_add_mod, product,
        Nat.mod_eq_of_lt a.isLt]

end Words

end NanoClr
