import Mathlib.Algebra.Ring.Int.Defs
import Mathlib.Algebra.Ring.Nat
import Mathlib.Tactic.Common

/-!
# Division of machine integers

Words of some bits stand for integers, signed or not.  Their division truncates
the quotient, and it has no meaning for a zero divisor nor for a quotient that
is no signed integer of as many bits.
-/

namespace NanoClr

/-! ## Truncated division -/

/-- What a quotient and a remainder are together. -/
structure IsDivision (a b q r : Int) : Prop where
  sum : a = q * b + r
  small : r.natAbs < b.natAbs
  nonneg : 0 ≤ a → 0 ≤ r
  nonpos : a ≤ 0 → r ≤ 0

section Truncation

variable {a b d q r : Int}

theorem tmod_nonpos
    (atMost : a ≤ 0) :
    a.tmod b ≤ 0 := by
  have remainder : 0 ≤ (-a).tmod b := Int.tmod_nonneg b (by omega)
  rw [Int.neg_tmod] at remainder
  omega

/-- Division has one result. -/
theorem isDivision_iff
    (notZero : b ≠ 0) :
    IsDivision a b q r ↔ q = a.tdiv b ∧ r = a.tmod b := by
  constructor
  · rintro ⟨sum, small, nonneg, nonpos⟩
    rw [Int.mul_comm] at sum
    rcases Int.le_total 0 a with atLeast | atMost
    · have isResult := (Int.tdiv_tmod_unique atLeast notZero).mpr
        ⟨(Int.add_comm r (b * q)).trans sum.symm, nonneg atLeast, by omega⟩
      exact ⟨isResult.1.symm, isResult.2.symm⟩
    · have isResult := (Int.tdiv_tmod_unique' atMost notZero).mpr
        ⟨(Int.add_comm r (b * q)).trans sum.symm, by omega, nonpos atMost⟩
      exact ⟨isResult.1.symm, isResult.2.symm⟩
  · rintro ⟨rfl, rfl⟩
    constructor
    · exact (Int.tdiv_mul_add_tmod a b).symm
    · rw [Int.natAbs_tmod]
      exact Nat.mod_lt _ (Int.natAbs_pos.mpr notZero)
    · exact Int.tmod_nonneg b
    · exact tmod_nonpos

theorem tdiv_eq_zero_iff
    (notZero : b ≠ 0) :
    a.tdiv b = 0 ↔ a.natAbs < b.natAbs := by
  have positive : 0 < b.natAbs := Int.natAbs_pos.mpr notZero
  rw [← Int.natAbs_eq_zero, Int.natAbs_tdiv]
  exact Nat.div_eq_zero_iff_lt positive

theorem tmod_eq_self
    (less : a.natAbs < b.natAbs) :
    a.tmod b = a := by
  have sum := Int.tdiv_mul_add_tmod a b
  rwa [(tdiv_eq_zero_iff (by omega)).mpr less, Int.zero_mul,
    Int.zero_add] at sum

theorem tmod_eq_self_iff
    (notZero : b ≠ 0) :
    a.tmod b = a ↔ a.natAbs < b.natAbs := by
  constructor
  · intro same
    have less := Nat.mod_lt a.natAbs (Int.natAbs_pos.mpr notZero)
    rwa [← Int.natAbs_tmod, same] at less
  · exact tmod_eq_self

/-- Quotients by divisors of different signs are equal only if both are
zero. -/
theorem tdiv_eq_zero_of_signs
    (signs : 0 < b ∧ d < 0 ∨ b < 0 ∧ 0 < d)
    (same : a.tdiv d = a.tdiv b) :
    a.tdiv d = 0 := by
  have nonneg : ∀ n : Int, 0 ≤ n → n.tdiv d = n.tdiv b → n.tdiv d = 0 := by
    intro n atLeast sameHere
    rcases signs with ⟨positive, negative⟩ | ⟨negative, positive⟩
    · have atMost : n.tdiv d ≤ 0 :=
        Int.tdiv_nonpos_of_nonneg_of_nonpos atLeast (Int.le_of_lt negative)
      have other : 0 ≤ n.tdiv b := Int.tdiv_nonneg atLeast (by omega)
      omega
    · have atMost : n.tdiv b ≤ 0 :=
        Int.tdiv_nonpos_of_nonneg_of_nonpos atLeast (Int.le_of_lt negative)
      have other : 0 ≤ n.tdiv d := Int.tdiv_nonneg atLeast (by omega)
      omega
  rcases Int.le_total 0 a with atLeast | atMost
  · exact nonneg a atLeast same
  · have opposite := nonneg (-a) (by omega)
      (by rw [Int.neg_tdiv, Int.neg_tdiv, same])
    rw [Int.neg_tdiv] at opposite
    omega

/-- Nor are quotients by divisors of which one is at least twice the other. -/
theorem tdiv_eq_zero_of_twice
    (notZero : b ≠ 0)
    (twice : 2 * b.natAbs ≤ d.natAbs)
    (same : a.tdiv d = a.tdiv b) :
    a.tdiv d = 0 := by
  have positive : 0 < b.natAbs := Int.natAbs_pos.mpr notZero
  have sameNat : a.natAbs / d.natAbs = a.natAbs / b.natAbs := by
    have absolute := congrArg Int.natAbs same
    rwa [Int.natAbs_tdiv, Int.natAbs_tdiv] at absolute
  have fits : a.natAbs / d.natAbs * 2 ≤ a.natAbs / b.natAbs := by
    rw [Nat.le_div_iff_mul_le positive, Nat.mul_assoc]
    exact Nat.le_trans (Nat.mul_le_mul_left _ twice)
      (Nat.div_mul_le_self _ _)
  rw [← Int.natAbs_eq_zero, Int.natAbs_tdiv]
  exact Nat.eq_zero_of_not_pos fun more => by
    change 0 < a.natAbs / d.natAbs at more
    omega

/-- A quotient by one divisor that belongs to another. -/
theorem isDivision_otherDivisor
    (divisor : b ≠ 0)
    (other : d ≠ 0)
    (apart : b ≠ d → a.tdiv d = a.tdiv b → a.tdiv d = 0) :
    IsDivision a b (a.tdiv d) r ↔
      (b = d ∨ a.natAbs < d.natAbs ∧ a.natAbs < b.natAbs) ∧
        r = a.tmod d := by
  rw [isDivision_iff divisor]
  by_cases equal : b = d
  · subst equal
    exact ⟨fun division => ⟨Or.inl rfl, division.2⟩,
      fun division => ⟨rfl, division.2⟩⟩
  · constructor
    · rintro ⟨same, rfl⟩
      have noQuotient := apart equal same
      have less := (tdiv_eq_zero_iff other).mp noQuotient
      have lessToo := (tdiv_eq_zero_iff divisor).mp (same ▸ noQuotient)
      refine ⟨Or.inr ⟨less, lessToo⟩, ?_⟩
      rw [tmod_eq_self less, tmod_eq_self lessToo]
    · rintro ⟨equal' | ⟨less, lessToo⟩, rfl⟩
      · exact absurd equal' equal
      · rw [(tdiv_eq_zero_iff other).mpr less,
          (tdiv_eq_zero_iff divisor).mpr lessToo, tmod_eq_self less,
          tmod_eq_self lessToo]
        exact ⟨rfl, rfl⟩

end Truncation

/-! ## Words -/

/-- The integer that a word stands for. -/
def integerOf (signed : Bool) {width : Nat} (word : BitVec width) : Int :=
  if signed then word.toInt else word.toNat

/-- A division that has a meaning. -/
def Divisible (signed : Bool) {width : Nat} (a b : BitVec width) : Prop :=
  b ≠ 0 ∧ ¬(signed ∧ a = BitVec.intMin width ∧ b = -1)

instance (signed : Bool) {width : Nat} (a b : BitVec width) :
    Decidable (Divisible signed a b) :=
  inferInstanceAs (Decidable (_ ∧ _))

/-- The quotient of two words, where it is defined. -/
def quotient (signed : Bool) {width : Nat} (a b : BitVec width) :
    Option (BitVec width) :=
  if Divisible signed a b then
    some (if signed then a.sdiv b else a.udiv b)
  else
    none

/-- The remainder of two words, where it is defined. -/
def remainder (signed : Bool) {width : Nat} (a b : BitVec width) :
    Option (BitVec width) :=
  if Divisible signed a b then
    some (if signed then a.srem b else a.umod b)
  else
    none

/-- Where the remainder of the words as unsigned integers is also that of the
signed ones. -/
def SameRemainder (a d modulus : Int) : Prop :=
  0 ≤ a ∧ (0 < d ∨ a < -d) ∨ a < 0 ∧ 0 < d ∧ d ∣ a ∧ d ∣ modulus ∨ a = d

section Words

variable {width : Nat} {signed : Bool} {a b : BitVec width}

theorem integerOf_quotient
    (divisible : Divisible signed a b) :
    ∃ q, quotient signed a b = some q ∧
      integerOf signed q = (integerOf signed a).tdiv (integerOf signed b) := by
  rw [quotient, if_pos divisible]
  refine ⟨_, rfl, ?_⟩
  cases signed with
  | true =>
      apply BitVec.toInt_sdiv_of_ne_or_ne
      have fits := divisible.2
      by_cases least : a = BitVec.intMin width
      · exact Or.inr fun minusOne => fits ⟨rfl, least, minusOne⟩
      · exact Or.inl least
  | false =>
      change ((a.udiv b).toNat : Int) = (a.toNat : Int).tdiv b.toNat
      rw [BitVec.udiv_eq, BitVec.toNat_udiv]
      rfl

theorem integerOf_remainder
    (divisible : Divisible signed a b) :
    ∃ r, remainder signed a b = some r ∧
      integerOf signed r = (integerOf signed a).tmod (integerOf signed b) := by
  rw [remainder, if_pos divisible]
  refine ⟨_, rfl, ?_⟩
  cases signed with
  | true => exact BitVec.toInt_srem a b
  | false =>
      change ((a.umod b).toNat : Int) = (a.toNat : Int).tmod b.toNat
      rw [BitVec.umod_eq, BitVec.toNat_umod]
      rfl

theorem toNat_ne_zero
    (notZero : b ≠ 0) :
    b.toNat ≠ 0 :=
  fun isZero => notZero (BitVec.eq_of_toNat_eq
    (isZero.trans BitVec.toNat_zero.symm))

theorem integerOf_eq_zero : integerOf signed b = 0 ↔ b = 0 := by
  cases signed with
  | true => exact (BitVec.toInt_zero (w := _)) ▸ BitVec.toInt_inj
  | false =>
      constructor
      · exact fun isZero => Classical.byContradiction fun notZero =>
          toNat_ne_zero notZero (Int.ofNat_eq_zero.mp isZero)
      · rintro rfl
        exact congrArg Int.ofNat BitVec.toNat_zero

theorem divisible_iff
    (least : Int)
    (isLeast : (BitVec.intMin width).toInt = least)
    (someBits : (-1 : BitVec width).toInt = -1) :
    Divisible signed a b ↔ integerOf signed b ≠ 0 ∧
      ¬(signed ∧ integerOf signed a = least ∧ integerOf signed b = -1) := by
  have isQuotient : (signed ∧ a = BitVec.intMin width ∧ b = -1) ↔
      (signed ∧ integerOf signed a = least ∧ integerOf signed b = -1) := by
    cases signed with
    | true =>
        rw [← BitVec.toInt_inj, ← BitVec.toInt_inj (x := b), isLeast, someBits]
        rfl
    | false => simp
  unfold Divisible
  rw [isQuotient, Ne, Ne, integerOf_eq_zero]

/-- The integer of a word that is less than half of all. -/
theorem toInt_of_less
    (less : 2 * a.toNat < 2 ^ width) :
    a.toInt = a.toNat := by
  rw [BitVec.toInt_eq_toNat_cond, if_pos less]

theorem toInt_of_notLess
    (notLess : ¬2 * a.toNat < 2 ^ width) :
    a.toInt = a.toNat - (2 ^ width : Nat) := by
  rw [BitVec.toInt_eq_toNat_cond, if_neg notLess]

theorem unsignedRemainder_toInt
    (small : 2 * (a.toNat % b.toNat) < 2 ^ width) :
    (a.umod b).toInt = (a.toNat % b.toNat : Nat) := by
  have isRemainder : (a.umod b).toNat = a.toNat % b.toNat := by
    rw [BitVec.umod_eq, BitVec.toNat_umod]
  rw [toInt_of_less (isRemainder ▸ small), isRemainder]

theorem unsignedRemainder_nonneg
    (notZero : b ≠ 0)
    (aLess : 2 * a.toNat < 2 ^ width) :
    (a.umod b).toInt = a.toInt.tmod b.toInt ↔
      SameRemainder a.toInt b.toInt (2 ^ width : Nat) := by
  have atMost := Nat.mod_le a.toNat b.toNat
  have bInside := b.isLt
  rw [unsignedRemainder_toInt (by omega), toInt_of_less aLess]
  unfold SameRemainder
  by_cases bLess : 2 * b.toNat < 2 ^ width
  · have positive := toNat_ne_zero notZero
    rw [toInt_of_less bLess]
    exact ⟨fun _ => Or.inl ⟨by omega, Or.inl (by omega)⟩, fun _ => rfl⟩
  · rw [toInt_of_notLess bLess, Nat.mod_eq_of_lt (by omega), eq_comm,
      tmod_eq_self_iff (by omega)]
    omega

theorem unsignedRemainder_negative
    (notZero : b ≠ 0)
    (aNotLess : ¬2 * a.toNat < 2 ^ width) :
    (a.umod b).toInt = a.toInt.tmod b.toInt ↔
      SameRemainder a.toInt b.toInt (2 ^ width : Nat) := by
  have aInside := a.isLt
  have bInside := b.isLt
  have isA := toInt_of_notLess aNotLess
  have atMost : a.toInt.tmod b.toInt ≤ 0 := tmod_nonpos (by omega)
  unfold SameRemainder
  by_cases bLess : 2 * b.toNat < 2 ^ width
  · have positive := toNat_ne_zero notZero
    have less := Nat.mod_lt a.toNat (Nat.pos_of_ne_zero positive)
    have isB := toInt_of_less bLess
    have bothZero : (a.umod b).toInt = a.toInt.tmod b.toInt ↔
        b.toInt ∣ a.toInt + (2 ^ width : Nat) ∧ b.toInt ∣ a.toInt := by
      rw [Int.dvd_iff_tmod_eq_zero (b := a.toInt),
        unsignedRemainder_toInt (by omega)]
      have isSum : a.toInt + (2 ^ width : Nat) = a.toNat := by omega
      rw [isSum, isB, Int.natCast_dvd_natCast, Nat.dvd_iff_mod_eq_zero, ← isB]
      omega
    rw [bothZero]
    constructor
    · rintro ⟨dividesSum, divides⟩
      exact Or.inr (Or.inl ⟨by omega, by omega, divides,
        (Int.dvd_add_right divides).mp dividesSum⟩)
    · rintro (⟨_, _⟩ | ⟨-, -, divides, dividesModulus⟩ | equal)
      · omega
      · exact ⟨Int.dvd_add divides dividesModulus, divides⟩
      · omega
  · have isB := toInt_of_notLess bLess
    by_cases less : a.toNat < b.toNat
    · have notSelf : a.toInt.tmod b.toInt ≠ a.toInt := by
        rw [Ne, tmod_eq_self_iff (by omega)]
        omega
      have isRemainder : (a.umod b).toInt = a.toInt := by
        rw [BitVec.umod_eq, BitVec.toInt_inj]
        exact BitVec.umod_eq_of_lt less
      rw [isRemainder, eq_comm]
      omega
    · have difference : a.toNat % b.toNat = a.toNat - b.toNat := by
        rw [Nat.mod_eq_sub_mod (by omega), Nat.mod_eq_of_lt (by omega)]
      rw [unsignedRemainder_toInt (by omega), difference]
      by_cases equal : a.toNat = b.toNat
      · have same : a.toInt = b.toInt := by omega
        rw [same, Int.tmod_self]
        omega
      · rw [tmod_eq_self (by omega)]
        omega

theorem unsignedRemainder_iff
    (notZero : b ≠ 0) :
    (a.umod b).toInt = a.toInt.tmod b.toInt ↔
      SameRemainder a.toInt b.toInt (2 ^ width : Nat) := by
  by_cases aLess : 2 * a.toNat < 2 ^ width
  · exact unsignedRemainder_nonneg notZero aLess
  · exact unsignedRemainder_negative notZero aLess

theorem remainder_agrees
    {remainderSigned : Bool}
    (weaker : remainderSigned → signed)
    (divisible : Divisible signed a b) :
    ∃ r, remainder remainderSigned a b = some r ∧
      (integerOf signed r = (integerOf signed a).tmod (integerOf signed b) ↔
        (signed → remainderSigned = false →
          SameRemainder (integerOf signed a) (integerOf signed b)
            (2 ^ width : Nat))) := by
  cases signed with
  | false =>
      cases remainderSigned with
      | true => exact absurd (weaker rfl) Bool.false_ne_true
      | false =>
          obtain ⟨r, isR, isInteger⟩ := integerOf_remainder divisible
          exact ⟨r, isR, fun _ signed => absurd signed Bool.false_ne_true,
            fun _ => isInteger⟩
  | true =>
      cases remainderSigned with
      | true =>
          obtain ⟨r, isR, isInteger⟩ := integerOf_remainder divisible
          exact ⟨r, isR, fun _ _ unsigned => absurd unsigned.symm
            Bool.false_ne_true, fun _ => isInteger⟩
      | false =>
          have divisibleToo : Divisible false a b :=
            ⟨divisible.1, fun fails => Bool.false_ne_true fails.1⟩
          refine ⟨a.umod b, if_pos divisibleToo, ?_⟩
          exact (unsignedRemainder_iff divisible.1).trans
            ⟨fun same _ _ => same, fun same => same rfl rfl⟩

/-- A quotient and a remainder that may take the words as unsigned, for a
divisor of which the word is what is left. -/
theorem division_iff
    {remainderSigned : Bool}
    {divisor : Int}
    (weaker : remainderSigned → signed)
    (notZero : divisor ≠ 0)
    (apart : divisor ≠ integerOf signed b →
      (integerOf signed a).tdiv (integerOf signed b) =
          (integerOf signed a).tdiv divisor →
        (integerOf signed a).tdiv (integerOf signed b) = 0) :
    (∃ q r, quotient signed a b = some q ∧
        remainder remainderSigned a b = some r ∧
          IsDivision (integerOf signed a) divisor (integerOf signed q)
            (integerOf signed r)) ↔
      Divisible signed a b ∧
        (divisor = integerOf signed b ∨
          (integerOf signed a).natAbs < (integerOf signed b).natAbs ∧
            (integerOf signed a).natAbs < divisor.natAbs) ∧
        (signed → remainderSigned = false →
          SameRemainder (integerOf signed a) (integerOf signed b)
            (2 ^ width : Nat)) := by
  by_cases divisible : Divisible signed a b
  · obtain ⟨q, isQ, qInteger⟩ := integerOf_quotient divisible
    obtain ⟨r, isR, agrees⟩ := remainder_agrees weaker divisible
    have division := isDivision_otherDivisor (r := integerOf signed r) notZero
      (mt integerOf_eq_zero.mp divisible.1) apart
    rw [agrees, ← qInteger] at division
    rw [isQ, isR, ← division]
    constructor
    · rintro ⟨_, _, ⟨⟩, ⟨⟩, isDivision⟩
      exact ⟨divisible, isDivision⟩
    · rintro ⟨-, isDivision⟩
      exact ⟨q, r, rfl, rfl, isDivision⟩
  · constructor
    · rintro ⟨q, r, isQ, -⟩
      rw [quotient, if_neg divisible] at isQ
      cases isQ
    · exact fun holds => absurd holds.1 divisible

end Words

/-! ## Shifts -/

/-- A shift has a meaning for counts below the number of bits. -/
def shiftLeft {width : Nat} (word : BitVec width) (count : Nat) :
    Option (BitVec width) :=
  if count < width then some (word <<< count) else none

/-- A shift to the right, where it is defined. -/
def shiftRight (signed : Bool) {width : Nat} (word : BitVec width)
    (count : Nat) : Option (BitVec width) :=
  if count < width then
    some (if signed then word.sshiftRight count else word >>> count)
  else
    none

section Shifts

variable {width count : Nat}

theorem ushiftRight_eq_sshiftRight_iff
    (word : BitVec width)
    (less : count < width) :
    word >>> count = word.sshiftRight count ↔
      count = 0 ∨ 0 ≤ word.toInt := by
  cases isNegative : word.msb with
  | false =>
      rw [BitVec.sshiftRight_eq_of_msb_false isNegative]
      exact ⟨fun _ => Or.inr (BitVec.toInt_nonneg_of_msb_false isNegative),
        fun _ => rfl⟩
  | true =>
      have negative := BitVec.toInt_neg_of_msb_true isNegative
      constructor
      · intro same
        by_cases zero : count = 0
        · exact Or.inl zero
        · have shifted := congrArg BitVec.msb same
          rw [BitVec.msb_sshiftRight, isNegative] at shifted
          simp at shifted
          omega
      · rintro (rfl | atLeast)
        · simp
        · omega

end Shifts

end NanoClr
