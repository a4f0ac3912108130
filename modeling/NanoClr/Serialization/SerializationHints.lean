import NanoClr.Library.WrappedDivision
import NanoClr.Serialization.CompressedUnsigned

/-!
# Serialization hints

`EmitValue` writes a number with a bias, a scale and a number of bits that its
hints give, and `ReadValue` undoes this.
-/

namespace NanoClr

namespace Serialization

open Arrays Streams

/-- What the hints say about a number. -/
structure SerializationHintsAttribute where
  m_bitPacked : Int32
  m_rangeBias : BitVec 64
  m_scale : BitVec 64

/-- The types whose values are numbers; an enumeration has the type of its
values. -/
inductive NumberType where
  | dateTime
  | timeSpan
  | boolean
  | i1
  | u1
  | char
  | i2
  | u2
  | i4
  | u4
  | i8
  | u8
deriving DecidableEq

namespace NumberType

/-- The bits of a type, from the lookup table. -/
def GetSizeOfType : NumberType → UInt32
  | boolean => 1
  | i1 | u1 => 8
  | char | i2 | u2 => 16
  | i4 | u4 => 32
  | dateTime | timeSpan | i8 | u8 => 64

/-- The type is signed, from the lookup table. -/
def GetSignOfType : NumberType → Bool
  | timeSpan | i1 | i2 | i4 | i8 => true
  | dateTime | boolean | u1 | char | u2 | u4 | u8 => false

/-- The value of a block, of which a type takes the low bits. -/
def valueOf (m_type : NumberType) (block : BitVec 64) : Int :=
  integerOf m_type.GetSignOfType
    (block.setWidth m_type.GetSizeOfType.toNat)

end NumberType

/-- The number of bits that are written. -/
def SerializationHintsAttribute.bits
    (m_hints : SerializationHintsAttribute)
    (m_type : NumberType) : UInt32 :=
  if m_hints.m_bitPacked ≠ 0 then m_hints.m_bitPacked.toUInt32
  else m_type.GetSizeOfType

namespace TypeHandler

/-- Whether a number can be written with so many bits, unless the shift that
gives the largest one has no meaning. -/
def inRange (fSigned : Bool) (bits : UInt32) (val : BitVec 64) :
    Option Bool :=
  if bits = 64 then
    some true
  else if fSigned then
    (shiftLeft (1 : BitVec 64) (bits - 1).toNat).map fun top =>
      let maxVal := top - 1
      !(val.slt (-maxVal - 1) || maxVal.slt val)
  else
    (shiftLeft (1 : BitVec 64) bits.toNat).map fun top =>
      let maxVal := top - 1
      !maxVal.ult val

/-- The number that is written. -/
def scaled
    (m_type : NumberType)
    (m_hints : SerializationHintsAttribute)
    (val : BitVec 64) : Option (BitVec 64) :=
  let shift := 64 - m_type.GetSizeOfType
  let val := extend m_type.GetSignOfType val shift.toNat
  let val := val - m_hints.m_rangeBias
  if m_hints.m_scale ≠ 0 then
    quotient m_type.GetSignOfType val m_hints.m_scale
  else
    some val

/-- What `EmitValue` comes to: it fails, it evaluates what has no meaning in
C++, or it writes. -/
inductive EmitResult where
  | CLR_E_NULL_REFERENCE
  | CLR_E_SERIALIZATION_VIOLATION
  | undefined
  | written (m_stream : CLR_RT_HeapBlock_MemoryStream) (hr : CallResult Unit)

/-- `EmitValue` of a number, which may be missing. -/
def EmitValue
    (cache : EventCache)
    (m_stream : CLR_RT_HeapBlock_MemoryStream)
    (m_type : NumberType)
    (m_hints : SerializationHintsAttribute)
    (value : Option (BitVec 64)) : EmitResult :=
  match value with
  | none => .CLR_E_NULL_REFERENCE
  | some val =>
      let bits := m_hints.bits m_type
      match scaled m_type m_hints val with
      | none => .undefined
      | some val =>
          match inRange m_type.GetSignOfType bits val with
          | none => .undefined
          | some false => .CLR_E_SERIALIZATION_VIOLATION
          | some true =>
              let written :=
                m_stream.WriteBits64 cache (UInt64.ofBitVec val) bits
              .written written.1 written.2

/-- The scale and the bias of a number are undone. -/
def unscaled (m_hints : SerializationHintsAttribute) (val : BitVec 64) :
    BitVec 64 :=
  let val := if m_hints.m_scale ≠ 0 then val * m_hints.m_scale else val
  val + m_hints.m_rangeBias

/-- The block that `ReadValue` makes of the number that is read. -/
def restored
    (m_type : NumberType)
    (m_hints : SerializationHintsAttribute)
    (val : BitVec 64) : Option (BitVec 64) :=
  let bits := m_hints.bits m_type
  let extended :=
    if bits ≠ 64 then
      let revBits := (64 - bits).toNat
      if revBits < 64 then some (extend m_type.GetSignOfType val revBits)
      else none
    else
      some val
  extended.map (unscaled m_hints)

/-- `ReadValue` of a number. -/
def ReadValue
    (m_stream : CLR_RT_HeapBlock_MemoryStream)
    (m_type : NumberType)
    (m_hints : SerializationHintsAttribute) :
    Option (CLR_RT_HeapBlock_MemoryStream × CallResult (BitVec 64)) :=
  match m_stream.ReadBits64 (m_hints.bits m_type) with
  | (m_stream, .S_OK val) =>
      (restored m_type m_hints val.toBitVec).map fun block =>
        (m_stream, .S_OK block)
  | (m_stream, .failed hr) => some (m_stream, .failed hr)
  | (m_stream, .outside) => some (m_stream, .outside)

/-! ## Bits -/

section Bits

variable
  {m_type : NumberType}
  {m_hints : SerializationHintsAttribute}
  {fSigned : Bool}
  {bits : UInt32}
  {val : BitVec 64}

theorem bits_pos : 0 < (m_hints.bits m_type).toNat := by
  unfold SerializationHintsAttribute.bits
  split
  case isTrue packed =>
    apply Nat.pos_of_ne_zero
    intro isZero
    apply packed
    exact congrArg Int32.ofUInt32 (UInt32.toNat_inj.mp isZero)
  case isFalse =>
    cases m_type <;> decide

/-- The largest number of some bits. -/
theorem largest_toNat
    {count : Nat}
    (few : count < 64) :
    ((1 : BitVec 64) <<< count - 1).toNat = 2 ^ count - 1 := by
  have power : 2 ^ count < 2 ^ 64 := Nat.pow_lt_pow_right (by decide) few
  have positive : 0 < 2 ^ count := Nat.two_pow_pos count
  have one_ : (1 : BitVec 64).toNat = 1 := rfl
  rw [BitVec.toNat_sub, BitVec.toNat_shiftLeft, one_, Nat.one_shiftLeft,
    Nat.mod_eq_of_lt power]
  omega

/-- A number in range is that of its low bits. -/
theorem inRange_true
    (some_ : 0 < bits.toNat)
    (fits : inRange fSigned bits val = some true) :
    bits.toNat ≤ 64 ∧
      integerOf fSigned (val.setWidth bits.toNat) = integerOf fSigned val := by
  unfold inRange at fits
  by_cases all : bits = 64
  · rw [all]
    refine ⟨Nat.le_refl 64, ?_⟩
    exact congrArg (integerOf fSigned) (BitVec.setWidth_eq val)
  rw [if_neg all] at fits
  cases fSigned with
  | true =>
      rw [if_pos rfl] at fits
      obtain ⟨top, isTop, within⟩ := Option.map_eq_some_iff.mp fits
      unfold shiftLeft at isTop
      split at isTop
      case isFalse => cases isTop
      case isTrue few =>
        cases isTop
        have isPred : (bits - 1).toNat = bits.toNat - 1 :=
          UInt32.toNat_sub_of_le bits 1 (UInt32.le_iff_toNat_le.mpr some_)
        have notAll : bits.toNat ≠ 64 := fun isAll =>
          all (UInt32.toNat_inj.mp isAll)
        have largest := largest_toNat few
        rw [isPred] at few largest within
        have positive : 0 < 2 ^ (bits.toNat - 1) := Nat.two_pow_pos _
        have power : 2 ^ (bits.toNat - 1) < 2 ^ 63 :=
          Nat.pow_lt_pow_right (by decide) (by omega)
        have isTwice : 2 ^ bits.toNat = 2 * 2 ^ (bits.toNat - 1) := by
          rw [← Nat.pow_succ', Nat.succ_eq_add_one, Nat.sub_add_cancel some_]
        generalize (1 : BitVec 64) <<< (bits.toNat - 1) - 1 = maxVal
          at largest within
        generalize 2 ^ (bits.toNat - 1) = half at largest positive power isTwice
        have maxInt : maxVal.toInt = maxVal.toNat := toInt_of_less (by omega)
        have negated : (-maxVal).toInt = -(maxVal.toNat : Int) := by
          rw [BitVec.toInt_neg, maxInt]
          exact Int.bmod_eq_of_le (by omega) (by omega)
        have minInt : (-maxVal - 1).toInt = -(maxVal.toNat : Int) - 1 := by
          have one_ : (1 : BitVec 64).toInt = 1 := rfl
          rw [BitVec.toInt_sub, negated, one_]
          exact Int.bmod_eq_of_le (by omega) (by omega)
        dsimp only at within
        rw [Bool.not_eq_true', Bool.or_eq_false_iff] at within
        have atLeast := BitVec.slt_eq_decide.symm.trans within.1
        have atMost := BitVec.slt_eq_decide.symm.trans within.2
        rw [decide_eq_false_iff_not, minInt] at atLeast
        rw [decide_eq_false_iff_not, maxInt] at atMost
        refine ⟨by omega, ?_⟩
        change (val.setWidth bits.toNat).toInt = val.toInt
        have low : (val.toNat : Int).bmod (2 ^ bits.toNat) =
            val.toInt.bmod (2 ^ bits.toNat) := by
          rw [BitVec.toInt_eq_toNat_bmod, Int.bmod_bmod_of_dvd
            (Nat.pow_dvd_pow 2 (by omega))]
        rw [BitVec.toInt_setWidth, low, isTwice]
        exact Int.bmod_eq_of_le (by omega) (by omega)
  | false =>
      rw [if_neg Bool.false_ne_true] at fits
      obtain ⟨top, isTop, within⟩ := Option.map_eq_some_iff.mp fits
      unfold shiftLeft at isTop
      split at isTop
      case isFalse => cases isTop
      case isTrue few =>
        cases isTop
        have largest := largest_toNat few
        have positive : 0 < 2 ^ bits.toNat := Nat.two_pow_pos _
        dsimp only at within
        rw [Bool.not_eq_true', BitVec.ult_eq_decide,
          decide_eq_false_iff_not, largest] at within
        refine ⟨Nat.le_of_lt few, ?_⟩
        change ((val.setWidth bits.toNat).toNat : Int) = val.toNat
        rw [BitVec.toNat_setWidth, Nat.mod_eq_of_lt (by omega)]

/-- What is read from the low bits of a number in range is that number. -/
theorem extend_read
    {read : BitVec 64}
    (few : bits.toNat ≤ 64)
    (fits : integerOf fSigned (val.setWidth bits.toNat) =
      integerOf fSigned val)
    (isRead : read.toNat = val.toNat % 2 ^ bits.toNat) :
    extend fSigned read (64 - bits.toNat) = val := by
  have sameBits : read.setWidth bits.toNat = val.setWidth bits.toNat := by
    apply BitVec.eq_of_toNat_eq
    rw [BitVec.toNat_setWidth, BitVec.toNat_setWidth, isRead, Nat.mod_mod]
  apply integerOf_injective
  rw [integerOf_extend (Nat.add_sub_cancel' few), sameBits, fits]

end Bits

/-! ## Values -/

section Values

variable
  (m_type : NumberType)
  (m_hints : SerializationHintsAttribute)
  (block : BitVec 64)

/-- A value without the bias. -/
def difference : Int :=
  m_type.valueOf block - m_hints.m_rangeBias.toInt

/-- The scale divides the value without the bias. -/
def ScaleDivides : Prop :=
  m_hints.m_scale ≠ 0 →
    (m_hints.m_scale.toNat : Int) ∣ difference m_type m_hints block

/-- The value without the bias is a number of 64 bits, or wrapping it does no
harm. -/
def KeepsValue : Prop :=
  (if m_type.GetSignOfType then
      -2 ^ 63 ≤ difference m_type m_hints block ∧
        difference m_type m_hints block < 2 ^ 63
    else
      0 ≤ difference m_type m_hints block ∧
        difference m_type m_hints block < 2 ^ 64) ∨
    (m_type.GetSignOfType = true ∧ 2 ^ 63 ≤ m_hints.m_scale.toNat) ∨
    2 ^ m_type.GetSizeOfType.toNat ∣ 2 ^ 64 % m_hints.m_scale.toNat

variable {m_type} {m_hints} {block}

theorem size_le : m_type.GetSizeOfType.toNat ≤ 64 := by
  cases m_type <;> decide

/-- The number that a value is extended to. -/
def extendedValue (m_type : NumberType) (block : BitVec 64) : BitVec 64 :=
  extend m_type.GetSignOfType block (64 - m_type.GetSizeOfType).toNat

theorem shift_toNat :
    m_type.GetSizeOfType.toNat + (64 - m_type.GetSizeOfType).toNat = 64 := by
  cases m_type <;> decide

theorem integerOf_extendedValue :
    integerOf m_type.GetSignOfType (extendedValue m_type block) =
      m_type.valueOf block :=
  integerOf_extend shift_toNat

theorem valueOf_eq_iff {other : BitVec 64} :
    m_type.valueOf other = m_type.valueOf block ↔
      other.setWidth m_type.GetSizeOfType.toNat =
        (extendedValue m_type block).setWidth m_type.GetSizeOfType.toNat := by
  rw [extendedValue, setWidth_extend shift_toNat]
  exact ⟨integerOf_injective, congrArg (integerOf m_type.GetSignOfType)⟩

/-- The bits of a value are kept if what a division leaves has none of them. -/
theorem keeps_iff
    {val scale bias q r : BitVec 64}
    {x : BitVec 64}
    {signed : Bool}
    {size : Nat}
    (few : size ≤ 64)
    (isVal : val = x - bias)
    (isQuotient : quotient signed val scale = some q)
    (isRemainder : remainder signed val scale = some r) :
    (q * scale + bias).setWidth size = x.setWidth size ↔
      ((2 ^ size : Nat) : Int) ∣ integerOf signed r := by
  have isX : x = q * scale + bias + r := by
    have sum := quotient_mul_add isQuotient isRemainder
    rw [BitVec.add_assoc, BitVec.add_comm bias, ← BitVec.add_assoc, ← sum,
      isVal, BitVec.sub_add_cancel]
  rw [← setWidth_eq_zero_iff few, isX,
    BitVec.setWidth_add (q * scale + bias) r few]
  exact BitVec.self_eq_add_right

theorem valueOf_lt
    (unsigned : m_type.GetSignOfType = false) :
    m_type.valueOf block < 2 ^ 32 ∨ m_type.GetSizeOfType.toNat = 64 := by
  have less := (block.setWidth m_type.GetSizeOfType.toNat).isLt
  by_cases small : m_type.GetSizeOfType.toNat ≤ 32
  · have power : 2 ^ m_type.GetSizeOfType.toNat ≤ 2 ^ 32 :=
      Nat.pow_le_pow_right (by decide) small
    apply Or.inl
    rw [NumberType.valueOf, unsigned]
    change (((block.setWidth _).toNat : Nat) : Int) < 2 ^ 32
    omega
  · apply Or.inr
    cases m_type <;> first | rfl | exact absurd (by decide) small

/-- The bits of the value are kept exactly under the condition. -/
theorem dvd_remainder_iff
    {val r : BitVec 64}
    (isVal : val = extendedValue m_type block - m_hints.m_rangeBias)
    (notZero : m_hints.m_scale ≠ 0)
    (divides : ScaleDivides m_type m_hints block)
    (isRemainder : integerOf m_type.GetSignOfType r =
      (integerOf m_type.GetSignOfType val).tmod
        (integerOf m_type.GetSignOfType m_hints.m_scale)) :
    ((2 ^ m_type.GetSizeOfType.toNat : Nat) : Int) ∣
        integerOf m_type.GetSignOfType r ↔
      KeepsValue m_type m_hints block := by
  have isValue : integerOf m_type.GetSignOfType (extendedValue m_type block) =
      m_type.valueOf block := integerOf_extendedValue
  have multiple := divides notZero
  have positive : 0 < m_hints.m_scale.toNat :=
    Nat.pos_of_ne_zero (toNat_ne_zero notZero)
  have scaleLess := m_hints.m_scale.isLt
  have biasLess := m_hints.m_rangeBias.isLt
  have isBias := BitVec.toInt_eq_toNat_cond m_hints.m_rangeBias
  have isDifference : difference m_type m_hints block =
      m_type.valueOf block - m_hints.m_rangeBias.toInt := rfl
  rw [isRemainder]
  unfold KeepsValue
  cases signed : m_type.GetSignOfType with
  | true =>
      rw [signed] at isValue
      change (extendedValue m_type block).toInt = _ at isValue
      have isInteger : val.toInt =
          (difference m_type m_hints block).bmod (2 ^ 64) := by
        rw [isVal, BitVec.toInt_sub, isValue]
        rfl
      have isScale : m_hints.m_scale.toInt =
          if m_hints.m_scale.toNat < 2 ^ 63 then (m_hints.m_scale.toNat : Int)
          else m_hints.m_scale.toNat - (2 ^ 64 : Nat) := by
        rw [BitVec.toInt_eq_toNat_cond]
        split <;> split <;> omega
      have atLeast := BitVec.le_toInt (extendedValue m_type block)
      have atMost := BitVec.toInt_lt (x := extendedValue m_type block)
      have wrapped := dvd_wrapped_signed
        (P := 2 ^ m_type.GetSizeOfType.toNat)
        (show 2 ^ 64 = 2 * 2 ^ 63 by decide) multiple positive scaleLess
        (by split at isBias <;> omega) (by split at isBias <;> omega)
      change _ ∣ val.toInt.tmod m_hints.m_scale.toInt ↔ _
      rw [isInteger, isScale, wrapped, if_pos rfl]
      simp
  | false =>
      rw [signed] at isValue
      change ((extendedValue m_type block).toNat : Int) = _ at isValue
      have small : m_type.valueOf block < 2 ^ 32 ∨
          m_type.GetSizeOfType.toNat = 64 := valueOf_lt signed
      have less := (extendedValue m_type block).isLt
      have isInteger : (val.toNat : Int) =
          difference m_type m_hints block % (2 ^ 64 : Nat) := by
        rw [isVal, BitVec.toNat_sub]
        split at isBias <;> omega
      have wrapped := dvd_wrapped_unsigned
        (P := 2 ^ m_type.GetSizeOfType.toNat) multiple scaleLess
        (by split at isBias <;> omega)
        (by
          rcases small with small | whole
          · split at isBias <;> omega
          · apply Or.inr
            rw [whole]
            refine ⟨rfl, ?_⟩
            split at isBias <;> omega)
      change _ ∣ (val.toNat : Int).tmod (m_hints.m_scale.toNat : Int) ↔ _
      rw [Int.tmod_eq_emod_of_nonneg (Int.natCast_nonneg _), isInteger, wrapped,
        if_neg Bool.false_ne_true]
      simp

/-- What has been scaled and what becomes of it. -/
theorem value_kept_iff
    {val : BitVec 64}
    (divides : ScaleDivides m_type m_hints block)
    (isScaled : scaled m_type m_hints block = some val) :
    m_type.valueOf (unscaled m_hints val) = m_type.valueOf block ↔
      KeepsValue m_type m_hints block := by
  rw [valueOf_eq_iff]
  unfold scaled at isScaled
  unfold unscaled
  dsimp only at isScaled ⊢
  rw [← extendedValue] at isScaled
  by_cases notZero : m_hints.m_scale ≠ 0
  · rw [if_pos notZero] at isScaled ⊢
    have divisible : Divisible m_type.GetSignOfType
        (extendedValue m_type block - m_hints.m_rangeBias)
        m_hints.m_scale := by
      by_contra fails
      rw [quotient, if_neg fails] at isScaled
      cases isScaled
    obtain ⟨r, isRemainder, remainderInteger⟩ :=
      integerOf_remainder divisible
    rw [keeps_iff size_le rfl isScaled isRemainder]
    exact dvd_remainder_iff rfl notZero divides remainderInteger
  · rw [if_neg notZero] at isScaled ⊢
    have isZero : m_hints.m_scale.toNat = 0 := by
      rw [not_not.mp notZero]
      rfl
    cases isScaled
    apply iff_of_true
    · rw [BitVec.sub_add_cancel]
    · apply Or.inr
      apply Or.inr
      rw [isZero, Nat.mod_zero]
      exact Nat.pow_dvd_pow 2 size_le

/-- The number that is read becomes a block. -/
theorem restored_eq
    {val read : BitVec 64}
    (fits : inRange m_type.GetSignOfType (m_hints.bits m_type) val = some true)
    (isRead : read.toNat =
      val.toNat % 2 ^ (m_hints.bits m_type).toNat) :
    restored m_type m_hints read = some (unscaled m_hints val) := by
  have some_ : 0 < (m_hints.bits m_type).toNat := bits_pos
  obtain ⟨few, sameInteger⟩ := inRange_true some_ fits
  have extended := extend_read few sameInteger isRead
  unfold restored
  dsimp only
  by_cases all : m_hints.bits m_type = 64
  · rw [all] at extended
    have whole : read = val := by
      rw [← extended]
      cases m_type.GetSignOfType with
      | true => simp [extend]
      | false => simp [extend]
    rw [if_neg (not_not.mpr all), whole]
    rfl
  · have isReverse : (64 - m_hints.bits m_type).toNat =
        64 - (m_hints.bits m_type).toNat :=
      UInt32.toNat_sub_of_le _ _ (UInt32.le_iff_toNat_le.mpr few)
    rw [if_pos all, isReverse, if_pos (by omega), extended]
    rfl

end Values

open CLR_RT_HeapBlock_MemoryStream (Initialize write read writeBits64_spec
  readBits64_spec runCalls_write initialize_holds)
open CLR_RT_BinaryFormatter (runCalls_read)

/-- A value is read back where it has been written: it is the same, it takes as
many bits, and what has been written behind it is read, too. -/
def ReadsValueBack
    (m_type : NumberType)
    (m_hints : SerializationHintsAttribute)
    (block : BitVec 64)
    (start emitted reached : CLR_RT_HeapBlock_MemoryStream)
    (after : List StreamWrite) : Prop :=
  ∃ last result, ReadValue reached m_type m_hints =
      some (last, .S_OK result) ∧
    m_type.valueOf result = m_type.valueOf block ∧
    reached.BitsAvailable - last.BitsAvailable =
      emitted.BitsWritten - start.BitsWritten ∧
    last.ReadsBack after

theorem emitValue_written
    {cache : EventCache}
    {m_stream emitted : CLR_RT_HeapBlock_MemoryStream}
    {m_type : NumberType}
    {m_hints : SerializationHintsAttribute}
    {block : BitVec 64}
    {hr : CallResult Unit}
    (isEmitted : EmitValue cache m_stream m_type m_hints (some block) =
      .written emitted hr) :
    ∃ val, scaled m_type m_hints block = some val ∧
      inRange m_type.GetSignOfType (m_hints.bits m_type) val = some true ∧
      m_stream.WriteBits64 cache (UInt64.ofBitVec val) (m_hints.bits m_type) =
        (emitted, hr) := by
  unfold EmitValue at isEmitted
  dsimp only at isEmitted
  split at isEmitted
  · cases isEmitted
  case h_2 val isScaled =>
    split at isEmitted
    · cases isEmitted
    · cases isEmitted
    case h_3 fits =>
      cases isEmitted
      exact ⟨val, isScaled, fits, rfl⟩

section RoundTrip

variable
  {cache : EventCache}
  {start : CLR_RT_HeapBlock_MemoryStream}
  {m_type : NumberType}
  {m_hints : SerializationHintsAttribute}
  {block val : BitVec 64}
  {before : List StreamWrite}

/-- A number in range is written. -/
theorem emitValue_inRange
    (supplied : ∀ number, (cache number).isSome)
    (holdsStart : start.Holds (before.flatMap StreamWrite.written))
    (isScaled : scaled m_type m_hints block = some val)
    (fits : inRange m_type.GetSignOfType (m_hints.bits m_type) val =
      some true) :
    ∃ emitted, EmitValue cache start m_type m_hints (some block) =
        .written emitted (.S_OK ()) ∧
      emitted.Holds (before.flatMap StreamWrite.written ++
        bitsOf (m_hints.bits m_type).toNat val.toNat) := by
  obtain ⟨later, isLater, holdsLater⟩ :=
    @writeBits64_spec _ _ _ supplied (UInt64.ofBitVec val) _
      (inRange_true bits_pos fits).1 holdsStart
  refine ⟨later, ?_, holdsLater⟩
  unfold EmitValue
  dsimp only
  rw [isScaled]
  dsimp only
  rw [fits]
  dsimp only
  rw [isLater]

/-- A value is read back exactly if it is kept. -/
theorem readsValueBack_iff
    {emitted : CLR_RT_HeapBlock_MemoryStream}
    (supplied : ∀ number, (cache number).isSome)
    (holdsStart : start.Holds (before.flatMap StreamWrite.written))
    (isEmitted : EmitValue cache start m_type m_hints (some block) =
      .written emitted (.S_OK ()))
    (divides : ScaleDivides m_type m_hints block)
    (after : List StreamWrite) :
    ReadsValueBack m_type m_hints block start emitted
        (runCalls read (runCalls (write cache) emitted after).1.Rewind
          (before.map StreamWrite.corresponding)).1 after ↔
      KeepsValue m_type m_hints block := by
  obtain ⟨val, isScaled, fits, isWritten⟩ := emitValue_written isEmitted
  have few := (inRange_true bits_pos fits).1
  obtain ⟨later, isLater, holdsLater⟩ :=
    emitValue_inRange supplied holdsStart isScaled fits
  cases isEmitted.symm.trans isLater
  have holdsLast := (runCalls_write supplied holdsLater after).2
  obtain ⟨free, leaves⟩ := holdsLast.rewind
  rw [List.append_assoc, List.append_assoc] at leaves
  have leavesReached := runCalls_read leaves
  generalize (runCalls read (runCalls (write cache) emitted after).1.Rewind
    (before.map StreamWrite.corresponding)).1 = reached at leavesReached ⊢
  obtain ⟨last, number, isLast, isNumber, leavesLast⟩ :=
    readBits64_spec few length_bitsOf leavesReached
  rw [ofBits_bitsOf] at isNumber
  have isResult : ReadValue reached m_type m_hints =
      some (last, .S_OK (unscaled m_hints val)) := by
    unfold ReadValue
    rw [isLast]
    dsimp only
    rw [restored_eq fits isNumber]
    rfl
  have isKept := value_kept_iff divides isScaled
  constructor
  · rintro ⟨last', result, isResult', sameValue, -⟩
    rw [isResult] at isResult'
    cases isResult'
    exact isKept.mp sameValue
  · intro keeps
    refine ⟨last, _, isResult, isKept.mpr keeps, ?_, leavesLast.readsBack⟩
    rw [leavesLast.bitsAvailable, leavesReached.bitsAvailable,
      holdsLater.bitsWritten, holdsStart.bitsWritten, List.length_append,
      List.length_append, Int32.ofNat_add, Int32.ofNat_add]
    simp [Int32.add_comm]

/-- Whatever is written before and after a value, it is read back exactly if
wrapping its difference from the bias does no harm. -/
theorem serializationHints_roundTrip_iff
    (supplied : ∀ number, (cache number).isSome)
    (m_type : NumberType)
    (m_hints : SerializationHintsAttribute)
    (block : BitVec 64)
    (before after : List StreamWrite) :
    ∃ stream, Initialize cache none = .S_OK stream ∧
      let start := (runCalls (write cache) stream before).1
      ∀ emitted,
        EmitValue cache start m_type m_hints (some block) =
          .written emitted (.S_OK ()) →
        ScaleDivides m_type m_hints block →
        let rewound := (runCalls (write cache) emitted after).1.Rewind
        let reached := (runCalls read rewound
          (before.map StreamWrite.corresponding)).1
        ReadsValueBack m_type m_hints block start emitted reached after ↔
          KeepsValue m_type m_hints block := by
  obtain ⟨stream, isNew, holds⟩ := initialize_holds supplied
  refine ⟨stream, isNew, ?_⟩
  intro start emitted isEmitted divides rewound reached
  have holdsStart := (runCalls_write supplied holds before).2
  exact readsValueBack_iff supplied holdsStart isEmitted divides after

end RoundTrip

/-- A stream of which the first three bits are taken. -/
def takenBits : List StreamWrite := [.number 5 ⟨3, by decide⟩]

/-- An event cache whose buffers are filled with ones. -/
def filledCache : EventCache := fun _ => some (Vector.replicate _ 0xFF)

/-- A negative number in five bits that do not start at a byte. -/
theorem serializationHints_roundTrip_negative :
    ∃ stream, Initialize filledCache none = .S_OK stream ∧
      let start := (runCalls (write filledCache) stream takenBits).1
      let m_hints : SerializationHintsAttribute := ⟨5, 3, 5⟩
      ∃ emitted,
        EmitValue filledCache start .i4 m_hints (some 0xFFFFFFF9) =
          .written emitted (.S_OK ()) ∧
        let reached := (runCalls read emitted.Rewind [.number 3]).1
        ReadsValueBack .i4 m_hints 0xFFFFFFF9 start emitted reached [] := by
  have supplied : ∀ number, (filledCache number).isSome := fun _ => rfl
  obtain ⟨stream, isNew, roundTrips⟩ := serializationHints_roundTrip_iff
    supplied .i4 ⟨5, 3, 5⟩ 0xFFFFFFF9 takenBits []
  obtain ⟨stream', isNew', holds⟩ := initialize_holds supplied
  cases isNew.symm.trans isNew'
  have holdsStart := (runCalls_write supplied holds takenBits).2
  have isScaled : scaled .i4 ⟨5, 3, 5⟩ 0xFFFFFFF9 = some (-2) := by decide
  obtain ⟨emitted, isEmitted, -⟩ :=
    emitValue_inRange supplied holdsStart isScaled (by decide)
  have divides : ScaleDivides .i4 ⟨5, 3, 5⟩ 0xFFFFFFF9 := by
    intro _
    decide
  refine ⟨stream, isNew, emitted, isEmitted, ?_⟩
  apply (roundTrips emitted isEmitted divides).mpr
  exact Or.inl (by decide)

/-- A date before the bias is not read back. -/
theorem serializationHints_losesDate :
    ∃ stream, Initialize filledCache none = .S_OK stream ∧
      let m_hints : SerializationHintsAttribute := ⟨0, 8, 3⟩
      ∃ emitted,
        EmitValue filledCache stream .dateTime m_hints (some 5) =
            .written emitted (.S_OK ()) ∧
          ScaleDivides .dateTime m_hints 5 ∧
          ¬ ReadsValueBack .dateTime m_hints 5 stream emitted emitted.Rewind
            [] := by
  have supplied : ∀ number, (filledCache number).isSome := fun _ => rfl
  obtain ⟨stream, isNew, holds⟩ := initialize_holds supplied
  have isScaled : scaled .dateTime ⟨0, 8, 3⟩ 5 =
      some 0x5555555555555554 := by
    decide
  have holdsNone : stream.Holds
      (([] : List StreamWrite).flatMap StreamWrite.written) := holds
  obtain ⟨emitted, isEmitted, -⟩ :=
    emitValue_inRange supplied holdsNone isScaled (by decide)
  have divides : ScaleDivides .dateTime ⟨0, 8, 3⟩ 5 := by
    intro _
    decide
  refine ⟨stream, isNew, emitted, isEmitted, divides, ?_⟩
  intro readsBack
  have keeps := (readsValueBack_iff supplied holdsNone isEmitted divides
    []).mp readsBack
  revert keeps
  unfold KeepsValue
  decide

end TypeHandler

end Serialization

end NanoClr
